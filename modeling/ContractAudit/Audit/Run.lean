import ContractAudit.Audit.Edges
import ContractAudit.Audit.Flows
import ContractAudit.Audit.Invariants
import ContractAudit.Audit.Nodes

/-!
# Running an audit

The phases run in order, each over its part of the map in the order of the document. The report is
the records of all blocks one after the other; no block depends on another.
-/

namespace ContractAudit.Audit

def blocks (a : Audit) : Phase → List Block
  | .nodes => a.nodeBlocks
  | .edges => a.edgeBlocks
  | .flows => a.flowBlocks
  | .invariants => a.invariantBlocks

def phaseRecords (a : Audit) (phase : Phase) : List CheckRecord :=
  (a.blocks phase).flatMap Block.records

def records (a : Audit) : List CheckRecord := Phase.all.flatMap a.phaseRecords

def report (a : Audit) : Report :=
  .ofRecords a.document.metadata.name a.document.version a.records

end ContractAudit.Audit
