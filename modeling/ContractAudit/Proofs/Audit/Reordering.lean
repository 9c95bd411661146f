import ContractAudit.Proofs.Audit.Footprint
import ContractAudit.Proofs.Audit.ReportStructure

/-!
# The order of a map only orders its report

A map whose entries are put in another order declares the same nodes under the same ids, so nothing
that a check looks up changes, and no block depends on the blocks before it. Its report is made of
the same blocks in the new order (`order_only_orders`), and the summary counts the same records.

The argument never names a permutation. The blocks of the first audit are laid out along the entries
of any map by `Audit.recordsInOrder`; along the audit's own map that is its report, and along the
reordered one it is the other report.
-/

namespace ContractAudit

/-- The same entries in another order, in each part of a map. -/
structure Document.Reorders (d d' : Document) : Prop where
  version : d'.version = d.version
  metadata : d'.metadata = d.metadata
  nodes : d'.nodes.entries.Perm d.nodes.entries
  edges : d'.edges.Perm d.edges
  flows : d'.flows.entries.Perm d.flows.entries
  invariants : d'.invariants.Perm d.invariants

namespace Audit

/-- The audit of another map against the same sources. -/
def ofMap (a : Audit) (d : Document) : Audit := { a with document := d }

/-! ## Blocks in another order -/

section

variable {a : Audit} {d : Document} (h : a.document.Reorders d)
include h

theorem sameGround_ofMap : SameGround a (a.ofMap d) where
  sources := rfl
  root := rfl
  mapRoot := congrArg Meta.root h.metadata

/-- Ids are unique, so a lookup finds the same record wherever it stands. -/
theorem node?_ofMap (id : String) : (a.ofMap d).document.node? id = a.document.node? id :=
  Registry.get?_eq_of_perm h.nodes id

theorem edgeBlock_ofMap (e : EdgeRecord) : (a.ofMap d).edgeBlock e = a.edgeBlock e :=
  edgeBlock_congr ((sameGround_ofMap h).sourceSeen_eq (node?_ofMap h e.source))
    (SameGround.schemaSeen_eq (node?_ofMap h e.target))

theorem flowBlock_ofMap (name : String) (f : FlowRecord) :
    (a.ofMap d).flowBlock name f = a.flowBlock name f := by
  apply flowBlock_congr
  intro id _
  rw [declares_eq, declares_eq, node?_ofMap h]

theorem invariantBlock_ofMap (i : InvariantRecord) :
    (a.ofMap d).invariantBlock i = a.invariantBlock i :=
  invariantBlock_congr fun id _ => (sameGround_ofMap h).fileSeen_eq (node?_ofMap h id)

theorem recordsInOrder_ofMap (d' : Document) :
    (a.ofMap d).recordsInOrder d' = a.recordsInOrder d' := by
  apply recordsInOrder_congr
  · intro id n
    rw [(sameGround_ofMap h).nodeBlock_eq]
  · intro e
    rw [edgeBlock_ofMap h]
  · intro name f
    rw [flowBlock_ofMap h]
  · intro i
    rw [invariantBlock_ofMap h]

theorem report_records_ofMap : (a.ofMap d).report.records = a.recordsInOrder d := by
  rw [report_records_inOrder]
  exact recordsInOrder_ofMap h d

/-! ## The same records -/

theorem perm_recordsInOrder : (a.recordsInOrder d).Perm (a.recordsInOrder a.document) :=
  (((h.nodes.flatMap_right _).append (h.edges.flatMap_right _)).append
    (h.flows.flatMap_right _)).append (h.invariants.flatMap_right _)

theorem perm_records_ofMap : (a.ofMap d).report.records.Perm a.report.records := by
  rw [report_records_ofMap h, report_records_inOrder a]
  exact perm_recordsInOrder h

end

end Audit

/-- Counting does not see an order. -/
theorem Summary.ofRecords_perm {rs rs' : List CheckRecord} (h : rs'.Perm rs) :
    Summary.ofRecords rs' = Summary.ofRecords rs := by
  unfold Summary.ofRecords
  rw [h.countP_eq, h.countP_eq, h.countP_eq, h.length_eq]

/-- **The order of a map only orders its report.** The report of a reordered map has the same
summary and exit code, and consists of the blocks of the first report, each whole, in the order in
which the elements now stand. -/
theorem order_only_orders {a : Audit} {d : Document} (h : a.document.Reorders d) :
    (a.ofMap d).report.summary = a.report.summary ∧
    (a.ofMap d).report.exitCode = a.report.exitCode ∧
    a.report.records = a.recordsInOrder a.document ∧
    (a.ofMap d).report.records = a.recordsInOrder d := by
  have hsummary : (a.ofMap d).report.summary = a.report.summary :=
    Summary.ofRecords_perm (Audit.perm_records_ofMap h)
  refine ⟨hsummary, ?_, a.report_records_inOrder, Audit.report_records_ofMap h⟩
  unfold Report.exitCode
  rw [hsummary]

/-! A queue with its worker; one edge and one flow go wrong. -/

def queueNodes : List (String × NodeRecord) :=
  [("queue:jobs", { loc := some "q.tf" }), ("event:done", { loc := some "w.ts" }), ("queue:old", {})]

def queueEdges : List EdgeRecord :=
  [⟨"event:done", "queue:jobs", "co_change", none⟩, ⟨"queue:old", "event:done", "emits", none⟩]

def queueFlows : List (String × FlowRecord) :=
  [("run", { steps := [{ node := "queue:jobs", next := .target "event:done" }] }),
    ("lost", { steps := [{ node := "queue:none" }] })]

def queueInvariants : List InvariantRecord :=
  [{ id := "drained", scope := ["queue:jobs"] }, { id := "empty" }]

def queueMap (nodes : List (String × NodeRecord)) (edges : List EdgeRecord)
    (flows : List (String × FlowRecord)) (invariants : List InvariantRecord) : Document where
  nodes := .ofList nodes
  edges := edges
  flows := .ofList flows
  invariants := invariants

def queueAudit : Audit where
  sources := .ofList [(⟨"q.tf"⟩, some ""), (⟨"w.ts"⟩, some "'done'")]
  document := queueMap queueNodes queueEdges queueFlows queueInvariants
  root := ⟨""⟩

/-- Every part reversed: other records stand first, and the counts are the same. -/
theorem reversed_queue_map :
    let d := queueMap queueNodes.reverse queueEdges.reverse queueFlows.reverse
      queueInvariants.reverse
    queueAudit.document.Reorders d ∧
      (queueAudit.ofMap d).report.summary = queueAudit.report.summary ∧
      (queueAudit.ofMap d).report.records = queueAudit.recordsInOrder d ∧
      (queueAudit.ofMap d).report.records ≠ queueAudit.report.records := by
  intro d
  have h : queueAudit.document.Reorders d :=
    { version := rfl
      metadata := rfl
      nodes := by decide +kernel
      edges := by decide +kernel
      flows := by decide +kernel
      invariants := by decide +kernel }
  obtain ⟨hsummary, -, -, hrecords⟩ := order_only_orders h
  exact ⟨h, hsummary, hrecords, by decide +kernel⟩

end ContractAudit
