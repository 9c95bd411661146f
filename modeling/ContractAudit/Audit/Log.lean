import ContractAudit.Audit.Run
import ContractAudit.Impact.Basic
import ContractAudit.Log.Event

/-!
# Logs of audits and queries

The log of an audit tells the blocks of each phase in order: a source that could not be read, then
the records; then that the phase is complete. Its last event is the summary. A query is told in one
event.
-/

namespace ContractAudit

open Log (Event Level Origin FieldValue)

/-- The event of a source that could not be read. -/
def Unreadable.event (u : Unreadable) : Event where
  level := .warn
  origin := .audit
  message := "source file unreadable"
  fields := [("path", .text u.shown), ("error", .text u.fault)]

def CheckRecord.event (r : CheckRecord) : Event where
  level := .debug
  origin := .audit
  message := r.message
  fields := [("phase", .text r.phase.text), ("subject", .text r.subject), ("check", .text r.check),
    ("status", .text r.status.text)]

def Block.events (b : Block) : List Event :=
  b.unreadable.toList.map Unreadable.event ++ b.records.map CheckRecord.event

def Phase.event (phase : Phase) (records : Nat) : Event where
  level := .info
  origin := .audit
  message := "phase complete"
  fields := [("phase", .text phase.text), ("records", .count records)]

def Summary.event (s : Summary) : Event where
  level := .info
  origin := .audit
  message := "verification complete"
  fields := [("pass", .count s.pass), ("fail", .count s.fail), ("warn", .count s.warn)]

namespace Audit

def checkEvents (a : Audit) (phase : Phase) : List Event := (a.blocks phase).flatMap Block.events

def phaseEvents (a : Audit) (phase : Phase) : List Event :=
  a.checkEvents phase ++ [phase.event (a.phaseRecords phase).length]

def events (a : Audit) : List Event :=
  Phase.all.flatMap a.phaseEvents ++ [a.report.summary.event]

end Audit

def ImpactOutcome.event : ImpactOutcome → Event
  | .found r => {
      level := .debug
      origin := .impact
      message := "impact computed"
      fields := [("node_id", .text r.nodeId), ("outgoing", .count r.outgoing.length),
        ("incoming", .count r.incoming.length), ("flows", .count r.flows.length),
        ("invariants", .count r.invariants.length)] }
  | .notFound id _ => {
      level := .debug
      origin := .impact
      message := "impact query on unknown node"
      fields := [("node_id", .text id)] }

end ContractAudit
