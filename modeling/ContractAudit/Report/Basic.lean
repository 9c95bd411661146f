/-!
# Reports

A check of one declaration ends in a record: which phase made it, what it is about, its status and a
message, and where that was looked up. A report keeps the records with a summary of their statuses.
Warnings never fail a report; it fails when its summary counts a failure.
-/

namespace ContractAudit

/-- How a check ended. -/
inductive Status where
  | pass
  | fail
  | warn
  deriving DecidableEq, Repr

def Status.text : Status → String
  | .pass => "PASS"
  | .fail => "FAIL"
  | .warn => "WARN"

/-- The parts of a map that are checked one after the other. -/
inductive Phase where
  | nodes
  | edges
  | flows
  | invariants
  deriving DecidableEq, Repr

namespace Phase

/-- The phases in the order in which they run. -/
def all : List Phase := [.nodes, .edges, .flows, .invariants]

def text : Phase → String
  | .nodes => "nodes"
  | .edges => "edges"
  | .flows => "flows"
  | .invariants => "invariants"

def title : Phase → String
  | .nodes => "Nodes"
  | .edges => "Edges"
  | .flows => "Flows"
  | .invariants => "Invariants"

theorem mem_all (p : Phase) : p ∈ all := by cases p <;> decide

end Phase

/-- The outcome of one check of one declaration. -/
structure CheckRecord where
  phase : Phase
  subject : String
  check : String
  status : Status
  message : String
  file : Option String := none
  line : Option Nat := none
  deriving DecidableEq, Repr

namespace CheckRecord

/-- The record with the place that was looked at. -/
def located (r : CheckRecord) (file : String) (line : Option Nat) : CheckRecord :=
  { r with file := some file, line }

/-- The place that was looked at, as a location; a line counts only with a file. -/
def location (r : CheckRecord) : Option String :=
  r.file.map fun file =>
    match r.line with
    | some line => file ++ ":" ++ toString line
    | none => file

end CheckRecord

/-- How many checks ended in each status, and how many there were. -/
structure Summary where
  pass : Nat := 0
  fail : Nat := 0
  warn : Nat := 0
  total : Nat := 0
  deriving DecidableEq, Repr

def Summary.ofRecords (records : List CheckRecord) : Summary where
  pass := records.countP (·.status = .pass)
  fail := records.countP (·.status = .fail)
  warn := records.countP (·.status = .warn)
  total := records.length

/-- The outcome of an audit. -/
structure Report where
  name : String
  version : String
  records : List CheckRecord
  summary : Summary
  deriving DecidableEq, Repr

namespace Report

def ofRecords (name version : String) (records : List CheckRecord) : Report :=
  ⟨name, version, records, .ofRecords records⟩

def phaseRecords (r : Report) (phase : Phase) : List CheckRecord :=
  r.records.filter (·.phase = phase)

/-- One if a failure was counted, and zero otherwise. -/
def exitCode (r : Report) : Nat := if 0 < r.summary.fail then 1 else 0

end Report

end ContractAudit
