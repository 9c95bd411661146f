import ContractAudit.Report.Basic
import ContractAudit.Text.Blank
import ContractAudit.Text.Split

/-!
# Reports as text

A headline, then under the title of each phase a line for each of its records, then the summary.
Colour is put around the words for statuses and changes nothing else.
-/

namespace ContractAudit

/-- Whether words are set off by colour. -/
inductive Style where
  | plain
  | coloured
  deriving DecidableEq, Repr

/-- A text in a colour, given by the codes of the terminal. -/
def Style.paint (style : Style) (codes text : String) : String :=
  match style with
  | .plain => text
  | .coloured => "\x1b[" ++ codes ++ "m" ++ text ++ "\x1b[0m"

def linesText (lines : List String) : String := String.join (lines.map (· ++ "\n"))

def Status.colour : Status → String
  | .pass => "32"
  | .fail => "31"
  | .warn => "33"

def CheckRecord.lineText (style : Style) (r : CheckRecord) : String :=
  "  " ++ style.paint r.status.colour r.status.text ++ " " ++ r.subject ++ " [" ++ r.check ++ "] " ++
    r.message ++
    match r.location with
    | some location => " (" ++ location ++ ")"
    | none => ""

namespace Report

/-- The name of the map, if it has one. -/
def shownName (r : Report) : String := if Text.isBlankText r.name then "(unnamed)" else r.name

def headline (r : Report) : String :=
  "Contract map: " ++ r.shownName ++ " (version " ++ r.version ++ ")"

def summaryLine (r : Report) : String :=
  "Summary: " ++ toString r.summary.total ++ " checks: " ++ toString r.summary.pass ++ " pass, " ++
    toString r.summary.fail ++ " fail, " ++ toString r.summary.warn ++ " warn"

/-- The lines of a phase: its title and its records. -/
def phaseLines (style : Style) (r : Report) (phase : Phase) : List String :=
  (phase.title ++ ":") ::
    match r.phaseRecords phase with
    | [] => ["  (nothing declared)"]
    | records => records.map (CheckRecord.lineText style)

def lines (style : Style) (r : Report) : List String :=
  r.headline :: Phase.all.flatMap (r.phaseLines style) ++ [r.summaryLine]

def text (style : Style) (r : Report) : String := linesText (r.lines style)

end Report

end ContractAudit
