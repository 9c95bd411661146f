/-!
# Lines

A text is read as lines that end in a line feed. Files come with carriage returns as well: before
anything looks at a source its line ends are made uniform, first the pairs, then the lone carriage
returns. `universalNewlines` says the same in one pass.
-/

namespace ContractAudit.Text

/-- Drops each carriage return that stands before a line feed; `done` holds the characters read
so far, last first. -/
def dropPairedReturns (done : List Char) : List Char → List Char
  | [] => done.reverse
  | '\r' :: '\n' :: cs => dropPairedReturns ('\n' :: done) cs
  | c :: cs => dropPairedReturns (c :: done) cs

/-- Every line end, a pair or a lone carriage return, becomes one line feed. -/
def normalizeLineEnds (s : List Char) : List Char :=
  (dropPairedReturns [] s).map fun c => if c = '\r' then '\n' else c

/-- One pass over a text: a carriage return becomes a line feed, and a line feed straight after a
carriage return belongs to it. -/
def universalNewlines (afterReturn : Bool) : List Char → List Char
  | [] => []
  | c :: cs =>
    if c = '\r' then '\n' :: universalNewlines true cs
    else if c = '\n' ∧ afterReturn then universalNewlines false cs
    else c :: universalNewlines false cs

/-- The text of a file with uniform line ends. -/
def withUniformLineEnds (s : String) : String := String.ofList (normalizeLineEnds s.toList)

/-- A line without the carriage return that may end it. -/
def chompReturn (line : List Char) : List Char :=
  if line.getLast? = some '\r' then line.dropLast else line

/-- The lines of a text without their line feeds; a final line feed opens no further line. -/
def rawLines (s : List Char) : List (List Char) :=
  s.foldr (fun c ls =>
    if c = '\n' then [] :: ls
    else match ls with
      | [] => [[c]]
      | l :: rest => (c :: l) :: rest) []

/-- The lines of a text without their ends: a line feed, or a carriage return and a line feed. A
carriage return stays at the end of a last line that no line feed closes. -/
def lines (s : List Char) : List (List Char) :=
  let ls := rawLines s
  if s.getLast? = some '\n' then ls.map chompReturn
  else ls.dropLast.map chompReturn ++ ls.getLast?.toList

/-- The lines with a line feed between neighbours. -/
def joinLines (ls : List (List Char)) : List Char := ['\n'].intercalate ls

end ContractAudit.Text
