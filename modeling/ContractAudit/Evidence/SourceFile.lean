import ContractAudit.Evidence.Families
import ContractAudit.Text.Lines
import ContractAudit.Text.Split

/-!
# Evidence in a source file

A source file is looked at as a whole and, when its location declares a line, in a window of lines
around that one. Evidence is near when it stands in the window, elsewhere when only the file has it.
Without a declared line all evidence is near.
-/

namespace ContractAudit

/-- The text of a file with uniform line ends, how the file is shown, and the declared line. -/
structure SourceFile where
  display : String
  line : Option Nat
  text : String
  deriving DecidableEq, Repr

/-- What a file says about something declared. -/
inductive Evidence where
  | near
  | elsewhere
  | absent
  deriving DecidableEq, Repr

namespace Evidence

/-- The lines around a declared type or method that count as near. -/
def typeRadius : Nat := 5

def methodRadius : Nat := 5

def endpointRadius : Nat := 10

/-- The lines around any other declaration that count as near. -/
def defaultRadius : Nat := 15

/-- The lines from `radius` before to `radius` behind line `line`, counted from one, or from the
last line if there are fewer. -/
def windowLines (ls : List (List Char)) (line radius : Nat) : List (List Char) :=
  let center := min line ls.length
  let first := max (center - radius) 1
  let last := min (center + radius) ls.length
  (ls.take last).drop (first - 1)

def windowText (text : String) (line radius : Nat) : String :=
  String.ofList (Text.joinLines (windowLines (Text.lines text.toList) line radius))

end Evidence

namespace SourceFile

def window (f : SourceFile) (radius : Nat) : Option String :=
  f.line.map fun line => Evidence.windowText f.text line radius

/-- Where a file has what `has` looks for. -/
def locateWith (f : SourceFile) (radius : Nat) (has : String → Bool) : Evidence :=
  match f.window radius with
  | some window =>
    if has window then .near else if has f.text then .elsewhere else .absent
  | none => if has f.text then .near else .absent

def locate (f : SourceFile) (patterns : List Pattern) (radius : Nat) : Evidence :=
  f.locateWith radius (Evidence.anyFound patterns)

end SourceFile

end ContractAudit
