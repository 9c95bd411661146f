import ContractAudit.FilePath
import ContractAudit.Text.Blank

/-!
# Locations

A location names a file and perhaps a line: the digits behind the last colon are the line, lines
count from one and fit in 64 bits. Digits that are no such line are dropped all the same. A location
is resolved below the project root, or below the directory of the map inside it.
-/

namespace ContractAudit

/-- A file and perhaps a line in it. -/
structure Location where
  path : String
  line : Option Nat
  deriving DecidableEq, Repr

/-- A path and perhaps a line, ready to be read. -/
structure ResolvedLocation where
  path : FilePath
  line : Option Nat
  deriving DecidableEq, Repr

namespace Location

def isDigits (s : List Char) : Bool := !s.isEmpty && s.all Char.isDigit

def digitsValue (s : List Char) : Nat := s.foldl (fun n c => 10 * n + (c.toNat - '0'.toNat)) 0

/-- The line a digit string means. -/
def lineOfDigits (s : List Char) : Option Nat :=
  let n := digitsValue s
  if 0 < n ∧ n < Nat.pow 2 64 then some n else none

/-- The location a text means, blanks around it aside. -/
def ofString (raw : String) : Location :=
  let trimmed := Text.trimBoth raw.toList
  match Text.cutLast (· == ':') trimmed with
  | some (path, tail) =>
    if isDigits tail then ⟨String.ofList path, lineOfDigits tail⟩ else ⟨String.ofList trimmed, none⟩
  | none => ⟨String.ofList trimmed, none⟩

/-- The directory the locations of a map start from. -/
def base (root : FilePath) (docRoot : String) : FilePath :=
  match Text.nonBlank? docRoot with
  | some dir => root.join ⟨dir⟩
  | none => root

/-- Where a location leads below a project root and the map's own directory. -/
def resolve (l : Location) (root : FilePath) (docRoot : String) : ResolvedLocation :=
  ⟨(base root docRoot).join ⟨l.path⟩, l.line⟩

end Location

/-- A path as it is shown: what is left of it below the project root, if it lies there. -/
def FilePath.shown (p root : FilePath) : String := ((p.below? root).getD p).text

end ContractAudit
