import ContractAudit.FilePath

/-!
# Sources

Sources are all that an audit sees of the files it checks: the text of a path, or why there is none,
and whether a file is there to be read. The two questions are independent, since a file whose
content is never looked at need not be text.
-/

namespace ContractAudit

/-- What can be asked about files. -/
structure Sources where
  read : FilePath → Except String String
  readable : FilePath → Bool

namespace Sources

/-- The body kept under a path of the same components. -/
def lookup (bodies : List (FilePath × Option String)) (p : FilePath) : Option (Option String) :=
  (bodies.find? fun b => b.1.components == p.components).map Prod.snd

/-- Sources that are listed. A listed path without a body is a file that is there and is no text. -/
def ofList (bodies : List (FilePath × Option String)) : Sources where
  read p :=
    match lookup bodies p with
    | some (some text) => .ok text
    | some none => .error "not text"
    | none => .error "not found"
  readable p := (lookup bodies p).isSome

/-- The same sources, of which only texts count as readable. -/
def textsOnly (s : Sources) : Sources where
  read := s.read
  readable p := (s.read p).isOk

end Sources

end ContractAudit
