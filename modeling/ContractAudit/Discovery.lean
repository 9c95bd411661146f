import ContractAudit.Document.Decode
import ContractAudit.FileTree
import ContractAudit.Log.Event

/-!
# Finding and loading a map

A map is kept in a file named `contractmap` with one of three extensions, or in one whose name ends
so behind a dot. Discovery accepts a directory that holds exactly one such file; the order of its
entries does not matter.
-/

namespace ContractAudit

/-! ## File names -/

def documentExtensions : List String := ["yaml", "yml", "json"]

/-- The name of a map's file without its extension. -/
def documentBase : String := "contractmap"

/-- Whether a file name without its extension is one of a map: the base name, or something and a dot
before it. -/
def isDocumentStem (stem : List Char) : Bool :=
  let base := documentBase.toList
  stem == base ||
    (base.isSuffixOf stem &&
      let front := stem.take (stem.length - base.length)
      front.getLast? == some '.' && front != ['.'])

def isDocumentFileName (name : String) : Bool :=
  match Text.cutLast (· == '.') name.toList with
  | some (stem, extension) =>
    documentExtensions.contains (String.ofList extension) && isDocumentStem stem
  | none => false

/-! ## Errors -/

/-- Why there is no map. -/
inductive LoadError where
  | read (path : FilePath) (fault : IoFault)
  | parse (path : FilePath) (error : ParseError)
  | notFound (dir : FilePath)
  | ambiguous (dir : FilePath) (candidates : List FilePath)
  deriving DecidableEq, Repr

def LoadError.message : LoadError → String
  | .read path fault => "failed to read " ++ path.text ++ ": " ++ fault.message
  | .parse path error => "failed to parse " ++ path.text ++ ": " ++ error.message
  | .notFound dir =>
    "no contract map found in " ++ dir.text ++
      " (expected contractmap.yaml or *.contractmap.yaml)"
  | .ambiguous dir candidates =>
    "multiple contract maps found in " ++ dir.text ++ "; pass one explicitly: " ++
      Text.joinWith ", " (candidates.map FilePath.text)

/-! ## Discovery -/

/-- The result of discovery in a directory with these files of maps. -/
def chooseDocument (dir : FilePath) : List FilePath → Except LoadError FilePath
  | [] => .error (.notFound dir)
  | [path] => .ok path
  | candidates => .error (.ambiguous dir candidates)

theorem chooseDocument_eq_notFound_iff {dir : FilePath} {candidates : List FilePath} :
    chooseDocument dir candidates = .error (.notFound dir) ↔ candidates = [] := by
  rcases candidates with _ | ⟨first, _ | ⟨second, rest⟩⟩ <;> simp [chooseDocument]

theorem chooseDocument_eq_ok_iff {dir path : FilePath} {candidates : List FilePath} :
    chooseDocument dir candidates = .ok path ↔ candidates = [path] := by
  rcases candidates with _ | ⟨first, _ | ⟨second, rest⟩⟩ <;> simp [chooseDocument]

theorem chooseDocument_eq_ambiguous_iff {dir : FilePath} {candidates shown : List FilePath} :
    chooseDocument dir candidates = .error (.ambiguous dir shown) ↔
      shown = candidates ∧ 2 ≤ candidates.length := by
  rcases candidates with _ | ⟨first, _ | ⟨second, rest⟩⟩ <;> simp [chooseDocument, eq_comm]

namespace FileSystem

/-- The files of maps in a directory, in ascending order. -/
def documentsIn (fs : FileSystem) (dir : FilePath) : Except IoFault (List FilePath) := do
  let names := (← fs.list dir).filter fun name =>
    isDocumentFileName name && fs.isFile (dir.join ⟨name⟩)
  return (names.mergeSort (fun a b => decide (a ≤ b))).map fun name => dir.join ⟨name⟩

/-- The one map in a directory. -/
def discover (fs : FileSystem) (dir : FilePath) : Except LoadError FilePath :=
  match fs.documentsIn dir with
  | .error fault => .error (.read dir fault)
  | .ok candidates => chooseDocument dir candidates

/-- The event of a discovery that could list the directory. -/
def discoveryEvents (fs : FileSystem) (dir : FilePath) : List Log.Event :=
  match fs.documentsIn dir with
  | .error _ => []
  | .ok candidates => [{
      level := .debug
      origin := .loading
      message := "contract map discovery"
      fields := [("dir", .text dir.text), ("candidates", .count candidates.length)] }]

/-! ## Loading -/

def load (fs : FileSystem) (path : FilePath) : Except LoadError Document :=
  match fs.readText path with
  | .error fault => .error (.read path fault)
  | .ok text => (Document.parse text).mapError (.parse path)

end FileSystem

def Document.loadEvent (d : Document) (path : FilePath) : Log.Event where
  level := .info
  origin := .loading
  message := "loaded contract map"
  fields := [("path", .text path.text), ("nodes", .count d.nodes.size),
    ("edges", .count d.edges.length), ("flows", .count d.flows.size),
    ("invariants", .count d.invariants.length)]

end ContractAudit
