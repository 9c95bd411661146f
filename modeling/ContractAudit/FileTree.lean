import ContractAudit.Sources
import ContractAudit.Text.Blank
import ContractAudit.Text.Utf8

/-!
# File trees

A file tree holds directories and files of bytes. A path is walked piece by piece from the root, or
from the working directory: an empty piece and `.` stay, `..` goes up and stays at the root, any
other piece goes down. Nothing leads on from a file, not even an empty piece behind a slash.
-/

namespace ContractAudit

inductive FileTree where
  | file (bytes : List UInt8)
  | directory (entries : List (String × FileTree))
  deriving Inhabited

/-- Why a path leads to nothing that can be read. -/
inductive IoFault where
  | notFound
  | notDirectory
  | isDirectory
  | nameTooLong
  | nulInPath
  | notUtf8
  deriving DecidableEq, Repr

def IoFault.message : IoFault → String
  | .notFound => "No such file or directory (os error 2)"
  | .notDirectory => "Not a directory (os error 20)"
  | .isDirectory => "Is a directory (os error 21)"
  | .nameTooLong => "File name too long (os error 36)"
  | .nulInPath => "file name contained an unexpected NUL byte"
  | .notUtf8 => "stream did not contain valid UTF-8"

namespace FileTree

/-- The longest name of a directory entry, in bytes. -/
def maxNameBytes : Nat := 255

/-- The longest path, in bytes. -/
def maxPathBytes : Nat := 4095

/-- A place in a tree: what stands there, and the directories above it from the inside out. -/
structure Place where
  here : FileTree
  above : List FileTree

/-- One piece of a path. -/
def Place.step (p : Place) (piece : String) : Except IoFault Place :=
  match p.here with
  | .file _ => .error .notDirectory
  | .directory entries =>
    if piece = "" ∨ piece = "." then .ok p
    else if piece = ".." then
      match p.above with
      | [] => .ok p
      | outer :: above => .ok ⟨outer, above⟩
    else if maxNameBytes < piece.utf8ByteSize then .error .nameTooLong
    else match entries.lookup piece with
      | some child => .ok ⟨child, p.here :: p.above⟩
      | none => .error .notFound

/-- Puts a tree at a path of names, making the directories on the way. An empty directory put where
a directory stands changes nothing. -/
def insert : FileTree → List String → FileTree → FileTree
  | .directory entries, [], .directory [] => .directory entries
  | _, [], child => child
  | .file bytes, _ :: _, _ => .file bytes
  | .directory entries, name :: rest, child =>
    let inner := ((entries.lookup name).getD (.directory []))
    .directory (entries.filter (·.1 != name) ++ [(name, inner.insert rest child)])
termination_by _ names => names.length

end FileTree

/-- A tree and the directory in it from which relative paths start. -/
structure FileSystem where
  tree : FileTree
  workingDirectory : FilePath

namespace FileSystem

def pieces (p : FilePath) : List String := (Text.splitAtEach '/' p.text.toList).map String.ofList

def find (fs : FileSystem) (p : FilePath) : Except IoFault FileTree := do
  if p.text.toList.contains '\x00' then throw .nulInPath
  if p.text.isEmpty then throw .notFound
  if FileTree.maxPathBytes < p.text.utf8ByteSize then throw .nameTooLong
  let place ← (pieces (fs.workingDirectory.join p)).foldlM FileTree.Place.step ⟨fs.tree, []⟩
  return place.here

def readBytes (fs : FileSystem) (p : FilePath) : Except IoFault (List UInt8) := do
  match ← fs.find p with
  | .file bytes => return bytes
  | .directory _ => throw .isDirectory

/-- The text of a file that is UTF-8 throughout. -/
def readText (fs : FileSystem) (p : FilePath) : Except IoFault String := do
  match Text.Utf8.decode? (← fs.readBytes p) with
  | some text => return text
  | none => throw .notUtf8

def isFile (fs : FileSystem) (p : FilePath) : Bool :=
  match fs.find p with
  | .ok (.file _) => true
  | _ => false

def isDirectory (fs : FileSystem) (p : FilePath) : Bool :=
  match fs.find p with
  | .ok (.directory _) => true
  | _ => false

def list (fs : FileSystem) (p : FilePath) : Except IoFault (List String) := do
  match ← fs.find p with
  | .file _ => throw .notDirectory
  | .directory entries => return entries.map Prod.fst

/-- The sources in a tree. Bytes that are no text are shown as such, so that any file can be
read. -/
def sources (fs : FileSystem) : Sources where
  read p :=
    match fs.readBytes p with
    | .ok bytes => .ok (Text.Utf8.decodeLossy bytes)
    | .error fault => .error fault.message
  readable := fs.isFile

/-- A file of a tree is readable exactly when it has a text. -/
theorem readable_sources_iff (fs : FileSystem) (p : FilePath) :
    fs.sources.readable p = (fs.sources.read p).isOk := by
  simp only [sources, isFile, readBytes]
  cases fs.find p with
  | error e => rfl
  | ok t => cases t <;> rfl

end FileSystem

end ContractAudit
