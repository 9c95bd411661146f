import ContractAudit.Document.Basic
import ContractAudit.Evidence.SourceFile
import ContractAudit.Location
import ContractAudit.Report.Basic
import ContractAudit.Sources

/-!
# Audits

An audit has a map, the root of the project and the sources to check the map against. Checking one
element of the map gives a block: the records of its checks, and the source that could not be read,
if one could not. Reports and logs are both made from blocks, so they cannot disagree.
-/

namespace ContractAudit

/-- A map and what it is checked against. -/
structure Audit where
  sources : Sources
  document : Document
  root : FilePath

/-- A source that could not be read: the path as shown, and the fault. -/
structure Unreadable where
  shown : String
  fault : String
  deriving DecidableEq, Repr

/-- What checking one element of a map comes to. -/
structure Block where
  unreadable : Option Unreadable := none
  records : List CheckRecord
  deriving DecidableEq, Repr

/-- Why there is no source to look into. -/
inductive SourceFault where
  | noLocation
  | unreadable (u : Unreadable)
  deriving DecidableEq, Repr

def readFault (path : FilePath) (detail : String) : String :=
  "io error: read " ++ path.text ++ " (" ++ detail ++ ")"

namespace Audit

/-- Where a location of the map leads. -/
def resolve (a : Audit) (loc : String) : ResolvedLocation :=
  (Location.ofString loc).resolve a.root a.document.metadata.root

def shown (a : Audit) (path : FilePath) : String := path.shown a.root

/-- The source at a location, with uniform line ends. -/
def sourceAt (a : Audit) (loc : String) : Except SourceFault SourceFile :=
  let place := a.resolve loc
  match a.sources.read place.path with
  | .ok text => .ok ⟨a.shown place.path, place.line, Text.withUniformLineEnds text⟩
  | .error detail => .error (.unreadable ⟨a.shown place.path, readFault place.path detail⟩)

def source (a : Audit) (node : NodeRecord) : Except SourceFault SourceFile :=
  match node.loc with
  | some loc => a.sourceAt loc
  | none => .error .noLocation

def isReadable (a : Audit) (loc : String) : Bool := a.sources.readable (a.resolve loc).path

end Audit

end ContractAudit
