import ContractAudit.Audit.Basic
import ContractAudit.Evidence.ForeignKey
import ContractAudit.Evidence.Notation

/-!
# Checking nodes

A node exists if its source has evidence for it. Types may declare values and a schema that their
source must hold, tables may declare foreign keys that theirs should mention. A node of a kind
outside the vocabulary only needs its file.

What is looked for is written in the notation of patterns, and a notation that made no sense would be
a failure of its own (`writtenExistence`). Names are escaped in it, so it always makes sense, whatever
they hold, and the records are made from the patterns themselves. A pattern may have any size.
-/

namespace ContractAudit

def nodeRecord (id check : String) (status : Status) (message : String) : CheckRecord :=
  { phase := .nodes, subject := id, check, status, message }

namespace SourceFile

/-- How existence is decided by where the evidence stands. -/
def existenceVerdict (f : SourceFile) (what : String) : Evidence → Status × String
  | .near =>
    (.pass, what ++ " found" ++
      match f.line with
      | some line => " near line " ++ toString line
      | none => "")
  | .elsewhere =>
    (.warn, what ++ " found but not near declared line " ++ toString (f.line.getD 0))
  | .absent => (.fail, what ++ " not found in " ++ f.display)

def existence (f : SourceFile) (id what : String) (evidence : Evidence) : CheckRecord :=
  let (status, message) := f.existenceVerdict what evidence
  (nodeRecord id "exists" status message).located f.display f.line

/-! ## Checks as they are written -/

/-- The record of existence by a family that is read first. If it cannot be read, that is a failure,
with `fault` for the reason. -/
def writtenExistence (f : SourceFile) (fault id what : String) (family : NodeFamily)
    (radius : Nat) : CheckRecord :=
  match PatternNotation.compile family.notations with
  | some patterns => f.existence id what (f.locate patterns radius)
  | none =>
    (nodeRecord id "exists" .fail ("invalid pattern for " ++ what ++ ": " ++ fault)).located
      f.display f.line

/-- Whether a line names a schema. A notation that cannot be read names none. -/
def writtenSchema (f : SourceFile) (schema : String) : Bool :=
  match PatternNotation.compile [.token schema] with
  | some patterns => (Text.lines f.text.toList).any fun line => patterns.any (·.found line)
  | none => false

/-- Whether a table is mentioned. A notation that cannot be read mentions none. -/
def writtenReference (f : SourceFile) (target : String) : Bool :=
  match PatternNotation.compile (NodeFamily.reference target).notations with
  | some patterns => Evidence.anyFound patterns f.text
  | none => false

/-! ## Existence by kind -/

def typeExistence (f : SourceFile) (id name : String) : CheckRecord :=
  f.existence id ("type `" ++ name ++ "`")
    (f.locate (Evidence.typePatterns name) Evidence.typeRadius)

def methodExistence (f : SourceFile) (id method : String) : CheckRecord :=
  f.existence id ("method `" ++ method ++ "`")
    (f.locate (Evidence.methodPatterns method) Evidence.methodRadius)

def tableExistence (f : SourceFile) (id name : String) : CheckRecord :=
  f.existence id ("CREATE TABLE `" ++ name ++ "`")
    (f.locate (Evidence.tablePatterns name) Evidence.defaultRadius)

def eventExistence (f : SourceFile) (id name : String) : CheckRecord :=
  f.existence id ("event `" ++ name ++ "`")
    (f.locate (Evidence.eventPatterns name) Evidence.defaultRadius)

/-- The record of a route's existence. Without a method the path alone is evidence. -/
def endpointExistence (f : SourceFile) (id name : String) : CheckRecord :=
  let route := Route.ofIdentifier name
  if route.path.isEmpty then
    (nodeRecord id "exists" .fail "endpoint id declares no path").located f.display f.line
  else match route.method with
    | none =>
      f.existence id ("route `" ++ route.path ++ "`")
        (f.locateWith Evidence.endpointRadius (Text.contains · route.path))
    | some method =>
      f.existence id ("route `" ++ Route.upperCase method ++ " " ++ route.path ++ "`")
        (f.locate (Evidence.endpointPatterns method route.path) Evidence.endpointRadius)

/-! ## Further checks -/

/-- The records of the values a type declares: one if all are there, else one for each missing. -/
def valueRecords (f : SourceFile) (id : String) (values : List String) : List CheckRecord :=
  match values, values.filter fun v => !Text.contains f.text v with
  | [], _ => []
  | _, [] =>
    [(nodeRecord id "values" .pass
      ("all " ++ toString values.length ++ " declared values present")).located f.display none]
  | _, missing => missing.map fun v =>
    (nodeRecord id "values" .fail ("declared value `" ++ v ++ "` not found")).located f.display none

def namesSchema (f : SourceFile) (schema : String) : Bool :=
  (Text.lines f.text.toList).any (Pattern.token schema).found

/-- The record of the schema a type declares, if it declares one. -/
def schemaRecords (f : SourceFile) (id : String) (schema : Option String) : List CheckRecord :=
  match schema.bind Text.nonBlank? with
  | none => []
  | some schema =>
    let (status, message) := if f.namesSchema schema
      then (Status.pass, "schema `" ++ schema ++ "` present")
      else (.fail, "schema `" ++ schema ++ "` not found")
    [(nodeRecord id "schema" status message).located f.display none]

/-- The record of a foreign key. A table that is not mentioned only warns. -/
def foreignKeyRecord (f : SourceFile) (id entry : String) : CheckRecord :=
  let target := ForeignKey.target entry
  let (status, message) :=
    if target.isEmpty then (Status.warn, "fk entry `" ++ entry ++ "` names no table")
    else if Evidence.anyFound (Evidence.tableReferencePatterns target) f.text then
      (.pass, "fk target `" ++ target ++ "` referenced")
    else (.warn, "fk target `" ++ target ++ "` not referenced in " ++ f.display)
  (nodeRecord id "fk" status message).located f.display none

/-- The records of a node whose source can be read. -/
def nodeRecords (f : SourceFile) (id : String) (node : NodeRecord) (kind : NodeKind) :
    List CheckRecord :=
  let name := (NodeId.ofString id).name
  if name.isEmpty then
    [(nodeRecord id "exists" .fail "node id has no identifier after the kind prefix").located
      f.display f.line]
  else match kind with
    | .type =>
      f.typeExistence id name :: f.valueRecords id node.values ++ f.schemaRecords id node.schema
    | .method => [f.methodExistence id (NodeId.ofString id).methodName]
    | .table => f.tableExistence id name :: node.fk.map (f.foreignKeyRecord id)
    | .endpoint => [f.endpointExistence id name]
    | .event => [f.eventExistence id name]
    | .custom _ => []

end SourceFile

namespace Audit

/-- The record of a node of a kind outside the vocabulary. -/
def customExistence (a : Audit) (id kind : String) (node : NodeRecord) : CheckRecord :=
  match node.loc with
  | none => nodeRecord id "exists" .fail "no loc declared"
  | some loc =>
    let place := a.resolve loc
    let shown := a.shown place.path
    if a.isReadable loc then
      (nodeRecord id "exists" .pass
        ("file exists (custom kind `" ++ kind ++ "`, content not inspected)")).located
        shown place.line
    else (nodeRecord id "exists" .fail ("file not found: " ++ shown)).located shown none

def nodeBlock (a : Audit) (id : String) (node : NodeRecord) : Block :=
  match Document.kindOf id (some node) with
  | .custom kind => { records := [a.customExistence id kind node] }
  | kind =>
    match a.source node with
    | .error .noLocation => { records := [nodeRecord id "exists" .fail "no loc declared"] }
    | .error (.unreadable u) =>
      { unreadable := some u
        records := [(nodeRecord id "exists" .fail ("file not found: " ++ u.shown)).located
          u.shown none] }
    | .ok file => { records := file.nodeRecords id node kind }

def nodeBlocks (a : Audit) : List Block :=
  a.document.nodes.entries.map fun (id, node) => a.nodeBlock id node

end Audit

end ContractAudit
