import ContractAudit.Audit.Basic

/-!
# Checking edges

Both ends of an edge must be declared and the file of its source must be readable. What is then
looked for in that file depends on the relation. Evidence that must be there fails when it is
missing; evidence that may be elsewhere only warns.
-/

namespace ContractAudit

def edgeRecord (e : EdgeRecord) (status : Status) (message : String) : CheckRecord :=
  { phase := .edges, subject := e.label, check := "relation", status, message }

namespace SourceFile

/-- The verdict on an edge: what is said if the patterns occur, and what if not. -/
def verdict (f : SourceFile) (patterns : List Pattern) (found : String)
    (otherwise : Status × String) : Status × String :=
  if Evidence.anyFound patterns f.text then (.pass, found) else otherwise

def validatesVerdict (f : SourceFile) (target : String) (schema : Option String) :
    Status × String :=
  match schema.bind Text.nonBlank? with
  | none => (.warn, "target " ++ target ++ " declares no schema to validate against")
  | some schema =>
    f.verdict (Evidence.validationPatterns schema)
      ("validation call on `" ++ schema ++ "` found")
      (.fail, "no validation call on `" ++ schema ++ "` found")

def callsVerdict (f : SourceFile) (method : String) : Status × String :=
  f.verdict (Evidence.callPatterns method) ("call to `" ++ method ++ "(` found")
    (.fail, "no call to `" ++ method ++ "(` found")

def accessVerdict (f : SourceFile) (rel : Relation) (table : String) : Status × String :=
  f.verdict (Evidence.tableAccessPatterns table)
    (rel.text ++ " access to `" ++ table ++ "` found")
    (.warn, "no direct access to `" ++ table ++ "` found; access may be indirect")

def emitsVerdict (f : SourceFile) (event : String) : Status × String :=
  f.verdict (Evidence.quotedLiteralPatterns event) ("event literal `" ++ event ++ "` found")
    (.fail, "event literal `" ++ event ++ "` not found")

def listensVerdict (f : SourceFile) (event : String) : Status × String :=
  f.verdict (Evidence.quotedLiteralPatterns event) ("event literal `" ++ event ++ "` found")
    (.warn, "event literal `" ++ event ++ "` not found; subscription may be wired elsewhere")

/-- The verdict on an edge whose source can be read. -/
def edgeVerdict (f : SourceFile) (e : EdgeRecord) (targetSchema : Option String) :
    Status × String :=
  let target := NodeId.ofString e.target
  match e.relation with
  | .coChange => (.pass, "co_change declared; both nodes exist")
  | .validates => f.validatesVerdict e.target targetSchema
  | .calls => f.callsVerdict target.methodName
  | .writes => f.accessVerdict .writes target.name
  | .reads => f.accessVerdict .reads target.name
  | .emits => f.emitsVerdict target.name
  | .listens => f.listensVerdict target.name
  | .custom rel => (.pass, "relation `" ++ rel ++ "` is not statically checked")

end SourceFile

namespace Audit

/-- The faults of ends that are not declared. -/
def missingEnds (a : Audit) (e : EdgeRecord) : List String :=
  (if a.document.declares e.source then [] else ["source node missing: " ++ e.source]) ++
  (if a.document.declares e.target then [] else ["target node missing: " ++ e.target])

def declaredEdgeBlock (a : Audit) (e : EdgeRecord) (source target : NodeRecord) : Block :=
  match a.source source with
  | .error .noLocation =>
    { records := [edgeRecord e .fail
        ("source file not found: " ++ e.source ++ " declares no loc")] }
  | .error (.unreadable u) =>
    { unreadable := some u
      records := [(edgeRecord e .fail ("source file not found: " ++ u.shown)).located
        u.shown none] }
  | .ok file =>
    let (status, message) := file.edgeVerdict e target.schema
    { records := [(edgeRecord e status message).located file.display none] }

def edgeBlock (a : Audit) (e : EdgeRecord) : Block :=
  match a.document.node? e.source, a.document.node? e.target with
  | some source, some target => a.declaredEdgeBlock e source target
  | _, _ => { records := [edgeRecord e .fail (Text.joinWith "; " (a.missingEnds e))] }

def edgeBlocks (a : Audit) : List Block := a.document.edges.map a.edgeBlock

end Audit

end ContractAudit
