import ContractAudit.Document.Basic

/-!
# Contract maps as JSON

The fields of a record stand in a fixed order. Optional fields that are absent and empty lists of
`values` and `fk` are left out, and the names of registries are field names in their order, so a
map can be read back from what is written here.
-/

namespace ContractAudit

open Json (required optional ofFields ofStrings)

/-- A list of texts, left out when empty. -/
def nonEmptyStrings (name : String) (l : List String) : Option (String × Json) :=
  if l.isEmpty then none else some (name, ofStrings l)

def Registry.toJson {α : Type} (r : Registry α) (f : α → Json) : Json :=
  .object (r.entries.map fun (name, value) => (name, f value))

def Meta.toJson (m : Meta) : Json :=
  .object [("name", .string m.name), ("root", .string m.root)]

def NodeRecord.toJson (n : NodeRecord) : Json :=
  ofFields [
    optional "kind" (n.kind.map .string),
    optional "loc" (n.loc.map .string),
    optional "note" (n.note.map .string),
    optional "schema" (n.schema.map .string),
    nonEmptyStrings "values" n.values,
    nonEmptyStrings "fk" n.fk,
    optional "indexes" n.indexes,
    optional "triggers" n.triggers,
    optional "request" n.request,
    optional "response" n.response,
    optional "payload" n.payload,
    optional "pre" n.pre,
    optional "post" n.post,
    optional "side_effects" n.sideEffects,
    optional "errors" n.errors]

def EdgeRecord.toJson (e : EdgeRecord) : Json :=
  ofFields [
    required "from" (.string e.source),
    required "to" (.string e.target),
    required "rel" (.string e.rel),
    optional "note" (e.note.map .string)]

/-- A single destination is a string, a branch an object. -/
def Continuation.toJson : Continuation → Json
  | .target raw => .string raw
  | .branch arms => arms.toJson .string

def Step.toJson (s : Step) : Json :=
  .object [("node", .string s.node), ("then", s.next.toJson)]

def FlowRecord.toJson (f : FlowRecord) : Json :=
  .object [("trigger", .string f.trigger), ("steps", .array (f.steps.map Step.toJson))]

def InvariantRecord.toJson (i : InvariantRecord) : Json :=
  ofFields [
    required "id" (.string i.id),
    required "rule" (.string i.rule),
    required "scope" (ofStrings i.scope),
    optional "enforce" (i.enforce.map .string)]

def Document.toJson (d : Document) : Json :=
  .object [
    ("version", .string d.version),
    ("meta", d.metadata.toJson),
    ("nodes", d.nodes.toJson NodeRecord.toJson),
    ("edges", .array (d.edges.map EdgeRecord.toJson)),
    ("flows", d.flows.toJson FlowRecord.toJson),
    ("invariants", .array (d.invariants.map InvariantRecord.toJson))]

end ContractAudit
