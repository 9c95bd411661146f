import ContractAudit.Impact.Basic
import ContractAudit.Report.Json

/-!
# Impact as JSON

An answer is tagged with its outcome and a role with its kind; both are written with their fields in
a fixed order and read back from any order.
-/

namespace ContractAudit

open Json (required optional ofFields ofNat ofStrings)
open Decoding (Mismatch)
open Decoding.FromJson

/-! ## Writing -/

def FlowRole.toJson : FlowRole → Json
  | .step index => .object [("role", .string "step"), ("index", ofNat index)]
  | .jump index => .object [("role", .string "jump"), ("index", ofNat index)]
  | .branch index label =>
    .object [("role", .string "branch"), ("index", ofNat index), ("label", .string label)]

def ImpactEdge.toJson (e : ImpactEdge) : Json :=
  ofFields [
    required "from" (.string e.source),
    required "to" (.string e.target),
    required "rel" (.string e.rel),
    optional "note" (e.note.map .string),
    required "co_change" (.bool e.coChange)]

def ImpactFlow.toJson (f : ImpactFlow) : Json :=
  .object [("name", .string f.name), ("trigger", .string f.trigger),
    ("roles", .array (f.roles.map FlowRole.toJson))]

def ImpactInvariant.toJson (i : ImpactInvariant) : Json :=
  ofFields [
    required "id" (.string i.id),
    required "rule" (.string i.rule),
    optional "enforce" (i.enforce.map .string)]

def ImpactOutcome.fields : ImpactOutcome → List (String × Json)
  | .found r =>
    [required "outcome" (.string "found"),
      required "node_id" (.string r.nodeId),
      required "kind" (.string r.kind),
      optional "loc" (r.loc.map .string),
      required "outgoing" (.array (r.outgoing.map ImpactEdge.toJson)),
      required "incoming" (.array (r.incoming.map ImpactEdge.toJson)),
      required "flows" (.array (r.flows.map ImpactFlow.toJson)),
      required "invariants" (.array (r.invariants.map ImpactInvariant.toJson))].filterMap id
  | .notFound nodeId knownIds =>
    [("outcome", .string "not_found"), ("node_id", .string nodeId),
      ("known_ids", ofStrings knownIds)]

namespace ImpactOutcome

def toJson (o : ImpactOutcome) : Json := .object o.fields

/-- An answer as the value that is shown. -/
def rendered (o : ImpactOutcome) : Json :=
  .object (o.fields ++ [("schema_version", ofNat schemaVersion), ("exit_code", ofNat o.exitCode)])

def jsonText (o : ImpactOutcome) : String := o.rendered.canonical.pretty

end ImpactOutcome

/-! ## Reading -/

def readIndex {δ : Type} (set : δ → Nat → δ) : RecordField δ := .needs "index" (natural "usize") set

def FlowRole.read : Reader FlowRole :=
  tagged "FlowRole" "role" [
    ("step", record "struct variant FlowRole::Step" [readIndex fun _ index => .step index] (.step 0)),
    ("jump", record "struct variant FlowRole::Jump" [readIndex fun _ index => .jump index] (.jump 0)),
    ("branch", fun held j => do
      let (index, label) ← record "struct variant FlowRole::Branch" [
        readIndex fun r index => (index, r.2),
        .needs "label" text fun r label => (r.1, label)] (0, "") held j
      pure (.branch index label))]

def ImpactEdge.read : Reader ImpactEdge :=
  record "struct ImpactEdge" [
    .needs "from" text fun e source => { e with source },
    .needs "to" text fun e target => { e with target },
    .needs "rel" text fun e rel => { e with rel },
    .may "note" (orNull text) fun e note => { e with note },
    .needs "co_change" truth fun e coChange => { e with coChange }]
    { source := "", target := "", rel := "", coChange := false }

def ImpactFlow.read : Reader ImpactFlow :=
  record "struct ImpactFlow" [
    .needs "name" text fun f name => { f with name },
    .needs "trigger" text fun f trigger => { f with trigger },
    .needs "roles" (items FlowRole.read) fun f roles => { f with roles }]
    { name := "", trigger := "", roles := [] }

def ImpactInvariant.read : Reader ImpactInvariant :=
  record "struct ImpactInvariant" [
    .needs "id" text fun i id => { i with id },
    .needs "rule" text fun i rule => { i with rule },
    .may "enforce" (orNull text) fun i enforce => { i with enforce }]
    { id := "", rule := "" }

def ImpactReport.read : Reader ImpactReport :=
  record "struct ImpactReport" [
    .needs "node_id" text fun r nodeId => { r with nodeId },
    .needs "kind" text fun r kind => { r with kind },
    .may "loc" (orNull text) fun r loc => { r with loc },
    .needs "outgoing" (items ImpactEdge.read) fun r outgoing => { r with outgoing },
    .needs "incoming" (items ImpactEdge.read) fun r incoming => { r with incoming },
    .needs "flows" (items ImpactFlow.read) fun r flows => { r with flows },
    .needs "invariants" (items ImpactInvariant.read) fun r invariants => { r with invariants }]
    { nodeId := "", kind := "" }

def ImpactOutcome.read : Reader ImpactOutcome :=
  tagged "ImpactOutcome" "outcome" [
    ("found", fun held j => (ImpactReport.read held j).map .found),
    ("not_found", fun held j => do
      let (nodeId, knownIds) ← record "struct variant ImpactOutcome::NotFound" [
        .needs "node_id" text fun r nodeId => (nodeId, r.2),
        .needs "known_ids" (items text) fun r knownIds => (r.1, knownIds)] ("", []) held j
      pure (.notFound nodeId knownIds))]

def ImpactOutcome.ofJson (j : Json) : Except Mismatch ImpactOutcome := decode ImpactOutcome.read j

end ContractAudit
