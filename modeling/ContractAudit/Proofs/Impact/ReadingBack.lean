import ContractAudit.Impact.Json
import ContractAudit.Proofs.Report.ReadingBack

/-!
# Reading answers back

The answer to a query is read back from its JSON text as well as a report is
(`ImpactOutcome.ofJson_jsonText`). An answer and a role are tagged: the tag stands among the other
fields and is taken out before they are read. Put together, neither a report nor an answer loses
anything in its text (`shown_json_loses_nothing`).
-/

namespace ContractAudit

open Json (required ofFields ofNat ofStrings)
open Decoding.FromJson

/-! ## Roles -/

namespace FlowRole

/-- The index is a number of 64 bits. -/
def Fits : FlowRole → Prop
  | .step index | .jump index | .branch index _ => FitsWord index

theorem restores (role : FlowRole) : Restores FlowRole.read role role.toJson := by
  cases role with
  | step index =>
      refine restores_tagged "step" [required "index" (ofNat index), required "role" (.string "step")]
        [required "index" (ofNat index)] ?_ rfl rfl rfl ?_
      · simp only [toJson, canonicalEntries, required, Json.canonical, Json.canonicalFields,
          Json.sortFields, Json.insertField, List.filterMap_cons, List.filterMap_nil,
          List.foldl_cons, List.foldl_nil, id_eq, String.reduceEq, String.reduceLT, ↓reduceIte]
      · refine record_canonicalEntries (leads_needs rfl (restores_natural _ _) leads_nil) ?_
        simp [Complete, readIndex, RecordField.needs, required]
  | jump index =>
      refine restores_tagged "jump" [required "index" (ofNat index), required "role" (.string "jump")]
        [required "index" (ofNat index)] ?_ rfl rfl rfl ?_
      · simp only [toJson, canonicalEntries, required, Json.canonical, Json.canonicalFields,
          Json.sortFields, Json.insertField, List.filterMap_cons, List.filterMap_nil,
          List.foldl_cons, List.foldl_nil, id_eq, String.reduceEq, String.reduceLT, ↓reduceIte]
      · refine record_canonicalEntries (leads_needs rfl (restores_natural _ _) leads_nil) ?_
        simp [Complete, readIndex, RecordField.needs, required]
  | branch index label =>
      refine restores_tagged "branch" [required "index" (ofNat index), required "label" (.string label),
        required "role" (.string "branch")]
        [required "index" (ofNat index), required "label" (.string label)] ?_ rfl rfl rfl ?_
      · simp only [toJson, canonicalEntries, required, Json.canonical, Json.canonicalFields,
          Json.sortFields, Json.insertField, List.filterMap_cons, List.filterMap_nil,
          List.foldl_cons, List.foldl_nil, id_eq, String.reduceEq, String.reduceLT, ↓reduceIte]
      · refine bind_of_ok (record_canonicalEntries (e := (index, label)) ?_ ?_) rfl
        · refine leads_needs rfl (restores_natural _ _) ?_
          refine leads_needs rfl (restores_text _) ?_
          exact leads_nil
        · simp [Complete, readIndex, RecordField.needs, required]

theorem isExact_toJson {role : FlowRole} (h : role.Fits) : role.toJson.isExact = true := by
  cases role <;> simp only [toJson, Json.isExact, Json.haveExact, Json.isExact_ofNat h, Bool.and_self]

end FlowRole

/-! ## Neighbours, flows and invariants -/

namespace ImpactEdge

/-- The fields as they are written, in ascending order. -/
def sortedFields (e : ImpactEdge) : List (Option (String × Json)) := [
  required "co_change" (.bool e.coChange),
  required "from" (.string e.source),
  Json.optional "note" (e.note.map .string),
  required "rel" (.string e.rel),
  required "to" (.string e.target)]

theorem canonical_toJson (e : ImpactEdge) :
    e.toJson.canonical = .object (canonicalEntries e.sortedFields) := by
  obtain ⟨source, target, rel, note, coChange⟩ := e
  cases note <;>
    simp only [toJson, sortedFields, canonicalEntries, ofFields, required, Json.optional, Json.canonical,
      Json.canonicalFields, Json.sortFields, Json.insertField, List.filterMap_cons, List.filterMap_nil,
      List.foldl_cons, List.foldl_nil, Option.map_some, Option.map_none, id_eq, String.reduceEq,
      String.reduceLT, ↓reduceIte]

theorem restores (e : ImpactEdge) : Restores ImpactEdge.read e e.toJson := by
  refine restores_record e.canonical_toJson (fun held => ?_) ?_
  · refine leads_needs rfl (restores_truth _) ?_
    refine leads_needs rfl (restores_text _) ?_
    refine leads_may rfl rfl restores_optionalText ?_
    refine leads_needs rfl (restores_text _) ?_
    refine leads_needs rfl (restores_text _) ?_
    exact leads_nil
  · simp [Complete, sortedFields, RecordField.needs, RecordField.may, required, exists_or]

theorem isExact_toJson (e : ImpactEdge) : e.toJson.isExact = true := by
  refine Json.isExact_ofFields ?_
  simp only [List.forall_mem_cons, Json.forall_mem_required, Json.forall_mem_optional]
  simp [Json.isExact]

end ImpactEdge

namespace ImpactInvariant

/-- The fields as they are written, in ascending order. -/
def sortedFields (i : ImpactInvariant) : List (Option (String × Json)) := [
  Json.optional "enforce" (i.enforce.map .string),
  required "id" (.string i.id),
  required "rule" (.string i.rule)]

theorem canonical_toJson (i : ImpactInvariant) :
    i.toJson.canonical = .object (canonicalEntries i.sortedFields) := by
  obtain ⟨id, rule, enforce⟩ := i
  cases enforce <;>
    simp only [toJson, sortedFields, canonicalEntries, ofFields, required, Json.optional, Json.canonical,
      Json.canonicalFields, Json.sortFields, Json.insertField, List.filterMap_cons, List.filterMap_nil,
      List.foldl_cons, List.foldl_nil, Option.map_some, Option.map_none, id_eq, String.reduceEq,
      String.reduceLT, ↓reduceIte]

theorem restores (i : ImpactInvariant) : Restores ImpactInvariant.read i i.toJson := by
  refine restores_record i.canonical_toJson (fun held => ?_) ?_
  · refine leads_may rfl rfl restores_optionalText ?_
    refine leads_needs rfl (restores_text _) ?_
    refine leads_needs rfl (restores_text _) ?_
    exact leads_nil
  · simp [Complete, sortedFields, RecordField.needs, RecordField.may, required, exists_or]

theorem isExact_toJson (i : ImpactInvariant) : i.toJson.isExact = true := by
  refine Json.isExact_ofFields ?_
  simp only [List.forall_mem_cons, Json.forall_mem_required, Json.forall_mem_optional]
  simp [Json.isExact]

end ImpactInvariant

namespace ImpactFlow

/-- The indexes of the roles are numbers of 64 bits. -/
def Fits (f : ImpactFlow) : Prop := ∀ role ∈ f.roles, role.Fits

/-- The fields as they are written, in ascending order. -/
def sortedFields (f : ImpactFlow) : List (Option (String × Json)) := [
  required "name" (.string f.name),
  required "roles" (.array (f.roles.map FlowRole.toJson)),
  required "trigger" (.string f.trigger)]

theorem canonical_toJson (f : ImpactFlow) :
    f.toJson.canonical = .object (canonicalEntries f.sortedFields) := by
  simp only [toJson, sortedFields, canonicalEntries, required, Json.canonical, Json.canonicalFields,
    Json.sortFields, Json.insertField, List.filterMap_cons, List.filterMap_nil, List.foldl_cons,
    List.foldl_nil, id_eq, String.reduceEq, String.reduceLT, ↓reduceIte]

theorem restores (f : ImpactFlow) : Restores ImpactFlow.read f f.toJson := by
  refine restores_record f.canonical_toJson (fun held => ?_) ?_
  · refine leads_needs rfl (restores_text _) ?_
    refine leads_needs rfl (restores_items fun role _ => role.restores) ?_
    refine leads_needs rfl (restores_text _) ?_
    exact leads_nil
  · simp [Complete, sortedFields, RecordField.needs, required]

theorem isExact_toJson {f : ImpactFlow} (h : f.Fits) : f.toJson.isExact = true := by
  have hroles : Json.areExact (f.roles.map FlowRole.toJson) = true :=
    Json.areExact_map fun role hrole => FlowRole.isExact_toJson (h role hrole)
  simp [toJson, Json.isExact, Json.haveExact, hroles]

end ImpactFlow

/-! ## Answers -/

/-- The indexes of the roles are numbers of 64 bits. -/
def ImpactReport.Fits (r : ImpactReport) : Prop := ∀ flow ∈ r.flows, flow.Fits

namespace ImpactOutcome

/-- The indexes of the roles are numbers of 64 bits. -/
def Fits : ImpactOutcome → Prop
  | .found r => r.Fits
  | .notFound .. => True

/-- The fields that are shown, in ascending order; `tag` stands for the outcome. -/
def sortedFields (tag : Option (String × Json)) (o : ImpactOutcome) : List (Option (String × Json)) :=
  match o with
  | .found r => [
      required "exit_code" (ofNat o.exitCode),
      required "flows" (.array (r.flows.map ImpactFlow.toJson)),
      required "incoming" (.array (r.incoming.map ImpactEdge.toJson)),
      required "invariants" (.array (r.invariants.map ImpactInvariant.toJson)),
      required "kind" (.string r.kind),
      Json.optional "loc" (r.loc.map .string),
      required "node_id" (.string r.nodeId),
      tag,
      required "outgoing" (.array (r.outgoing.map ImpactEdge.toJson)),
      required "schema_version" (ofNat schemaVersion)]
  | .notFound nodeId knownIds => [
      required "exit_code" (ofNat o.exitCode),
      required "known_ids" (ofStrings knownIds),
      required "node_id" (.string nodeId),
      tag,
      required "schema_version" (ofNat schemaVersion)]

/-- The name of the outcome. -/
def tag : ImpactOutcome → String
  | .found _ => "found"
  | .notFound .. => "not_found"

theorem canonical_rendered (o : ImpactOutcome) :
    o.rendered.canonical = .object (canonicalEntries
      (o.sortedFields (required "outcome" (.string o.tag)))) := by
  cases o with
  | found r =>
      obtain ⟨nodeId, kind, loc, outgoing, incoming, flows, invariants⟩ := r
      cases loc <;>
        simp only [rendered, fields, sortedFields, canonicalEntries, tag, required,
          Json.optional, Json.canonical, Json.canonicalFields, Json.sortFields, Json.insertField,
          List.filterMap_cons, List.filterMap_nil, List.cons_append, List.nil_append, List.foldl_cons,
          List.foldl_nil, Option.map_some, Option.map_none, id_eq, String.reduceEq, String.reduceLT,
          ↓reduceIte]
  | notFound nodeId knownIds =>
      simp only [rendered, fields, sortedFields, canonicalEntries, tag, required, Json.canonical,
        Json.canonicalFields, Json.sortFields, Json.insertField, List.filterMap_cons,
        List.filterMap_nil, List.cons_append, List.nil_append, List.foldl_cons, List.foldl_nil, id_eq,
        String.reduceEq, String.reduceLT, ↓reduceIte]

theorem leads_found (r : ImpactReport) (held : Bool) :
    ImpactReport.read held
      (.object (canonicalEntries (sortedFields none (.found r)))) = .ok r := by
  refine record_canonicalEntries ?_ ?_
  · refine leads_unknown rfl ?_
    refine leads_needs rfl (restores_items fun flow _ => flow.restores) ?_
    refine leads_needs rfl (restores_items fun edge _ => edge.restores) ?_
    refine leads_needs rfl (restores_items fun invariant _ => invariant.restores) ?_
    refine leads_needs rfl (restores_text _) ?_
    refine leads_may rfl rfl restores_optionalText ?_
    refine leads_needs rfl (restores_text _) ?_
    refine leads_absent ?_
    refine leads_needs rfl (restores_items fun edge _ => edge.restores) ?_
    refine leads_unknown rfl ?_
    exact leads_nil
  · simp [Complete, sortedFields, RecordField.needs, RecordField.may, required, exists_or]

theorem restores (o : ImpactOutcome) : Restores ImpactOutcome.read o o.rendered := by
  cases o with
  | found r =>
      refine restores_tagged "found" _ (sortedFields none (.found r)) (canonical_rendered _) ?_ ?_ rfl ?_
      · obtain ⟨nodeId, kind, _ | loc, outgoing, incoming, flows, invariants⟩ := r <;> rfl
      · obtain ⟨nodeId, kind, _ | loc, outgoing, incoming, flows, invariants⟩ := r <;> rfl
      · exact map_of_ok (leads_found r true)
  | notFound nodeId knownIds =>
      refine restores_tagged "not_found" _ (sortedFields none (.notFound nodeId knownIds))
        (canonical_rendered _) rfl rfl rfl ?_
      refine bind_of_ok (record_canonicalEntries (e := (nodeId, knownIds)) ?_ ?_) rfl
      · refine leads_unknown rfl ?_
        refine leads_needs rfl (restores_items fun id _ => restores_text id) ?_
        refine leads_needs rfl (restores_text _) ?_
        refine leads_absent ?_
        refine leads_unknown rfl ?_
        exact leads_nil
      · simp [Complete, sortedFields, RecordField.needs, required]

theorem isExact_rendered {o : ImpactOutcome} (h : o.Fits) : o.rendered.isExact = true := by
  have hversion : (ofNat schemaVersion).isExact = true := Json.isExact_ofNat (by decide)
  have hcode : (ofNat o.exitCode).isExact = true := by
    refine Json.isExact_ofNat ?_
    cases o <;> simp [exitCode, FitsWord]
  have hadded : ∀ f ∈ [("schema_version", ofNat schemaVersion), ("exit_code", ofNat o.exitCode)],
      f.2.isExact = true := by
    simpa using ⟨hversion, hcode⟩
  refine Json.haveExact_iff.mpr (List.forall_mem_append.mpr ⟨Json.haveExact_iff.mp ?_, hadded⟩)
  cases o with
  | found r =>
      have hflows := Json.areExact_map fun flow hflow => ImpactFlow.isExact_toJson (h flow hflow)
      have hedges := fun l => Json.areExact_map (l := l) fun edge _ => ImpactEdge.isExact_toJson edge
      have hinvariants := Json.areExact_map (l := r.invariants) fun invariant _ =>
        ImpactInvariant.isExact_toJson invariant
      refine Json.isExact_ofFields ?_
      simp only [List.forall_mem_cons, Json.forall_mem_required, Json.forall_mem_optional]
      simp [Json.isExact, hflows, hedges, hinvariants]
  | notFound nodeId knownIds =>
      have hids : Json.areExact (knownIds.map .string) = true := Json.areExact_map fun _ _ => rfl
      simp [fields, ofStrings, Json.haveExact, Json.isExact, hids]

/-- **An answer is read back from its text.** -/
theorem ofJson_jsonText {o : ImpactOutcome} (h : o.Fits) :
    (Json.ofText? o.jsonText).map ImpactOutcome.ofJson = some (.ok o) := by
  rw [jsonText, Json.ofText?_pretty_canonical (isExact_rendered h), Option.map_some,
    ImpactOutcome.ofJson, decode_canonical o.restores]

end ImpactOutcome

/-! ## What is shown -/

/-- The text of a report is the text of no answer: only an answer names a node. -/
theorem Report.jsonText_ne {r : Report} {o : ImpactOutcome} (hr : r.Fits) (ho : o.Fits) :
    r.jsonText ≠ o.jsonText := by
  intro h
  have hvalue : some r.rendered.canonical = some o.rendered.canonical := by
    rw [← Json.ofText?_pretty_canonical (Report.isExact_rendered hr),
      ← Json.ofText?_pretty_canonical (ImpactOutcome.isExact_rendered ho)]
    exact congrArg Json.ofText? h
  rw [Option.some.injEq, r.canonical_rendered, o.canonical_rendered, Json.object.injEq] at hvalue
  cases o <;>
    simp [canonicalEntries, Report.sortedFields, ImpactOutcome.sortedFields, required,
      Json.canonicalFields] at hvalue

/-- **What is shown as JSON loses nothing.** A report and an answer whose numbers fit 64 bits are
read back from their texts as they were, so different ones have different texts. -/
theorem shown_json_loses_nothing :
    (∀ r : Report, r.Fits → (Json.ofText? r.jsonText).map Report.ofJson = some (.ok r)) ∧
    (∀ o : ImpactOutcome, o.Fits →
      (Json.ofText? o.jsonText).map ImpactOutcome.ofJson = some (.ok o)) ∧
    (∀ r s : Report, r.Fits → s.Fits → r.jsonText = s.jsonText → r = s) ∧
    (∀ o p : ImpactOutcome, o.Fits → p.Fits → o.jsonText = p.jsonText → o = p) ∧
    ∀ (r : Report) (o : ImpactOutcome), r.Fits → o.Fits → r.jsonText ≠ o.jsonText := by
  refine ⟨fun r => Report.ofJson_jsonText, fun o => ImpactOutcome.ofJson_jsonText,
    fun r s hr hs h => ?_, fun o p ho hp h => ?_, fun r o => Report.jsonText_ne⟩
  · have hread := Report.ofJson_jsonText hr
    rw [h, Report.ofJson_jsonText hs] at hread
    cases hread
    rfl
  · have hread := ImpactOutcome.ofJson_jsonText ho
    rw [h, ImpactOutcome.ofJson_jsonText hp] at hread
    cases hread
    rfl

/-- A report with escapes in its texts, out of order, and with the largest numbers there are. -/
def Report.unusual : Report where
  name := "a \"map\"\n\x01"
  version := "\\"
  records := [
    ⟨.flows, "\t", "", .warn, "é\x7f\u2028", none, some (2 ^ 64 - 1)⟩,
    ⟨.nodes, "type:A", "exists", .fail, "", some "", some 0⟩]
  summary := ⟨2 ^ 64 - 1, 0, 7, 1⟩

/-- An answer of which every list and every kind of role has a member. -/
def ImpactOutcome.unusual : ImpactOutcome := .found {
  nodeId := "\x08"
  kind := "role"
  loc := some "null"
  outgoing := [⟨"a", "b", "calls", some "", true⟩]
  incoming := [⟨"outcome", "\x0c", "", none, false⟩]
  flows := [⟨"f", "\x1f", [.step 0, .jump (2 ^ 64 - 1), .branch 3 "404"]⟩]
  invariants := [⟨"i", "one\ntwo", some "\r"⟩, ⟨"", "", none⟩] }

theorem unusual_texts_are_read_back :
    (Json.ofText? Report.unusual.jsonText).map Report.ofJson = some (.ok .unusual) ∧
    (Json.ofText? ImpactOutcome.unusual.jsonText).map ImpactOutcome.ofJson =
      some (.ok .unusual) ∧
    Report.unusual.jsonText ≠ ImpactOutcome.unusual.jsonText := by
  have hreport : Report.unusual.Fits :=
    ⟨by simp [Report.unusual, CheckRecord.Fits, FitsWord],
      by simp [Report.unusual, Summary.Fits, FitsWord]⟩
  have hanswer : ImpactOutcome.unusual.Fits := by
    simp [ImpactOutcome.unusual, ImpactOutcome.Fits, ImpactReport.Fits, ImpactFlow.Fits,
      FlowRole.Fits, FitsWord]
  exact ⟨shown_json_loses_nothing.1 _ hreport, shown_json_loses_nothing.2.1 _ hanswer,
    shown_json_loses_nothing.2.2.2.2 _ _ hreport hanswer⟩

end ContractAudit
