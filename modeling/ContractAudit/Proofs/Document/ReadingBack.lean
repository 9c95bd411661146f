import ContractAudit.Document.Decode
import ContractAudit.Document.Json
import ContractAudit.Proofs.Decoding.FromNode

/-!
# Reading contract maps back

Each record of a map is read back from a tree of what is written for it; a field left out is one
whose value is the one it starts with. So a map is decoded from the tree of its own JSON text
(`decodes_own_json`), provided its free values are such as rest in JSON and nothing in it is nested
too deep to be entered.
-/

namespace ContractAudit

open Json (required ofFields ofStrings)
open Decoding

/-! ## Registries -/

namespace Registry

variable {α : Type}

theorem insertEntry_of_fresh {name : String} {value : α} {l : List (String × α)}
    (h : name ∉ l.map Prod.fst) : insertEntry name value l = l ++ [(name, value)] := by
  induction l with
  | nil => rfl
  | cons e rest ih =>
      obtain ⟨n, v⟩ := e
      rw [List.map_cons, List.mem_cons, not_or] at h
      rw [insertEntry, if_neg (Ne.symm h.1), ih h.2, List.cons_append]

theorem entries_foldl_insert (l : List (String × α)) : ∀ r : Registry α,
    ((r.entries ++ l).map Prod.fst).Nodup →
      (l.foldl (fun r e => r.insert e.1 e.2) r).entries = r.entries ++ l := by
  induction l with
  | nil => exact fun r _ => (List.append_nil _).symm
  | cons e l ih =>
      intro r h
      have hfresh : e.1 ∉ r.entries.map Prod.fst := by
        rw [List.map_append, List.map_cons, List.nodup_append] at h
        exact fun hmem => h.2.2 e.1 hmem e.1 List.mem_cons_self rfl
      have hinsert : (r.insert e.1 e.2).entries = r.entries ++ [e] := insertEntry_of_fresh hfresh
      have hnodup : (((r.insert e.1 e.2).entries ++ l).map Prod.fst).Nodup := by
        rw [hinsert, List.append_assoc]
        exact h
      rw [List.foldl_cons, ih _ hnodup, hinsert, List.append_assoc]
      rfl

/-- Entering the entries of a registry one by one gives the registry. -/
theorem ofList_entries (r : Registry α) : ofList r.entries = r := by
  refine Registry.ext ?_
  have h := entries_foldl_insert r.entries empty (by simpa using r.nodup)
  simpa [ofList] using h

end Registry

/-! ## Fields -/

section Fields

variable {δ : Type} {fields : List (RecordField δ)} {passed : List String} {name : String}
  {written : List (Option (String × Json))} {d e : δ}

theorem leads_text {set : δ → String → δ} {s : String}
    (hfield : fields.find? (·.name == name) = some (textField name set))
    (hfresh : passed.contains name = false) (h : Leads fields (name :: passed) written (set d s) e) :
    Leads fields passed (required name (.string s) :: written) d e :=
  leads_of hfield hfresh (readsBack_text s) h

theorem leads_optionalText {set : δ → Option String → δ} {s : Option String}
    (hfield : fields.find? (·.name == name) = some (optionalTextField name set))
    (hfresh : passed.contains name = false) (hnone : set d none = d)
    (h : Leads fields (name :: passed) written (set d s) e) :
    Leads fields passed (Json.optional name (s.map .string) :: written) d e :=
  leads_optional hfield hfresh hnone
    (fun v _ => readsBack_optional (readsBack_text v) nofun rfl) h

/-- The list is left out when it is empty. -/
theorem leads_scalars {set : δ → List String → δ} {l : List String}
    (hfield : fields.find? (·.name == name) = some (scalarsField name set))
    (hfresh : passed.contains name = false) (hnil : set d [] = d)
    (h : Leads fields (name :: passed) written (set d l) e) :
    Leads fields passed (nonEmptyStrings name l :: written) d e := by
  cases l with
  | nil =>
      rw [hnil] at h
      exact leads_absent h
  | cons s l =>
      have hlist : ReadsBack (items scalarText) (s :: l) (ofStrings (s :: l)) :=
        readsBack_items fun s _ => readsBack_scalarText s
      have hexact : (ofStrings (s :: l)).isExact = true := Json.areExact_map fun _ _ => rfl
      exact leads_of hfield hfresh (readsBack_optional hlist nofun hexact) h

/-- A value as JSON keeps it: not null, without doubles, and with the fields of every object in
order. -/
structure Json.IsPlain (v : Json) : Prop where
  ne_null : v ≠ .null
  exact : v.isExact = true
  canonical : v.canonical = v

theorem leads_free {set : δ → Option Json → δ} {value : Option Json}
    (hfield : fields.find? (·.name == name) = some (freeField name set))
    (hfresh : passed.contains name = false) (hnone : set d none = d)
    (hplain : ∀ v ∈ value, v.IsPlain) (h : Leads fields (name :: passed) written (set d value) e) :
    Leads fields passed (Json.optional name value :: written) d e := by
  have hid : value.map id = value := by simp
  rw [← hid]
  exact leads_optional hfield hfresh hnone (fun v hv =>
    readsBack_optional (readsBack_free (hplain v hv).exact (hplain v hv).canonical)
      (hplain v hv).ne_null (hplain v hv).exact) h

end Fields

/-! ## Records -/

theorem Meta.readsBack (m : Meta) : ReadsBack Meta.decode m m.toJson := by
  change ReadsBack _ m (ofFields [required "name" (.string m.name), required "root" (.string m.root)])
  refine readsBack_record ?_ nofun
  refine leads_text rfl rfl ?_
  refine leads_text rfl rfl ?_
  exact leads_nil

namespace NodeRecord

/-- The free values of a node. -/
def freeValues (n : NodeRecord) : List Json :=
  [n.indexes, n.triggers, n.request, n.response, n.payload, n.pre, n.post, n.sideEffects,
    n.errors].filterMap id

theorem readsBack {n : NodeRecord} (h : ∀ v ∈ n.freeValues, v.IsPlain) :
    ReadsBack NodeRecord.decode n n.toJson := by
  have hplain : ∀ value ∈ [n.indexes, n.triggers, n.request, n.response, n.payload, n.pre, n.post,
      n.sideEffects, n.errors], ∀ v ∈ value, v.IsPlain :=
    fun value hvalue v hv => h v (List.mem_filterMap.mpr ⟨value, hvalue, hv⟩)
  simp only [List.forall_mem_cons] at hplain
  obtain ⟨hindexes, htriggers, hrequest, hresponse, hpayload, hpre, hpost, hside, herrors, -⟩ := hplain
  refine readsBack_record ?_ nofun
  refine leads_optionalText rfl rfl rfl ?_
  refine leads_optionalText rfl rfl rfl ?_
  refine leads_optionalText rfl rfl rfl ?_
  refine leads_optionalText rfl rfl rfl ?_
  refine leads_scalars rfl rfl rfl ?_
  refine leads_scalars rfl rfl rfl ?_
  refine leads_free rfl rfl rfl hindexes ?_
  refine leads_free rfl rfl rfl htriggers ?_
  refine leads_free rfl rfl rfl hrequest ?_
  refine leads_free rfl rfl rfl hresponse ?_
  refine leads_free rfl rfl rfl hpayload ?_
  refine leads_free rfl rfl rfl hpre ?_
  refine leads_free rfl rfl rfl hpost ?_
  refine leads_free rfl rfl rfl hside ?_
  refine leads_free rfl rfl rfl herrors ?_
  exact leads_nil

end NodeRecord

theorem EdgeRecord.readsBack (e : EdgeRecord) : ReadsBack EdgeRecord.decode e e.toJson := by
  refine readsBack_record ?_ ?_
  · refine leads_text rfl rfl ?_
    refine leads_text rfl rfl ?_
    refine leads_text rfl rfl ?_
    refine leads_optionalText rfl rfl rfl ?_
    exact leads_nil
  · simp [required, exists_or]

theorem InvariantRecord.readsBack (i : InvariantRecord) :
    ReadsBack InvariantRecord.decode i i.toJson := by
  refine readsBack_record ?_ ?_
  · refine leads_text rfl rfl ?_
    refine leads_text rfl rfl ?_
    refine leads_of rfl rfl (readsBack_items fun s _ => readsBack_text s) ?_
    refine leads_optionalText rfl rfl rfl ?_
    exact leads_nil
  · simp [required, exists_or]

/-! ## Flows -/

theorem ofContent?_texts (arms : List (String × String)) :
    Continuation.ofContent?
        (.mapping (arms.map fun arm => (.scalar (.text arm.1), .scalar (.text arm.2)))) =
      some (.branch (.ofList arms)) := by
  have harms : (arms.map fun arm => (Content.scalar (.text arm.1), Content.scalar (.text arm.2))).mapM
      (fun arm : Content × Content => do
        let label ← arm.1.text?
        let raw ← arm.2.text?
        some (label, raw)) = some arms := by
    induction arms with
    | nil => rfl
    | cons arm arms ih =>
        rw [List.map_cons, List.mapM_cons, ih]
        rfl
  rw [Continuation.ofContent?, harms]
  rfl

/-- A branch is taken apart into the texts of its arms. -/
theorem mapM_content_arms {levels : Nat} {ctx : Context} : ∀ (arms : List (String × String))
    {nodes : List (Yaml.Node × Yaml.Node)},
    Json.FieldsWrittenAs (arms.map fun arm => (arm.1, .string arm.2)) nodes →
      (nodes.mapM fun (key, value) => do
        let k ← contentAt levels ctx key
        let v ← contentAt levels (ctx.under key) value
        pure (k, v) : Decode (List (Content × Content))) =
      pure (arms.map fun arm => (.scalar (.text arm.1), .scalar (.text arm.2)))
  | [], _, rfl => rfl
  | arm :: arms, _, ⟨key, n, es, rfl, hkey, hn, hes⟩ => by
      rw [List.mapM_cons, mapM_content_arms arms hes]
      simp only [contentAt_of_writtenAs hkey, contentAt_of_writtenAs hn, pure_bind]
      rfl

theorem Continuation.readsBack (c : Continuation) : ReadsBack Continuation.decode c c.toJson := by
  intro ctx node hnode hdepth
  cases c with
  | target raw =>
      unfold Continuation.decode content
      rw [contentAt_of_writtenAs hnode]
      rfl
  | branch arms =>
      obtain ⟨mark, nodes, rfl, hnodes⟩ := hnode
      obtain ⟨levels, hlevels⟩ := Nat.exists_eq_add_of_le' (Nat.le_trans (Nat.le_add_left 1 _) hdepth)
      have hcontent : content ctx (.mapping { mark } nodes) =
          pure (.mapping (arms.entries.map fun arm =>
            (.scalar (.text arm.1), .scalar (.text arm.2)))) := by
        unfold content
        rw [hlevels]
        unfold contentAt
        rw [visit_mapping]
        dsimp only
        rw [if_neg (hasLocalTag_bare mark), mapM_content_arms arms.entries hnodes]
        rfl
      unfold Continuation.decode
      rw [hcontent, pure_bind, ofContent?_texts, Registry.ofList_entries]

theorem Step.readsBack (s : Step) : ReadsBack Step.decode s s.toJson := by
  change ReadsBack _ s (ofFields [required "node" (.string s.node), required "then" s.next.toJson])
  refine readsBack_record ?_ ?_
  · refine leads_text rfl rfl ?_
    refine leads_of rfl rfl s.next.readsBack ?_
    exact leads_nil
  · simp [required]

theorem FlowRecord.readsBack (f : FlowRecord) : ReadsBack FlowRecord.decode f f.toJson := by
  change ReadsBack _ f (ofFields [required "trigger" (.string f.trigger),
    required "steps" (.array (f.steps.map Step.toJson))])
  refine readsBack_record ?_ nofun
  refine leads_text rfl rfl ?_
  refine leads_of rfl rfl (readsBack_items fun s _ => s.readsBack) ?_
  exact leads_nil

/-! ## Maps -/

namespace Document

theorem readsBack {d : Document} (h : ∀ n ∈ d.nodes.values, ∀ v ∈ n.freeValues, v.IsPlain) :
    ReadsBack Document.decode d d.toJson := by
  have hnodes : ∀ e ∈ d.nodes.entries, ReadsBack NodeRecord.decode e.2 e.2.toJson :=
    fun e he => NodeRecord.readsBack (h e.2 (List.mem_map_of_mem he))
  change ReadsBack _ d (ofFields [
    required "version" (.string d.version),
    required "meta" d.metadata.toJson,
    required "nodes" (d.nodes.toJson NodeRecord.toJson),
    required "edges" (.array (d.edges.map EdgeRecord.toJson)),
    required "flows" (d.flows.toJson FlowRecord.toJson),
    required "invariants" (.array (d.invariants.map InvariantRecord.toJson))])
  refine readsBack_record ?_ nofun
  refine leads_of rfl rfl (readsBack_scalarText _) ?_
  refine leads_of rfl rfl d.metadata.readsBack ?_
  refine leads_of rfl rfl (readsBack_named hnodes) ?_
  refine leads_of rfl rfl (readsBack_items fun e _ => e.readsBack) ?_
  refine leads_of rfl rfl (readsBack_named fun e _ => e.2.readsBack) ?_
  refine leads_of rfl rfl (readsBack_items fun i _ => i.readsBack) ?_
  rw [Registry.ofList_entries, Registry.ofList_entries]
  exact leads_nil

end Document

/-- **A map is decoded from the tree of its own JSON text.** Whatever the marks of the tree and the
number of its events, the map that comes back is the one that was written: the order of nodes, flows
and arms, a single destination or a branch, and what is absent or empty. -/
theorem decodes_own_json (d : Document) (h : ∀ n ∈ d.nodes.values, ∀ v ∈ n.freeValues, v.IsPlain)
    (hdepth : d.toJson.depth ≤ 128) (tree : Yaml.Node) (htree : d.toJson.WrittenAs tree) (events : Nat) :
    Document.ofNode tree events = .ok d := by
  unfold Document.ofNode
  dsimp only
  rw [Document.readsBack h _ tree htree hdepth]
  rfl

/-- A map with an empty and an absent text, texts that look like other values, nested free values,
and both kinds of continuation. -/
def Document.varied : Document where
  version := "1.50"
  metadata := ⟨"null", ""⟩
  nodes := .ofList [
    ("type:B", { kind := some "", note := some "null", values := ["404", "~", ""] }),
    ("type:A", {
      loc := some "a.ts", fk := ["tasks.id"]
      request := some (.object [("a", .null), ("b", .array [.bool true, .number (.int (-3))])])
      errors := some (.array []) })]
  edges := [⟨"type:B", "type:A", "true", some ""⟩, ⟨"", "", "", none⟩]
  flows := .ofList [
    ("z", ⟨"on", [⟨"type:A", .target "next"⟩,
      ⟨"type:B", .branch (.ofList [("b", "DONE"), ("404", "x")])⟩]⟩),
    ("a", ⟨"", []⟩)]
  invariants := [⟨"i", "one\ntwo", ["type:A"], some "\r"⟩, ⟨"", "", [], none⟩]

theorem varied_map_is_decoded :
    (∀ n ∈ Document.varied.nodes.values, ∀ v ∈ n.freeValues, v.IsPlain) ∧
    Document.varied.toJson.depth ≤ 128 ∧
    Document.varied.toJson.WrittenAs Document.varied.toJson.toNode ∧
    Document.ofNode Document.varied.toJson.toNode 0 = .ok .varied := by
  have hplain : ∀ n ∈ Document.varied.nodes.values, ∀ v ∈ n.freeValues, v.IsPlain := by
    have hvalues : ∀ n ∈ Document.varied.nodes.values, ∀ v ∈ n.freeValues,
        v ≠ .null ∧ v.isExact = true ∧ v.canonical = v := by decide +kernel
    exact fun n hn v hv => ⟨(hvalues n hn v hv).1, (hvalues n hn v hv).2.1, (hvalues n hn v hv).2.2⟩
  have hdepth : Document.varied.toJson.depth ≤ 128 := by decide +kernel
  have htree := Json.writtenAs_toNode Document.varied.toJson
  exact ⟨hplain, hdepth, htree, decodes_own_json _ hplain hdepth _ htree 0⟩

end ContractAudit
