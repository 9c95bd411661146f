import ContractAudit.Decoding.FromNode
import ContractAudit.Proofs.Decimal.Integers
import ContractAudit.Proofs.Json.Canonical
import ContractAudit.Proofs.Json.Trees

/-!
# Reading trees of written values

A decoder reads a value back when it gives it for every tree of what was written for it, at any
place and whatever was followed before, as long as the collections in it may be entered
(`ReadsBack`). Nothing is followed on the way, so decoding such a tree is the pure value.
-/

namespace ContractAudit.Decoding

open Json (required ofFields ofStrings)
open Yaml (Node Mark)

variable {α β δ : Type}

/-- The decoder gives the value for every tree of what was written for it. -/
def ReadsBack (read : Context → Node → Decode α) (a : α) (j : Json) : Prop :=
  ∀ ctx node, j.WrittenAs node → j.depth ≤ ctx.levels → read ctx node = pure a

/-! ## Visiting -/

theorem placed_pure (ctx : Context) (mark : Mark) (a : α) :
    ctx.placed mark (pure a : Decode α) = pure a := rfl

theorem visit_scalar (ctx : Context) (p : Yaml.Props) (style : Yaml.ScalarStyle) (s : String)
    (body : Node → Decode α) :
    ctx.visit (.scalar p style s) body = ctx.placed p.mark (body (.scalar p style s)) := rfl

theorem visit_sequence (ctx : Context) (p : Yaml.Props) (nodes : List Node) (body : Node → Decode α) :
    ctx.visit (.sequence p nodes) body = ctx.placed p.mark (body (.sequence p nodes)) := rfl

theorem visit_mapping (ctx : Context) (p : Yaml.Props) (entries : List (Node × Node))
    (body : Node → Decode α) :
    ctx.visit (.mapping p entries) body = ctx.placed p.mark (body (.mapping p entries)) := rfl

theorem enter_pure {ctx : Context} {n : Nat} (h : n + 1 ≤ ctx.levels) (mark : Mark)
    {body : Context → Decode α} {a : α}
    (hbody : ∀ inner : Context, n ≤ inner.levels → body inner = pure a) :
    ctx.enter mark body = pure a := by
  unfold Context.enter
  split
  · omega
  · exact hbody _ (by simp only; omega)

/-! ## Scalars -/

theorem textOf_of_writtenAs {expected : String} {ctx : Context} {s : String} {node : Node}
    (h : Json.TextWrittenAs s node) : textOf expected ctx node = pure s := by
  obtain ⟨mark, rfl⟩ := h
  rfl

theorem readsBack_text (s : String) : ReadsBack text s (.string s) :=
  fun _ _ h _ => textOf_of_writtenAs h

theorem contentAt_of_writtenAs {levels : Nat} {ctx : Context} {s : String} {node : Node}
    (h : Json.TextWrittenAs s node) : contentAt levels ctx node = pure (.scalar (.text s)) := by
  obtain ⟨mark, rfl⟩ := h
  unfold contentAt
  rfl

theorem readsBack_scalarText (s : String) : ReadsBack scalarText s (.string s) := by
  intro ctx node h _
  unfold scalarText content
  rw [contentAt_of_writtenAs h]
  rfl

theorem isNull_eq_false {s : String} (h : Yaml.plainMeaning s ≠ .null) :
    (s.isEmpty || Yaml.isNullWord s) = false := by
  unfold Yaml.plainMeaning at h
  split at h
  · exact absurd rfl h
  · rename_i hnull
    simpa using hnull

/-- A word that is written for a value other than null means something. -/
theorem plainMeaning_ne_null {j : Json} {p : Yaml.Props} {s : String} (hne : j ≠ .null)
    (hexact : j.isExact = true) (h : j.WrittenAs (.scalar p .plain s)) :
    p.tag = none ∧ Yaml.plainMeaning s ≠ .null := by
  cases j with
  | null => exact absurd rfl hne
  | bool b =>
      obtain ⟨mark, hnode⟩ := h
      cases hnode
      cases b
      · exact ⟨rfl, by decide⟩
      · exact ⟨rfl, by decide⟩
  | number n =>
      obtain ⟨mark, hnode⟩ := h
      cases hnode
      cases n with
      | int n =>
          have hword : IsWord n := by simpa [Json.isExact] using hexact
          exact ⟨rfl, by rw [Json.numberText, Yaml.plainMeaning_toString hword]; nofun⟩
      | float x => cases hexact
  | string s =>
      obtain ⟨mark, hnode⟩ := h
      cases hnode
  | array items =>
      obtain ⟨mark, nodes, hnode, -⟩ := h
      cases hnode
  | object fields =>
      obtain ⟨mark, entries, hnode, -⟩ := h
      cases hnode

theorem not_alias_of_writtenAs {j : Json} {mark : Mark} {target : Nat} :
    ¬ j.WrittenAs (.alias mark target) := by
  cases j <;> simp [Json.WrittenAs, Json.WordWrittenAs, Json.TextWrittenAs]

theorem not_cut_of_writtenAs {j : Json} : ¬ j.WrittenAs .cut := by
  cases j <;> simp [Json.WrittenAs, Json.WordWrittenAs, Json.TextWrittenAs]

theorem readsBack_optional {read : Context → Node → Decode α} {a : α} {j : Json}
    (h : ReadsBack read a j) (hne : j ≠ .null) (hexact : j.isExact = true) :
    ReadsBack (optional read) (some a) j := by
  intro ctx node hnode hdepth
  have hread := h ctx node hnode hdepth
  have hpresent : (do return some (← read ctx node) : Decode (Option α)) = pure (some a) := by
    rw [hread]
    rfl
  cases node with
  | scalar p style s =>
      cases style with
      | plain =>
          obtain ⟨htag, hmeaning⟩ := plainMeaning_ne_null hne hexact hnode
          simp only [optional, pure_bind, htag, isNull_eq_false hmeaning]
          exact hpresent
      | quoted => exact hpresent
      | block => exact hpresent
  | sequence p nodes => exact hpresent
  | mapping p entries => exact hpresent
  | «alias» mark target => exact absurd hnode not_alias_of_writtenAs
  | cut => exact absurd hnode not_cut_of_writtenAs

/-! ## Collections -/

theorem mapM_zipIdx_pure {f : β × Nat → Decode α} {nodes : List β} {l : List α}
    (h : List.Forall₂ (fun a node => ∀ i, f (node, i) = pure a) l nodes) :
    ∀ start, (nodes.zipIdx start).mapM f = pure l := by
  induction h with
  | nil => exact fun _ => rfl
  | cons ha _ ih =>
      intro start
      rw [List.zipIdx_cons, List.mapM_cons, ha, pure_bind, ih, pure_bind]

theorem readsBack_items {read : Context → Node → Decode α} {write : α → Json} {l : List α}
    (h : ∀ a ∈ l, ReadsBack read a (write a)) : ReadsBack (items read) l (.array (l.map write)) := by
  intro ctx node hnode hdepth
  obtain ⟨mark, nodes, rfl, hnodes⟩ := hnode
  have hread : ∀ inner : Context, Json.itemsDepth (l.map write) ≤ inner.levels →
      (nodes.zipIdx.mapM fun e => read (inner.step (.index e.2)) e.1) = pure l := by
    intro inner hinner
    refine mapM_zipIdx_pure (((List.forall₂_and_left l nodes).mpr
      ⟨fun a ha => ha, Json.itemsWrittenAs_map.mp hnodes⟩).imp fun a node hboth i => ?_) 0
    refine h a hboth.1 _ node hboth.2 (Nat.le_trans ?_ hinner)
    exact Json.depth_le_itemsDepth (List.mem_map_of_mem hboth.1)
  rw [items, visit_sequence]
  dsimp only
  rw [enter_pure hdepth mark hread, placed_pure]

/-- Values read one by one and put in front of each other. -/
theorem foldlM_cons_eq_mapM {ν : Type} (f : ν → Decode α) (l : List ν) (done : List α) :
    (l.foldlM (fun done n => do pure ((← f n) :: done)) done >>= fun done => pure done.reverse) =
      (l.mapM f >>= fun l => pure (done.reverse ++ l) : Decode (List α)) := by
  induction l generalizing done with
  | nil => simp
  | cons n l ih =>
      rw [List.foldlM_cons, List.mapM_cons]
      simp only [bind_assoc, pure_bind]
      refine bind_congr fun a => ?_
      rw [ih (a :: done)]
      simp

/-- The name and value of an entry. -/
def namedEntry (read : Context → Node → Decode α) (ctx : Context) (e : Node × Node) :
    Decode (String × α) := do
  let name ← text ctx e.1
  let v ← read (ctx.under e.1) e.2
  pure (name, v)

theorem named_mapping (read : Context → Node → Decode α) (ctx : Context) (p : Yaml.Props)
    (es : List (Node × Node)) :
    named read ctx (.mapping p es) =
      ctx.placed p.mark (ctx.enter p.mark fun inner => es.mapM (namedEntry read inner)) := by
  have hloop (inner : Context) := foldlM_cons_eq_mapM (namedEntry read inner) es []
  simp only [List.reverse_nil, List.nil_append, bind_pure] at hloop
  simp only [← hloop, namedEntry, bind_assoc, pure_bind]
  rfl

theorem mapM_pure {f : β → Decode α} {nodes : List β} {l : List α}
    (h : List.Forall₂ (fun a node => f node = pure a) l nodes) : nodes.mapM f = pure l := by
  induction h with
  | nil => rfl
  | cons ha _ ih => rw [List.mapM_cons, ha, pure_bind, ih, pure_bind]

theorem readsBack_named {read : Context → Node → Decode α} {write : α → Json} {l : List (String × α)}
    (h : ∀ e ∈ l, ReadsBack read e.2 (write e.2)) :
    ReadsBack (named read) l (.object (l.map fun e => (e.1, write e.2))) := by
  intro ctx node hnode hdepth
  obtain ⟨mark, nodes, rfl, hnodes⟩ := hnode
  have hread : ∀ inner : Context, Json.fieldsDepth (l.map fun e => (e.1, write e.2)) ≤ inner.levels →
      nodes.mapM (namedEntry read inner) = pure l := by
    intro inner hinner
    refine mapM_pure (((List.forall₂_and_left l nodes).mpr
      ⟨fun e he => he, Json.fieldsWrittenAs_map.mp hnodes⟩).imp fun e n hboth => ?_)
    obtain ⟨he, hkey, hvalue⟩ := hboth
    have hmem : (e.1, write e.2) ∈ l.map fun e => (e.1, write e.2) := List.mem_map.mpr ⟨e, he, rfl⟩
    have hdepth : (write e.2).depth ≤ (inner.under n.1).levels :=
      Nat.le_trans (Json.depth_le_fieldsDepth hmem) hinner
    have htext : text inner n.1 = pure e.1 := textOf_of_writtenAs hkey
    rw [namedEntry, htext, pure_bind, h e he _ _ hvalue hdepth, pure_bind]
  rw [named_mapping, enter_pure hdepth mark hread, placed_pure]

/-! ## Free values -/

theorem hasLocalTag_bare (mark : Mark) : ¬ hasLocalTag { mark } = true := Bool.false_ne_true

theorem freeAt_word {levels : Nat} {ctx : Context} {word : String} {node : Node} {v : Json}
    (h : Json.WordWrittenAs word node) (hv : freeScalar (Yaml.plainMeaning word) = pure v) :
    freeAt levels ctx node = pure v := by
  obtain ⟨mark, rfl⟩ := h
  unfold freeAt
  rw [visit_scalar]
  dsimp only
  rw [if_neg (hasLocalTag_bare mark)]
  exact congrArg _ hv

mutual

/-- **A canonical value is decoded from its tree.** -/
theorem freeAt_of_writtenAs : ∀ (v : Json) {levels : Nat} {ctx : Context} {node : Node},
    v.WrittenAs node → v.depth ≤ levels → v.isExact = true → v.canonical = v →
      freeAt levels ctx node = pure v
  | .null, _, _, _, h, _, _, _ => freeAt_word h rfl
  | .bool true, _, _, _, h, _, _, _ => freeAt_word h rfl
  | .bool false, _, _, _, h, _, _, _ => freeAt_word h rfl
  | .number (.int n), _, _, _, h, _, hexact, _ => by
      have hword : IsWord n := by simpa [Json.isExact] using hexact
      exact freeAt_word h (by rw [Json.numberText, Yaml.plainMeaning_toString hword]; rfl)
  | .string s, _, _, _, ⟨mark, rfl⟩, _, _, _ => by
      unfold freeAt
      rfl
  | .array items, levels + 1, ctx, _, ⟨mark, nodes, rfl, hnodes⟩, hdepth, hexact, hcanonical => by
      have hitems := freeAt_items items hnodes (Nat.le_of_succ_le_succ hdepth) hexact
        (Json.canonical_of_mem_items hcanonical)
      unfold freeAt
      rw [visit_sequence]
      dsimp only
      rw [if_neg (hasLocalTag_bare mark), mapM_zipIdx_pure (hitems.imp fun v node h i => h _)]
      rfl
  | .object fields, levels + 1, ctx, _, ⟨mark, nodes, rfl, hnodes⟩, hdepth, hexact, hcanonical => by
      obtain ⟨hascending, hvalues⟩ := Json.ascending_of_canonical hcanonical
      have hfields := freeAt_fields fields hnodes (Nat.le_of_succ_le_succ hdepth) hexact hvalues
      unfold freeAt
      rw [visit_mapping]
      dsimp only
      rw [if_neg (hasLocalTag_bare mark), mapM_zipIdx_pure (hfields.imp fun f entry h i => h _ _),
        pure_bind, Json.sortFields_of_ascending hascending]
      rfl

theorem freeAt_items : ∀ (items : List Json) {levels : Nat} {nodes : List Node},
    Json.ItemsWrittenAs items nodes → Json.itemsDepth items ≤ levels → Json.areExact items = true →
      (∀ v ∈ items, v.canonical = v) →
        List.Forall₂ (fun v node => ∀ ctx, freeAt levels ctx node = pure v) items nodes
  | [], _, _, rfl, _, _, _ => .nil
  | v :: vs, levels, _, ⟨n, ns, rfl, hn, hns⟩, hdepth, hexact, hcanonical => by
      rw [Json.areExact, Bool.and_eq_true] at hexact
      rw [Json.itemsDepth, Nat.max_le] at hdepth
      obtain ⟨hv, hvs⟩ := List.forall_mem_cons.mp hcanonical
      exact .cons (fun ctx => freeAt_of_writtenAs v hn hdepth.1 hexact.1 hv)
        (freeAt_items vs hns hdepth.2 hexact.2 hvs)

theorem freeAt_fields : ∀ (fields : List (String × Json)) {levels : Nat} {nodes : List (Node × Node)},
    Json.FieldsWrittenAs fields nodes → Json.fieldsDepth fields ≤ levels →
      Json.haveExact fields = true → (∀ f ∈ fields, f.2.canonical = f.2) →
        List.Forall₂ (fun f (entry : Node × Node) => ∀ (ctx : Context) (expected : String),
          (do
            let name ← textOf expected ctx entry.1
            let v ← freeAt levels (ctx.under entry.1) entry.2
            pure (name, v) : Decode (String × Json)) = pure f) fields nodes
  | [], _, _, rfl, _, _, _ => .nil
  | (k, v) :: fs, levels, _, ⟨key, n, es, rfl, hkey, hn, hes⟩, hdepth, hexact, hcanonical => by
      rw [Json.haveExact, Bool.and_eq_true] at hexact
      rw [Json.fieldsDepth, Nat.max_le] at hdepth
      obtain ⟨hv, hfs⟩ := List.forall_mem_cons.mp hcanonical
      refine .cons (fun ctx expected => ?_) (freeAt_fields fs hes hdepth.2 hexact.2 hfs)
      rw [textOf_of_writtenAs hkey, pure_bind, freeAt_of_writtenAs v hn hdepth.1 hexact.1 hv, pure_bind]

end

theorem readsBack_free {v : Json} (hexact : v.isExact = true) (hcanonical : v.canonical = v) :
    ReadsBack free v v :=
  fun _ _ hnode hdepth => freeAt_of_writtenAs v hnode hdepth hexact hcanonical

/-! ## Records -/

/-- Reading the entries of every tree of the written fields leads from one record to another, if the
names that were seen before are among `passed`. -/
def Leads (fields : List (RecordField δ)) (passed : List String)
    (written : List (Option (String × Json))) (d e : δ) : Prop :=
  ∀ (ctx : Context) (nodes : List (Node × Node)) (seen : List String), (∀ name ∈ seen, name ∈ passed) →
    Json.FieldsWrittenAs (written.filterMap id) nodes →
    Json.fieldsDepth (written.filterMap id) ≤ ctx.levels →
    ∃ seen', nodes.foldlM (readField fields ctx) (seen, d) = pure (seen', e) ∧
      (∀ name ∈ seen, name ∈ seen') ∧ ∀ f ∈ written.filterMap id, f.1 ∈ seen'

variable {fields : List (RecordField δ)} {passed : List String}
  {written : List (Option (String × Json))} {d d' e : δ}

theorem leads_nil : Leads fields passed [] d d := by
  rintro ctx nodes seen - rfl -
  exact ⟨seen, rfl, fun _ h => h, fun _ h => nomatch h⟩

theorem leads_absent {name : String} (h : Leads fields (name :: passed) written d e) :
    Leads fields passed (none :: written) d e :=
  fun ctx nodes seen hseen hnodes hdepth =>
    h ctx nodes seen (fun other hother => List.mem_cons_of_mem _ (hseen other hother)) hnodes hdepth

/-- A field that no entry before it named is read. -/
theorem leads_field {field : RecordField δ} {name : String} {j : Json}
    (hfield : fields.find? (·.name == name) = some field) (hfresh : passed.contains name = false)
    (hread : ∀ ctx node, j.WrittenAs node → j.depth ≤ ctx.levels → field.read ctx node d = pure d')
    (h : Leads fields (name :: passed) written d' e) :
    Leads fields passed (required name j :: written) d e := by
  rintro ctx nodes seen hseen ⟨key, node, rest, rfl, hkey, hnode, hrest⟩ hdepth
  have hdepths : j.depth ≤ ctx.levels ∧ Json.fieldsDepth (written.filterMap id) ≤ ctx.levels :=
    Nat.max_le.mp hdepth
  have hunseen : seen.contains name = false := by
    have hnot : name ∉ passed := by simpa using hfresh
    simpa using fun hmem => hnot (hseen name hmem)
  have hentry : readField fields ctx (seen, d) (key, node) = pure (name :: seen, d') := by
    unfold readField
    rw [textOf_of_writtenAs hkey, pure_bind]
    simp only [hfield, hunseen]
    rw [if_neg Bool.false_ne_true, hread (ctx.under key) node hnode hdepths.1, pure_bind]
  obtain ⟨seen', hfold, hkeep, hnames⟩ := h ctx rest (name :: seen) (fun other hother => by
    rcases List.mem_cons.mp hother with rfl | hother
    · exact List.mem_cons_self
    · exact List.mem_cons_of_mem _ (hseen other hother)) hrest hdepths.2
  refine ⟨seen', ?_, fun other hother => hkeep other (List.mem_cons_of_mem _ hother), ?_⟩
  · rw [List.foldlM_cons, hentry, pure_bind, hfold]
  · intro f hf
    rcases List.mem_cons.mp hf with rfl | hf
    · exact hkeep name List.mem_cons_self
    · exact hnames f hf

theorem leads_of {name : String} {read : Context → Node → Decode α} {set : δ → α → δ} {a : α} {j : Json}
    (hfield : fields.find? (·.name == name) = some (.of name read set))
    (hfresh : passed.contains name = false) (hread : ReadsBack read a j)
    (h : Leads fields (name :: passed) written (set d a) e) :
    Leads fields passed (required name j :: written) d e := by
  refine leads_field hfield hfresh (fun ctx node hnode hdepth => ?_) h
  simp [RecordField.of, hread ctx node hnode hdepth]

/-- A field that was left out leaves the record as it is. -/
theorem leads_optional {name : String} {read : Context → Node → Decode α} {set : δ → Option α → δ}
    {a : Option α} {write : α → Json}
    (hfield : fields.find? (·.name == name) = some (.of name (optional read) set))
    (hfresh : passed.contains name = false) (hnone : set d none = d)
    (hread : ∀ v ∈ a, ReadsBack (optional read) (some v) (write v))
    (h : Leads fields (name :: passed) written (set d a) e) :
    Leads fields passed (Json.optional name (a.map write) :: written) d e := by
  cases a with
  | none =>
      rw [hnone] at h
      exact leads_absent h
  | some v => exact leads_of hfield hfresh (hread v rfl) h

/-- **A record is read back** if its written fields lead to it and hold what must be there. -/
theorem readsBack_record {typeName : String} {needed : List String}
    (h : Leads fields [] written d e)
    (hneeded : ∀ name ∈ needed, ∃ j, required name j ∈ written) :
    ReadsBack (record typeName fields needed d) e (ofFields written) := by
  intro ctx node hnode hdepth
  obtain ⟨mark, nodes, rfl, hnodes⟩ := hnode
  rw [record, entries, visit_mapping]
  dsimp only
  rw [enter_pure (a := e) hdepth mark fun inner hinner => ?_, placed_pure]
  obtain ⟨seen, hfold, -, hnames⟩ := h inner nodes [] (fun _ h => nomatch h) hnodes hinner
  have hall : needed.find? (!seen.contains ·) = none := by
    refine List.find?_eq_none.mpr fun name hname => ?_
    obtain ⟨j, hj⟩ := hneeded name hname
    simpa using hnames (name, j) (List.mem_filterMap.mpr ⟨_, hj, rfl⟩)
  rw [hfold, pure_bind]
  simp only [hall]

end ContractAudit.Decoding
