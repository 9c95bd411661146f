import ContractAudit.Proofs.Decoding.Rearranged
import Mathlib.Data.List.Nodup
import Mathlib.Data.List.Pairwise
import Mathlib.Data.List.ReduceOption

/-!
# Records in any order

An entry of a record changes the record under the name of a field, or changes nothing (`Does`). A
record is read by making the changes one after the other, so only their order could tell two orders
of the entries apart; but changes under different names may change places, and no name occurs twice in
a record that is read. So a record keeps to any order of its fields and to further entries between
them (`keepsTo_record`).
-/

namespace ContractAudit.Decoding

open Yaml (Node)

variable {α δ : Type} {fields : List (RecordField δ)} {likeness : List (String × (Node → Node → Prop))}

/-! ## What fields do -/

namespace RecordField

/-- The field changes a record so, for some node and whatever the record holds. -/
def MayChange (field : RecordField δ) (g : δ → δ) : Prop :=
  ∃ ctx node, ∀ d, field.read ctx node d = pure (g d)

/-- What the two fields do may be done in either order. -/
def Independent (field other : RecordField δ) : Prop :=
  ∀ g h, field.MayChange g → other.MayChange h → ∀ d, g (h d) = h (g d)

instance : Std.Symm (Independent (δ := δ)) where
  symm _ _ h g g' hg hg' d := (h g' g hg' hg d).symm

end RecordField

theorem pure_inj {a b : α} (h : (pure a : Decode α) = pure b) : a = b := by
  cases congrFun h 0
  rfl

/-- A field that is set once read sets one value. -/
theorem eq_set_of_mayChange {name : String} {read : Context → Node → Decode α} {set : δ → α → δ}
    {g : δ → δ} (h : (RecordField.of name read set).MayChange g) (d : δ) : ∃ a, ∀ d, g d = set d a := by
  obtain ⟨ctx, node, hread⟩ := h
  have hrun (d : δ) : (read ctx node >>= fun a => pure (set d a)).run 0 = .ok (g d, 0) :=
    congrFun (hread d) 0
  obtain ⟨a, between, ha, -⟩ := run_bind_eq_ok.mp (hrun d)
  refine ⟨a, fun d => ?_⟩
  have hd := hrun d
  rw [run_bind_of_ok ha] at hd
  exact (congrArg Prod.fst (Except.ok.inj hd)).symm

theorem independent_of_commutes {name : String} {read : Context → Node → Decode α} {set : δ → α → δ}
    {other : RecordField δ} (h : Commutes set other) : (RecordField.of name read set).Independent other := by
  rintro g g' hg ⟨ctx, node, hother⟩ d
  obtain ⟨a, ha⟩ := eq_set_of_mayChange hg d
  have hcommutes := h ctx node d a
  rw [hother, hother, map_pure] at hcommutes
  rw [ha, ha, pure_inj hcommutes]

/-- For related nodes the field changes a record in the same way. -/
def KeepsField (R : Node → Node → Prop) (field : RecordField δ) : Prop :=
  ∀ (ctx ctx' : Context) node node' jumps d d' after, ctx'.levels = ctx.levels →
    node.hasAlias = false → R node node' → (field.read ctx node d).run jumps = .ok (d', after) →
      ∃ g : δ → δ, d' = g d ∧ ∀ d, field.read ctx' node' d = pure (g d)

/-- The fields keep each to its own relation, and do not get in each other's way. -/
structure KeepsFields (fields : List (RecordField δ)) (likeness : List (String × (Node → Node → Prop))) :
    Prop where
  each : List.Forall₂ (fun field l => field.name = l.1 ∧ KeepsField l.2 field) fields likeness
  independent : fields.Pairwise RecordField.Independent

theorem keepsFields_nil : KeepsFields ([] : List (RecordField δ)) [] := ⟨.nil, .nil⟩

theorem keepsFields_cons {name : String} {R : Node → Node → Prop} {read : Context → Node → Decode α}
    {set : δ → α → δ} (hread : KeepsTo R read) (hset : ∀ field ∈ fields, Commutes set field)
    (h : KeepsFields fields likeness) :
    KeepsFields (.of name read set :: fields) ((name, R) :: likeness) where
  each := by
    refine .cons ⟨rfl, ?_⟩ h.each
    intro ctx ctx' node node' jumps d d' after hlevels halias hnode hrun
    obtain ⟨a, _, ha, hd⟩ := run_bind_eq_ok.mp hrun
    cases hd
    refine ⟨fun d => set d a, rfl, fun d => ?_⟩
    simp only [RecordField.of, hread _ _ _ _ hlevels halias hnode _ _ _ ha, pure_bind]
  independent := .cons (fun field hfield => independent_of_commutes (hset field hfield)) h.independent

/-- Fields and relations are found under the same names. -/
theorem KeepsFields.find? (h : KeepsFields fields likeness) (name : String) :
    (fields.find? (·.name == name) = none ∧ likeness.lookup name = none) ∨
      ∃ field R, fields.find? (·.name == name) = some field ∧ likeness.lookup name = some R ∧
        KeepsField R field := by
  obtain ⟨heach, -⟩ := h
  induction heach with
  | nil => exact .inl ⟨rfl, rfl⟩
  | @cons field l fields likeness hfield _ ih =>
      obtain ⟨hname, hkeeps⟩ := hfield
      rw [List.find?_cons, List.lookup_cons, ← hname]
      by_cases heq : field.name = name
      · subst heq
        exact .inr ⟨field, l.2, by simp, by simp, hkeeps⟩
      · simpa [beq_eq_false_iff_ne.mpr heq, beq_eq_false_iff_ne.mpr (Ne.symm heq)] using ih

/-! ## What entries do -/

/-- A change under a name. -/
abbrev Change (δ : Type) := String × (δ → δ)

/-- Whatever was read before, the entry makes the change, or none; its name must be new. -/
structure Does (fields : List (RecordField δ)) (ctx : Context) (e : Node × Node)
    (change : Option (Change δ)) : Prop where
  read : ∀ seen d, (∀ c ∈ change, c.1 ∉ seen) →
    readField fields ctx (seen, d) e =
      pure (change.elim (seen, d) fun c => (c.1 :: seen, c.2 d))
  known : ∀ c ∈ change, ∃ field, fields.find? (·.name == c.1) = some field ∧ field.MayChange c.2

theorem does_nothing {ctx : Context} {e : Node × Node} {name : String} (hname : e.1.text? = some name)
    (hunknown : fields.find? (·.name == name) = none) (hcut : e.2.isCut = false) :
    Does fields ctx e none where
  read seen d _ := by
    unfold readField
    rw [textOf_of_text? hname, pure_bind]
    simp only [hunknown, ignore, hcut]
    rfl
  known c hc := nomatch hc

theorem does_change {ctx : Context} {e : Node × Node} {name : String} {field : RecordField δ} {g : δ → δ}
    (hname : e.1.text? = some name) (hfield : fields.find? (·.name == name) = some field)
    (hread : ∀ d, field.read (ctx.under e.1) e.2 d = pure (g d)) :
    Does fields ctx e (some (name, g)) where
  read seen d hnew := by
    have hunseen : ¬ seen.contains name = true := by simpa using hnew (name, g) rfl
    unfold readField
    rw [textOf_of_text? hname, pure_bind]
    simp only [hfield]
    rw [if_neg hunseen, hread, pure_bind]
    rfl
  known c hc := by
    cases hc
    exact ⟨field, hfield, _, _, hread⟩

/-- Entries of which each makes its change make all changes in turn, if their names differ. -/
theorem foldlM_of_does {ctx : Context} {es : List (Node × Node)} {changes : List (Option (Change δ))}
    (h : List.Forall₂ (Does fields ctx) es changes) :
    ∀ {seen : List String} {d : δ}, (changes.reduceOption.map Prod.fst).Nodup →
      (∀ c ∈ changes.reduceOption, c.1 ∉ seen) →
        es.foldlM (readField fields ctx) (seen, d) =
          pure ((changes.reduceOption.map Prod.fst).reverse ++ seen,
            changes.reduceOption.foldl (fun d c => c.2 d) d) := by
  induction h with
  | nil => exact fun _ _ => rfl
  | @cons e change es changes he _ ih =>
      intro seen d hnodup hnew
      rw [List.foldlM_cons]
      cases change with
      | none =>
          rw [List.reduceOption_cons_of_none] at hnodup hnew ⊢
          rw [he.read seen d nofun, pure_bind]
          exact ih hnodup hnew
      | some c =>
          rw [List.reduceOption_cons_of_some] at hnodup hnew ⊢
          obtain ⟨hc, hrest⟩ := List.forall_mem_cons.mp hnew
          rw [List.map_cons, List.nodup_cons] at hnodup
          rw [he.read seen d (by rintro _ ⟨⟩; exact hc), pure_bind]
          dsimp only [Option.elim]
          rw [ih hnodup.2 fun other hother => ?_]
          · simp
          · -- The name just seen is none of the later ones, since all names differ.
            refine List.not_mem_cons_of_ne_of_not_mem (fun heq => hnodup.1 ?_) (hrest other hother)
            exact heq ▸ List.mem_map_of_mem hother

theorem exists_of_mem_right {ν μ : Type} {R : ν → μ → Prop} {l : List ν} {l' : List μ} {b : μ}
    (h : List.Forall₂ R l l') (hb : b ∈ l') : ∃ a, R a b := by
  induction h with
  | nil => cases hb
  | cons ha _ ih =>
      rcases List.mem_cons.mp hb with rfl | hb
      · exact ⟨_, ha⟩
      · exact ih hb

/-! ## Entries that were read -/

/-- An entry that was read makes a change, and so does the one that takes its place. -/
theorem does_of_run (hfields : KeepsFields fields likeness) {ctx ctx' : Context}
    (hlevels : ctx'.levels = ctx.levels) {e e' : Node × Node} {seen seen' : List String} {d d' : δ}
    {jumps after : Nat} (hkey : e.1.hasAlias = false) (hvalue : e.2.hasAlias = false)
    (he : Node.FieldLike likeness e e')
    (hrun : (readField fields ctx (seen, d) e).run jumps = .ok ((seen', d'), after)) :
    ∃ change, Does fields ctx' e' change ∧ (∀ c ∈ change, c.1 ∉ seen) ∧
      (seen', d') = change.elim (seen, d) fun c => (c.1 :: seen, c.2 d) := by
  obtain ⟨name, _, hname, hrun⟩ := run_bind_eq_ok.mp hrun
  obtain ⟨hname, -⟩ := text?_of_run_textOf hkey hname
  obtain ⟨hkeys, hvalues⟩ := he
  have hname' : e'.1.text? = some name := hkeys.text?.trans hname
  rw [hname, Option.bind_some] at hvalues
  rcases hfields.find? name with ⟨hfield, hR⟩ | ⟨field, R, hfield, hR, hkeeps⟩
  · simp only [hfield, ignore] at hrun
    rw [hR] at hvalues
    cases hcut : e.2.isCut with
    | true =>
        rw [hcut] at hrun
        cases hrun
    | false =>
        rw [hcut] at hrun
        cases hrun
        have hcut' : e'.2.isCut = false := (Node.isCut_of_alike _ _ hvalues).symm.trans hcut
        exact ⟨none, does_nothing hname' hfield hcut', nofun, rfl⟩
  · simp only [hfield] at hrun
    rw [hR] at hvalues
    by_cases hseen : seen.contains name
    · rw [if_pos hseen] at hrun
      cases hrun
    · rw [if_neg hseen] at hrun
      obtain ⟨_, _, hread, hstate⟩ := run_bind_eq_ok.mp hrun
      obtain ⟨g, rfl, hread'⟩ :=
        hkeeps (ctx.under e.1) (ctx'.under e'.1) _ _ _ _ _ _ hlevels hvalue hvalues hread
      cases hstate
      refine ⟨some (name, g), does_change hname' hfield hread', ?_, rfl⟩
      rintro _ ⟨⟩
      simpa using hseen

theorem changes_of_run (hfields : KeepsFields fields likeness) {ctx ctx' : Context}
    (hlevels : ctx'.levels = ctx.levels) {es kept : List (Node × Node)}
    (hlike : List.Forall₂ (Node.FieldLike likeness) es kept)
    (halias : ∀ e ∈ es, e.1.hasAlias = false ∧ e.2.hasAlias = false)
    {seen seen' : List String} {d d' : δ} {jumps after : Nat}
    (hrun : (es.foldlM (readField fields ctx) (seen, d)).run jumps = .ok ((seen', d'), after)) :
    ∃ changes, List.Forall₂ (Does fields ctx') kept changes ∧
      (changes.reduceOption.map Prod.fst).Nodup ∧ (∀ c ∈ changes.reduceOption, c.1 ∉ seen) ∧
      seen' = (changes.reduceOption.map Prod.fst).reverse ++ seen ∧
      d' = changes.reduceOption.foldl (fun d c => c.2 d) d := by
  induction hlike generalizing seen d jumps with
  | nil =>
      cases hrun
      exact ⟨[], .nil, .nil, nofun, rfl, rfl⟩
  | cons he _ ih =>
      obtain ⟨⟨hkey, hvalue⟩, hrest⟩ := List.forall_mem_cons.mp halias
      rw [List.foldlM_cons] at hrun
      obtain ⟨⟨between, d₁⟩, _, hfirst, hrun⟩ := run_bind_eq_ok.mp hrun
      obtain ⟨change, hdoes, hnew, hstate⟩ := does_of_run hfields hlevels hkey hvalue he hfirst
      obtain ⟨changes, hall, hnodup, hfresh, rfl, rfl⟩ := ih hrest hrun
      refine ⟨change :: changes, .cons hdoes hall, ?_⟩
      -- A change adds its name to those seen, and the later entries ran with it among them.
      cases change with
      | none =>
          cases hstate
          rw [List.reduceOption_cons_of_none]
          exact ⟨hnodup, hfresh, rfl, rfl⟩
      | some c =>
          cases hstate
          rw [List.reduceOption_cons_of_some]
          refine ⟨List.nodup_cons.mpr ⟨fun hmem => ?_, hnodup⟩, ?_, by simp, rfl⟩
          · obtain ⟨other, hother, heq⟩ := List.mem_map.mp hmem
            exact hfresh other hother (heq ▸ List.mem_cons_self)
          · refine List.forall_mem_cons.mpr ⟨hnew c rfl, fun other hother hseen => ?_⟩
            exact hfresh other hother (List.mem_cons_of_mem _ hseen)

/-! ## Records -/

/-- Changes that were made under different names come to the same in any order. -/
theorem foldl_changes_of_perm (hfields : KeepsFields fields likeness) {changes changes' : List (Change δ)}
    (hperm : changes'.Perm changes) (hnodup : (changes.map Prod.fst).Nodup)
    (hknown : ∀ c ∈ changes, ∃ field, fields.find? (·.name == c.1) = some field ∧ field.MayChange c.2)
    (d : δ) : changes'.foldl (fun d c => c.2 d) d = changes.foldl (fun d c => c.2 d) d := by
  refine (hperm.symm.foldl_eq' (fun c hc c' hc' d => ?_) d).symm
  obtain ⟨field, hfield, hg⟩ := hknown c hc
  obtain ⟨field', hfield', hg'⟩ := hknown c' hc'
  by_cases hname : c.1 = c'.1
  · rw [List.inj_on_of_nodup_map hnodup hc hc' hname]
  · have hne : field ≠ field' := by
      rintro rfl
      refine hname ?_
      have hfirst : field.name = c.1 := by simpa using List.find?_some hfield
      have hsecond : field.name = c'.1 := by simpa using List.find?_some hfield'
      exact hfirst.symm.trans hsecond
    have hindependent := hfields.independent.forall (List.mem_of_find?_eq_some hfield')
      (List.mem_of_find?_eq_some hfield) hne.symm
    exact hindependent _ _ hg' hg d

theorem does_extra (hfields : KeepsFields fields likeness) {ctx : Context} {e : Node × Node}
    (h : Node.IsExtra likeness e) : Does fields ctx e none := by
  obtain ⟨⟨name, hname, hunknown⟩, hcut⟩ := h
  rcases hfields.find? name with ⟨hfield, -⟩ | ⟨_, R, -, hR, -⟩
  · exact does_nothing hname hfield hcut
  · rw [hunknown] at hR
    cases hR

/-- Entries that were read are read in any order, among unknown ones, to the same value; the same
names are then taken. -/
theorem run_rearranged (hfields : KeepsFields fields likeness) {ctx ctx' : Context}
    (hlevels : ctx'.levels = ctx.levels) {es kept extra es' : List (Node × Node)}
    (hkept : List.Forall₂ (Node.FieldLike likeness) es kept)
    (hextra : ∀ e ∈ extra, Node.IsExtra likeness e) (hperm : es'.Perm (kept ++ extra))
    (halias : ∀ e ∈ es, e.1.hasAlias = false ∧ e.2.hasAlias = false)
    {start d : δ} {seen : List String} {jumps after : Nat}
    (hrun : (es.foldlM (readField fields ctx) ([], start)).run jumps = .ok ((seen, d), after)) :
    ∃ seen', es'.foldlM (readField fields ctx') ([], start) = pure (seen', d) ∧
      ∀ name, seen'.contains name = seen.contains name := by
  obtain ⟨changes, hdoes, hnodup, -, rfl, rfl⟩ := changes_of_run hfields hlevels hkept halias hrun
  -- the further entries make no change
  have hall : List.Forall₂ (Does fields ctx') (kept ++ extra)
      (changes ++ extra.map fun _ => none) := by
    refine List.rel_append hdoes (List.forall₂_map_right_iff.mpr ?_)
    exact List.forall₂_same.mpr fun e he => does_extra hfields (hextra e he)
  obtain ⟨changes', hdoes', hchanges⟩ := List.perm_comp_forall₂ hperm hall
  have hmade : changes'.reduceOption.Perm changes.reduceOption := by
    have h := hchanges.filterMap id
    rw [List.filterMap_append, List.filterMap_map] at h
    simpa [List.reduceOption] using h
  have hnames := hmade.map Prod.fst
  have hknown : ∀ c ∈ changes.reduceOption,
      ∃ field, fields.find? (·.name == c.1) = some field ∧ field.MayChange c.2 := by
    intro c hc
    obtain ⟨e, he⟩ := exists_of_mem_right hdoes (List.reduceOption_mem_iff.mp hc)
    exact he.known c rfl
  refine ⟨(changes'.reduceOption.map Prod.fst).reverse ++ [], ?_, ?_⟩
  · rw [foldlM_of_does hdoes' (hnames.nodup_iff.mpr hnodup) (fun _ _ => List.not_mem_nil),
      foldl_changes_of_perm hfields hmade hnodup hknown]
  · intro name
    rw [Bool.eq_iff_iff]
    simp only [List.contains_iff_mem, List.append_nil, List.mem_reverse, hnames.mem_iff]

/-- **A record does not depend on the order of its entries or on unknown ones.** -/
theorem keepsTo_record (hfields : KeepsFields fields likeness) (typeName : String) (needed : List String)
    (start : δ) : KeepsTo (Node.RecordLike likeness) (record typeName fields needed start) := by
  intro ctx ctx' node node' hlevels halias hnode
  cases hnode with
  | scalar p mark style s =>
      refine Settles.placed ?_ ctx ctx' _ _
      refine Settles.ite (fun _ => ?_) fun _ => settles_mismatch _
      dsimp only
      split
      · exact settles_mismatch _
      · exact settles_pure _
  | @mapping p mark es kept extra es' hkept hextra hperm =>
      refine Settles.placed ?_ ctx ctx' _ _
      refine settles_enter hlevels fun inner inner' hinner => ?_
      intro jumps d after hrun
      obtain ⟨⟨seen, d⟩, _, hrun, hfinish⟩ := run_bind_eq_ok.mp hrun
      obtain ⟨seen', hread, hseen⟩ :=
        run_rearranged hfields hinner hkept hextra hperm (Node.hasAlias_entry halias) hrun
      rw [hread, pure_bind]
      dsimp only at hfinish ⊢
      simp only [hseen]
      split at hfinish
      · cases hfinish
      · cases hfinish
        rfl

end ContractAudit.Decoding
