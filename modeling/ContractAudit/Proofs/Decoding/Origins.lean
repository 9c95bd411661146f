import ContractAudit.Proofs.Decoding.RecordOrder
import Mathlib.Data.List.Induction

/-!
# Where decoded values come from

What a decoder gives for a tree without aliases was given for the parts of the tree (`Yields`): an
item of a list for the item in its place, a value under a name for the value that stands last under
the name, a field of a record for the value of that field. Names are kept in the order in which they
stand first.
-/

namespace ContractAudit

/-! ## Registries of a list -/

namespace Registry

variable {α : Type}

theorem names_insert (r : Registry α) (name : String) (value : α) :
    (r.insert name value).names = if name ∈ r.names then r.names else r.names ++ [name] :=
  names_insertEntry name value r.entries

theorem mem_insertEntry (name : String) (value : α) (l : List (String × α)) :
    (name, value) ∈ insertEntry name value l := by
  induction l with
  | nil => simp [insertEntry]
  | cons e rest ih =>
      obtain ⟨n, v⟩ := e
      unfold insertEntry
      split
      · exact List.mem_cons_self
      · exact List.mem_cons_of_mem _ ih

theorem get?_insert (r : Registry α) (name other : String) (value : α) :
    (r.insert name value).get? other = if other = name then some value else r.get? other := by
  split
  · rename_i h
    subst h
    exact get?_eq_some_iff.mpr (mem_insertEntry other value r.entries)
  · rename_i h
    exact get?_eq_of_filter_eq h (filter_insertEntry name value r.entries)

theorem ofList_append (l : List (String × α)) (e : String × α) :
    ofList (l ++ [e]) = (ofList l).insert e.1 e.2 := by
  unfold ofList
  rw [List.foldl_append]
  rfl

/-- Names stand in the order in which they were first entered. -/
theorem names_ofList (l : List (String × α)) : (ofList l).names = (l.map Prod.fst).eraseDups := by
  induction l using List.reverseRecOn with
  | nil => rfl
  | append_singleton l e ih =>
      rw [ofList_append, names_insert, ih, List.map_append, List.eraseDups_append]
      by_cases h : e.1 ∈ l.map Prod.fst
      · rw [if_pos (List.mem_eraseDups.mpr h)]
        simp [List.removeAll, h]
      · rw [if_neg fun hmem => h (List.mem_eraseDups.mp hmem)]
        simp [List.removeAll, h, List.eraseDups_cons]

/-- The value that was entered last under a name is kept. -/
theorem get?_ofList (l : List (String × α)) (name : String) :
    (ofList l).get? name = (l.reverse.find? (·.1 == name)).map Prod.snd := by
  induction l using List.reverseRecOn with
  | nil => rfl
  | append_singleton l e ih =>
      rw [ofList_append, get?_insert, ih, List.reverse_append, List.reverse_singleton,
        List.singleton_append, List.find?_cons]
      by_cases h : name = e.1
      · simp [h]
      · simp [h, beq_eq_false_iff_ne.mpr (Ne.symm h)]

end Registry

namespace Decoding

open Yaml (Node)

variable {α δ γ : Type} {read : Context → Node → Decode α} {node : Node}

/-- At some place the decoder gives the value for the node. -/
def Yields (read : Context → Node → Decode α) (node : Node) (a : α) : Prop :=
  ∃ ctx jumps after, (read ctx node).run jumps = .ok (a, after)

/-! ## Collections -/

theorem run_enter {ctx : Context} {mark : Yaml.Mark} {body : Context → Decode α} {jumps : Nat}
    {r : α × Nat} (h : (ctx.enter mark body).run jumps = .ok r) :
    ∃ inner, (body inner).run jumps = .ok r := by
  unfold Context.enter at h
  split at h
  · cases h
  · exact ⟨_, h⟩

theorem hasAlias_of_item? {i : Nat} {n : Node} (halias : node.hasAlias = false)
    (h : node.item? i = some n) : n.hasAlias = false := by
  cases node with
  | sequence p ns => exact Node.hasAlias_item halias n (List.mem_of_getElem? h)
  | scalar | mapping | cut | _ => cases h

theorem hasAlias_of_valueOf? {name : String} {n : Node} (halias : node.hasAlias = false)
    (h : node.valueOf? name = some n) : n.hasAlias = false := by
  cases node with
  | mapping p es =>
      obtain ⟨e, he, rfl⟩ := Option.map_eq_some_iff.mp h
      exact (Node.hasAlias_entry halias e (List.mem_reverse.mp (List.mem_of_find?_eq_some he))).2
  | scalar | sequence | cut | _ => cases h

/-- An item was given for the node in its place. -/
theorem yields_item (halias : node.hasAlias = false) {l : List α} (h : Yields (items read) node l)
    {i : Nat} {a : α} (ha : l[i]? = some a) : ∃ n, node.item? i = some n ∧ Yields read n a := by
  obtain ⟨ctx, jumps, after, hrun⟩ := h
  cases node with
  | scalar p style s =>
      have hrun := run_placed_eq_ok.mp hrun
      dsimp only at hrun
      split at hrun
      · cases hrun
        cases ha
      · cases hrun
  | sequence p ns =>
      obtain ⟨inner, hrun⟩ := run_enter (run_placed_eq_ok.mp hrun)
      have hitems : List.Forall₂ (Yields read) ns l := by
        refine forall₂_of_zipIdx (forall₂_of_run_mapM ?_ hrun)
        exact fun e _ jumps a after hread => ⟨_, jumps, after, hread⟩
      obtain ⟨hlength, hget⟩ := List.forall₂_iff_get.mp hitems
      obtain ⟨hi, rfl⟩ := List.getElem?_eq_some_iff.mp ha
      have hi' : i < ns.length := hlength ▸ hi
      exact ⟨ns[i], List.getElem?_eq_getElem hi', hget i hi' hi⟩
  | mapping p es => cases hrun
  | «alias» => cases halias
  | cut => cases hrun

/-- The entries of a mapping with the values that were given for them. -/
theorem forall₂_of_yields_named {p : Yaml.Props} {es : List (Node × Node)}
    (halias : (Node.mapping p es).hasAlias = false) {l : List (String × α)}
    (h : Yields (named read) (.mapping p es) l) :
    List.Forall₂ (fun (e : Node × Node) a => e.1.text? = some a.1 ∧ Yields read e.2 a.2) es l := by
  obtain ⟨ctx, jumps, after, hrun⟩ := h
  rw [named_mapping] at hrun
  obtain ⟨inner, hrun⟩ := run_enter (run_placed_eq_ok.mp hrun)
  refine forall₂_of_run_mapM (fun e he jumps a after hentry => ?_) hrun
  obtain ⟨name, _, hname, hentry⟩ := run_bind_eq_ok.mp hentry
  obtain ⟨v, _, hv, ha⟩ := run_bind_eq_ok.mp hentry
  cases ha
  exact ⟨(text?_of_run_textOf (Node.hasAlias_entry halias e he).1 hname).1, _, _, _, hv⟩

theorem filterMap_text?_eq {es : List (Node × Node)} {l : List (String × α)}
    {P : Node × Node → String × α → Prop}
    (h : List.Forall₂ (fun (e : Node × Node) a => e.1.text? = some a.1 ∧ P e a) es l) :
    es.filterMap (·.1.text?) = l.map Prod.fst := by
  induction h with
  | nil => rfl
  | @cons e a es l he _ ih =>
      rw [List.filterMap_cons_some (f := fun e : Node × Node => e.1.text?) he.1, ih, List.map_cons]

theorem find?_of_forall₂ {es : List (Node × Node)} {l : List (String × α)}
    {P : Node × Node → String × α → Prop}
    (h : List.Forall₂ (fun (e : Node × Node) a => e.1.text? = some a.1 ∧ P e a) es l) {name : String}
    {a : String × α} (ha : l.find? (·.1 == name) = some a) :
    ∃ e, es.find? (·.1.text? == some name) = some e ∧ P e a := by
  induction h with
  | nil => cases ha
  | @cons e b es l he _ ih =>
      rw [List.find?_cons] at ha ⊢
      rw [he.1]
      by_cases hname : b.1 = name
      · rw [beq_iff_eq.mpr hname] at ha
        cases ha
        exact ⟨e, by simp [hname], he.2⟩
      · rw [beq_eq_false_iff_ne.mpr hname] at ha
        simpa [beq_eq_false_iff_ne.mpr hname] using ih ha

theorem yields_named_of_not_mapping (halias : node.hasAlias = false) {l : List (String × α)}
    (h : Yields (named read) node l) : (∃ p es, node = .mapping p es) ∨ (node.names = [] ∧ l = []) := by
  obtain ⟨ctx, jumps, after, hrun⟩ := h
  cases node with
  | mapping p es => exact .inl ⟨p, es, rfl⟩
  | scalar p style s =>
      have hrun := run_placed_eq_ok.mp hrun
      dsimp only at hrun
      split at hrun
      · cases hrun
        exact .inr ⟨rfl, rfl⟩
      · cases hrun
  | sequence p ns => cases hrun
  | «alias» => cases halias
  | cut => cases hrun

/-- Names are kept in their order. -/
theorem names_of_yields (halias : node.hasAlias = false) {l : List (String × α)}
    (h : Yields (named read) node l) : (Registry.ofList l).names = node.names.eraseDups := by
  rw [Registry.names_ofList]
  rcases yields_named_of_not_mapping halias h with ⟨p, es, rfl⟩ | ⟨hnames, rfl⟩
  · rw [Node.names, filterMap_text?_eq (forall₂_of_yields_named halias h)]
  · rw [hnames]
    rfl

/-- A value was given for the node that stands last under its name. -/
theorem yields_value (halias : node.hasAlias = false) {l : List (String × α)}
    (h : Yields (named read) node l) {name : String} {a : α}
    (ha : (Registry.ofList l).get? name = some a) :
    ∃ n, node.valueOf? name = some n ∧ Yields read n a := by
  rcases yields_named_of_not_mapping halias h with ⟨p, es, rfl⟩ | ⟨-, rfl⟩
  · rw [Registry.get?_ofList] at ha
    obtain ⟨⟨found, a⟩, hfound, rfl⟩ := Option.map_eq_some_iff.mp ha
    have hentries := List.forall₂_reverse_iff.mpr (forall₂_of_yields_named halias h)
    obtain ⟨e, he, hread⟩ := find?_of_forall₂ hentries hfound
    exact ⟨e.2, Option.map_eq_some_iff.mpr ⟨e, he, rfl⟩, hread⟩
  · cases ha

/-! ## Fields -/

/-- Reading the field leaves a part of the record as it is. -/
def RecordField.Preserves (field : RecordField δ) (get : δ → γ) : Prop :=
  ∀ ctx node jumps d d' after, (field.read ctx node d).run jumps = .ok (d', after) → get d' = get d

theorem preserves_of {name : String} {set : δ → α → δ} {get : δ → γ} (h : ∀ d a, get (set d a) = get d) :
    (RecordField.of name read set).Preserves get := by
  intro ctx node jumps d d' after hrun
  obtain ⟨a, _, -, hd⟩ := run_bind_eq_ok.mp hrun
  cases hd
  exact h d a

section Fields

variable {fields : List (RecordField δ)} {name : String} {set : δ → α → δ} {get : δ → γ} {put : α → γ}

/-- An entry gives the field of its name and leaves all others. -/
theorem field_of_run_entry (hfield : fields.find? (·.name == name) = some (.of name read set))
    (hput : ∀ d a, get (set d a) = put a)
    (hothers : ∀ field ∈ fields, field.name ≠ name → field.Preserves get) {ctx : Context}
    {e : Node × Node} (halias : e.1.hasAlias = false) {seen seen' : List String} {d d' : δ}
    {jumps after : Nat}
    (hrun : (readField fields ctx (seen, d) e).run jumps = .ok ((seen', d'), after)) :
    ∃ found, e.1.text? = some found ∧
      (found = name → ∃ a, Yields read e.2 a ∧ get d' = put a) ∧
      (found ≠ name → get d' = get d) := by
  obtain ⟨found, _, hfound, hrun⟩ := run_bind_eq_ok.mp hrun
  obtain ⟨hkey, -⟩ := text?_of_run_textOf halias hfound
  refine ⟨found, hkey, ?_⟩
  split at hrun
  · rename_i hunknown
    obtain ⟨_, _, -, hd⟩ := run_bind_eq_ok.mp hrun
    cases hd
    refine ⟨?_, fun _ => rfl⟩
    rintro rfl
    rw [hfield] at hunknown
    cases hunknown
  · rename_i field hknown
    split at hrun
    · cases hrun
    · obtain ⟨_, _, hread, hd⟩ := run_bind_eq_ok.mp hrun
      cases hd
      constructor
      · rintro rfl
        obtain rfl := Option.some.inj (hfield.symm.trans hknown)
        obtain ⟨a, _, ha, hd⟩ := run_bind_eq_ok.mp hread
        cases hd
        exact ⟨a, ⟨_, _, _, ha⟩, hput _ a⟩
      · intro hname
        have hfirst : field.name = found := by simpa using List.find?_some hknown
        have hother : field.name ≠ name := hfirst ▸ hname
        exact hothers field (List.mem_of_find?_eq_some hknown) hother _ _ _ _ _ _ hread

theorem field_of_run_entries (hfield : fields.find? (·.name == name) = some (.of name read set))
    (hput : ∀ d a, get (set d a) = put a)
    (hothers : ∀ field ∈ fields, field.name ≠ name → field.Preserves get) {ctx : Context}
    {p : Yaml.Props} {es : List (Node × Node)} (halias : (Node.mapping p es).hasAlias = false)
    {seen seen' : List String} {d d' : δ} {jumps after : Nat}
    (hrun : (es.foldlM (readField fields ctx) (seen, d)).run jumps = .ok ((seen', d'), after)) :
    (∃ n a, (Node.mapping p es).valueOf? name = some n ∧ Yields read n a ∧ get d' = put a) ∨
      ((Node.mapping p es).valueOf? name = none ∧ get d' = get d) := by
  -- a later entry under another name changes nothing, so the induction is on the last entry
  induction es using List.reverseRecOn generalizing seen' d' after with
  | nil =>
      cases hrun
      exact .inr ⟨rfl, rfl⟩
  | append_singleton es e ih =>
      have hentries := Node.hasAlias_entry halias
      have hbefore : (Node.mapping p es).hasAlias = false := by
        rw [Node.hasAlias, Node.hasAliasEntries_eq_any] at halias ⊢
        simp only [List.any_append, Bool.or_eq_false_iff] at halias
        exact halias.1
      rw [List.foldlM_append] at hrun
      obtain ⟨⟨between, d₁⟩, _, hrun, hlast⟩ := run_bind_eq_ok.mp hrun
      rw [List.foldlM_cons] at hlast
      obtain ⟨state, _, hlast, hstate⟩ := run_bind_eq_ok.mp hlast
      cases hstate
      obtain ⟨found, hkey, hgives, hleaves⟩ :=
        field_of_run_entry hfield hput hothers (hentries e (by simp)).1 hlast
      by_cases hname : found = name
      · obtain ⟨a, ha, hd⟩ := hgives hname
        exact .inl ⟨e.2, a, by simp [Node.valueOf?, hkey, hname], ha, hd⟩
      · have hvalueOf : (Node.mapping p (es ++ [e])).valueOf? name =
            (Node.mapping p es).valueOf? name := by
          simp [Node.valueOf?, hkey, hname]
        rw [hvalueOf, hleaves hname]
        exact ih hbefore hrun

/-- A field was given for its value, or it has the value it started with. -/
theorem yields_field (name : String) (get : δ → γ) (put : α → γ)
    (hfield : fields.find? (·.name == name) = some (.of name read set))
    (hput : ∀ d a, get (set d a) = put a)
    (hothers : ∀ field ∈ fields, field.name ≠ name → field.Preserves get) {typeName : String}
    {needed : List String} {start d : δ} (halias : node.hasAlias = false)
    (h : Yields (record typeName fields needed start) node d) :
    (∃ n a, node.valueOf? name = some n ∧ Yields read n a ∧ get d = put a) ∨
      (node.valueOf? name = none ∧ get d = get start) := by
  obtain ⟨ctx, jumps, after, hrun⟩ := h
  cases node with
  | scalar p style s =>
      have hrun := run_placed_eq_ok.mp hrun
      dsimp only at hrun
      split at hrun
      · split at hrun
        · cases hrun
        · cases hrun
          exact .inr ⟨rfl, rfl⟩
      · cases hrun
  | mapping p es =>
      obtain ⟨inner, hrun⟩ := run_enter (run_placed_eq_ok.mp hrun)
      obtain ⟨⟨seen, d'⟩, _, hrun, hfinish⟩ := run_bind_eq_ok.mp hrun
      dsimp only at hfinish
      split at hfinish
      · cases hfinish
      · cases hfinish
        exact field_of_run_entries hfield hput hothers halias hrun
  | sequence p ns => cases hrun
  | «alias» => cases halias
  | cut => cases hrun

end Fields

end Decoding

end ContractAudit
