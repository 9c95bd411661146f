import ContractAudit.Proofs.Json.ReadingBack
import Mathlib.Data.List.Induction

/-!
# Canonical values

Entering fields one by one keeps a list of fields ascending (`ascending_insertField`), and an
ascending list is sorted already (`sortFields_of_ascending`). So the canonical form of a value is
its own canonical form (`canonical_canonical`): it is the form in which a value rests.
-/

namespace ContractAudit.Json

/-- The names ascend, so each of them occurs once. -/
def Ascending (fields : List (String × Json)) : Prop := fields.Pairwise fun a b => a.1 < b.1

/-! ## Entering fields -/

theorem mem_insertField {name : String} {value : Json} {fields : List (String × Json)}
    {f : String × Json} (h : f ∈ insertField name value fields) : f = (name, value) ∨ f ∈ fields := by
  induction fields with
  | nil => exact .inl (by simpa [insertField] using h)
  | cons e rest ih =>
      obtain ⟨n, v⟩ := e
      unfold insertField at h
      split at h
      · rcases List.mem_cons.mp h with h | h
        · exact .inl h
        · exact .inr (List.mem_cons_of_mem _ h)
      · split at h
        · exact List.mem_cons.mp h
        · rcases List.mem_cons.mp h with h | h
          · exact .inr (h ▸ List.mem_cons_self)
          · exact (ih h).imp_right (List.mem_cons_of_mem _)

theorem ascending_insertField {name : String} {value : Json} {fields : List (String × Json)}
    (h : Ascending fields) : Ascending (insertField name value fields) := by
  induction fields with
  | nil => simp [insertField, Ascending]
  | cons e rest ih =>
      obtain ⟨n, v⟩ := e
      obtain ⟨hhead, htail⟩ := List.pairwise_cons.mp h
      unfold insertField
      split
      · subst name
        exact List.pairwise_cons.mpr ⟨hhead, htail⟩
      · rename_i hne
        split
        · rename_i hlt
          refine List.pairwise_cons.mpr ⟨fun f hf => ?_, h⟩
          rcases List.mem_cons.mp hf with rfl | hf
          · exact hlt
          · exact String.lt_trans hlt (hhead f hf)
        · rename_i hnlt
          -- The new field goes further back, behind the first.
          have hlt : n < name := by
            refine Classical.byContradiction fun hge => hne ?_
            exact String.le_antisymm (String.not_lt.mp hge) (String.not_lt.mp hnlt)
          refine List.pairwise_cons.mpr ⟨fun f hf => ?_, ih htail⟩
          rcases mem_insertField hf with rfl | hf
          · exact hlt
          · exact hhead f hf

/-- A name above all others is entered last. -/
theorem insertField_of_above {name : String} {value : Json} {fields : List (String × Json)}
    (h : ∀ f ∈ fields, f.1 < name) : insertField name value fields = fields ++ [(name, value)] := by
  induction fields with
  | nil => rfl
  | cons e rest ih =>
      obtain ⟨n, v⟩ := e
      obtain ⟨hn, hrest⟩ := List.forall_mem_cons.mp h
      have hne : name ≠ n := fun heq => String.lt_irrefl n (heq ▸ hn)
      rw [insertField, if_neg hne, if_neg (String.lt_asymm hn), ih hrest, List.cons_append]

/-! ## Sorting fields -/

theorem sortFields_snoc (fields : List (String × Json)) (f : String × Json) :
    sortFields (fields ++ [f]) = insertField f.1 f.2 (sortFields fields) := by
  simp [sortFields]

theorem mem_sortFields {fields : List (String × Json)} {f : String × Json}
    (h : f ∈ sortFields fields) : f ∈ fields := by
  induction fields using List.reverseRecOn with
  | nil => exact h
  | append_singleton fields e ih =>
      rw [sortFields_snoc] at h
      rcases mem_insertField h with rfl | h
      · simp
      · exact List.mem_append_left _ (ih h)

theorem ascending_sortFields (fields : List (String × Json)) : Ascending (sortFields fields) := by
  induction fields using List.reverseRecOn with
  | nil => exact List.Pairwise.nil
  | append_singleton fields e ih =>
      rw [sortFields_snoc]
      exact ascending_insertField ih

theorem sortFields_of_ascending {fields : List (String × Json)} (h : Ascending fields) :
    sortFields fields = fields := by
  induction fields using List.reverseRecOn with
  | nil => rfl
  | append_singleton fields e ih =>
      obtain ⟨hfields, -, habove⟩ := List.pairwise_append.mp h
      rw [sortFields_snoc, ih hfields]
      exact insertField_of_above fun f hf => habove f hf e List.mem_cons_self

/-! ## Canonical values -/

theorem canonicalItems_eq_map (items : List Json) : canonicalItems items = items.map canonical := by
  induction items with
  | nil => rfl
  | cons v vs ih => rw [canonicalItems, ih, List.map_cons]

theorem canonicalFields_eq_map (fields : List (String × Json)) :
    canonicalFields fields = fields.map fun f => (f.1, f.2.canonical) := by
  induction fields with
  | nil => rfl
  | cons f fs ih => rw [canonicalFields, ih, List.map_cons]

theorem ascending_canonicalFields {fields : List (String × Json)} (h : Ascending fields) :
    Ascending (canonicalFields fields) := by
  rw [canonicalFields_eq_map]
  exact List.pairwise_map.mpr h

mutual

/-- **A canonical form is its own canonical form.** -/
theorem canonical_canonical : ∀ v : Json, v.canonical.canonical = v.canonical
  | .null | .bool _ | .number _ | .string _ => rfl
  | .array items => by
      simp only [canonical]
      rw [canonicalItems_eq_map (canonicalItems items),
        List.map_congr_left (canonical_of_mem_canonicalItems items), List.map_id']
  | .object fields => by
      have hfields : ∀ f ∈ sortFields (canonicalFields fields), (f.1, f.2.canonical) = f :=
        fun f hf => by rw [canonical_of_mem_canonicalFields fields f (mem_sortFields hf)]
      simp only [canonical]
      rw [canonicalFields_eq_map (sortFields (canonicalFields fields)),
        List.map_congr_left hfields, List.map_id', sortFields_of_ascending (ascending_sortFields _)]

theorem canonical_of_mem_canonicalItems : ∀ (items : List Json),
    ∀ v ∈ canonicalItems items, v.canonical = v
  | [] => fun _ h => nomatch h
  | v :: vs =>
      List.forall_mem_cons.mpr ⟨canonical_canonical v, canonical_of_mem_canonicalItems vs⟩

theorem canonical_of_mem_canonicalFields : ∀ (fields : List (String × Json)),
    ∀ f ∈ canonicalFields fields, f.2.canonical = f.2
  | [] => fun _ h => nomatch h
  | (_, v) :: fs =>
      List.forall_mem_cons.mpr ⟨canonical_canonical v, canonical_of_mem_canonicalFields fs⟩

end

/-- An object in canonical form has ascending fields, each with a canonical value. -/
theorem ascending_of_canonical {fields : List (String × Json)}
    (h : (object fields).canonical = .object fields) :
    Ascending fields ∧ ∀ f ∈ fields, f.2.canonical = f.2 := by
  rw [canonical, object.injEq] at h
  have hascending : Ascending fields := h ▸ ascending_sortFields _
  rw [sortFields_of_ascending (ascending_canonicalFields hascending)] at h
  refine ⟨hascending, fun f hf => ?_⟩
  rw [← h] at hf
  exact canonical_of_mem_canonicalFields fields f hf

theorem canonical_of_mem_items {items : List Json} (h : (array items).canonical = .array items) :
    ∀ v ∈ items, v.canonical = v := by
  rw [canonical, array.injEq] at h
  intro v hv
  rw [← h] at hv
  exact canonical_of_mem_canonicalItems items v hv

/-! ## Exact values -/

theorem areExact_iff {items : List Json} : areExact items = true ↔ ∀ v ∈ items, v.isExact = true := by
  induction items with
  | nil => simp [areExact]
  | cons v vs ih => rw [areExact, Bool.and_eq_true, ih, List.forall_mem_cons]

theorem haveExact_iff {fields : List (String × Json)} :
    haveExact fields = true ↔ ∀ f ∈ fields, f.2.isExact = true := by
  induction fields with
  | nil => simp [haveExact]
  | cons f fs ih =>
      obtain ⟨k, v⟩ := f
      rw [haveExact, Bool.and_eq_true, ih, List.forall_mem_cons]

theorem areExact_map {α : Type} {write : α → Json} {l : List α}
    (h : ∀ a ∈ l, (write a).isExact = true) : areExact (l.map write) = true :=
  areExact_iff.mpr (List.forall_mem_map.mpr h)

theorem forall_mem_required {p : String × Json → Prop} {name : String} {value : Json} :
    (∀ f ∈ required name value, p f) ↔ p (name, value) := by
  simp [required]

theorem forall_mem_optional {α : Type} {p : String × Json → Prop} {name : String} {write : α → Json}
    {value : Option α} :
    (∀ f ∈ optional name (value.map write), p f) ↔ ∀ a ∈ value, p (name, write a) := by
  cases value <;> simp [optional]

theorem isExact_ofFields {fields : List (Option (String × Json))}
    (h : ∀ field ∈ fields, ∀ f ∈ field, f.2.isExact = true) : (ofFields fields).isExact = true := by
  rw [ofFields, isExact]
  refine haveExact_iff.mpr fun f hf => ?_
  obtain ⟨field, hfield, rfl⟩ := List.mem_filterMap.mp hf
  exact h _ hfield f rfl

mutual

theorem isExact_canonical : ∀ {v : Json}, v.isExact = true → v.canonical.isExact = true
  | .null, h | .bool _, h | .number _, h | .string _, h => h
  | .array _, h => by
      rw [canonical, isExact]
      exact areExact_canonicalItems h
  | .object fields, h => by
      have hexact : haveExact (canonicalFields fields) = true := haveExact_canonicalFields h
      have hfields := haveExact_iff.mp hexact
      rw [canonical, isExact]
      exact haveExact_iff.mpr fun f hf => hfields f (mem_sortFields hf)

theorem areExact_canonicalItems : ∀ {items : List Json}, areExact items = true →
    areExact (canonicalItems items) = true
  | [], _ => rfl
  | _ :: _, h => by
      rw [areExact, Bool.and_eq_true] at h
      rw [canonicalItems, areExact, Bool.and_eq_true]
      exact ⟨isExact_canonical h.1, areExact_canonicalItems h.2⟩

theorem haveExact_canonicalFields : ∀ {fields : List (String × Json)}, haveExact fields = true →
    haveExact (canonicalFields fields) = true
  | [], _ => rfl
  | (_, _) :: _, h => by
      rw [haveExact, Bool.and_eq_true] at h
      rw [canonicalFields, haveExact, Bool.and_eq_true]
      exact ⟨isExact_canonical h.1, haveExact_canonicalFields h.2⟩

end

/-- **What is shown is read back in canonical form.** -/
theorem ofText?_pretty_canonical {v : Json} (h : v.isExact = true) :
    ofText? v.canonical.pretty = some v.canonical :=
  ofText?_pretty (isExact_canonical h)

end ContractAudit.Json
