import ContractAudit.Decoding.FromJson
import ContractAudit.Proofs.Json.Canonical

/-!
# Reading canonical objects

A reader restores a value from what was written for it when it reads the canonical form of that as
the value again, held or not (`Restores`). The plain readers do so for the plain values, `items` for
a list of restored values, and a record when reading its fields in ascending order leads from the
empty record to the written one (`Leads`, `restores_record`).
-/

namespace ContractAudit.Decoding.FromJson

open Json (required ofFields ofNat ofStrings)

variable {α δ : Type}

/-- The value is read back from the canonical form of what was written. -/
def Restores (read : Reader α) (a : α) (j : Json) : Prop :=
  ∀ held, read held j.canonical = .ok a

theorem decode_canonical {read : Reader α} {a : α} {j : Json} (h : Restores read a j) :
    decode read j.canonical = .ok a := by
  unfold decode
  rw [Json.canonical_canonical, h]

/-! ## Plain values -/

theorem restores_text (s : String) : Restores text s (.string s) := fun _ => rfl

theorem restores_truth (b : Bool) : Restores truth b (.bool b) := fun _ => rfl

theorem restores_natural (expected : String) (n : Nat) : Restores (natural expected) n (ofNat n) := by
  intro held
  have hn : ¬ ((n : Int) < 0) := by omega
  simp [ofNat, Json.canonical, natural, hn]

theorem restores_orNull {read : Reader α} {a : α} {j : Json} (h : Restores read a j)
    (hne : j.canonical ≠ .null) : Restores (orNull read) (some a) j := by
  intro held
  have hread := h held
  unfold orNull
  split
  · contradiction
  · rw [hread]
    rfl

theorem mapM_map_of_forall {ε β γ : Type} {read : β → Except ε γ} {write : γ → β} {l : List γ}
    (h : ∀ a ∈ l, read (write a) = .ok a) : (l.map write).mapM read = .ok l := by
  induction l with
  | nil => rfl
  | cons a l ih =>
      obtain ⟨ha, hl⟩ := List.forall_mem_cons.mp h
      rw [List.map_cons, List.mapM_cons, ha, ih hl]
      rfl

theorem restores_items {read : Reader α} {write : α → Json} {l : List α}
    (h : ∀ a ∈ l, Restores read a (write a)) : Restores (items read) l (.array (l.map write)) := by
  intro held
  have hcanonical : (Json.array (l.map write)).canonical =
      .array (l.map fun a => (write a).canonical) := by
    rw [Json.canonical, Json.canonicalItems_eq_map, List.map_map]
    rfl
  rw [hcanonical]
  exact mapM_map_of_forall fun a ha => h a ha held

theorem bind_of_ok {ε β : Type} {x : Except ε α} {f : α → Except ε β} {a : α} {b : β}
    (h : x = .ok a) (hf : f a = .ok b) : (x >>= f) = .ok b := by
  rw [h]
  exact hf

theorem map_of_ok {ε β : Type} {x : Except ε α} {f : α → β} {a : α} (h : x = .ok a) :
    x.map f = .ok (f a) := by
  rw [h]
  rfl

/-! ## Records -/

/-- The written fields, those that were left out aside, with their canonical values. -/
def canonicalEntries (written : List (Option (String × Json))) : List (String × Json) :=
  Json.canonicalFields (written.filterMap id)

/-- Reading the canonical forms of the written fields leads from one record to another. -/
def Leads (fields : List (RecordField δ)) (held : Bool) (written : List (Option (String × Json)))
    (d e : δ) : Prop :=
  (canonicalEntries written).foldlM (readEntry fields held) d = .ok e

variable {fields : List (RecordField δ)} {held : Bool} {written : List (Option (String × Json))}
  {d d' e : δ}

theorem leads_nil : Leads fields held [] d d := rfl

theorem leads_absent (h : Leads fields held written d e) : Leads fields held (none :: written) d e := h

theorem readEntry_of_find {field : RecordField δ} {name : String} {j : Json}
    (hfield : fields.find? (·.name == name) = some field) :
    readEntry fields held d (name, j) = field.read held j d := by
  unfold readEntry
  rw [hfield]

theorem leads_field {field : RecordField δ} {name : String} {j : Json}
    (hfield : fields.find? (·.name == name) = some field)
    (hread : field.read held j.canonical d = .ok d') (h : Leads fields held written d' e) :
    Leads fields held (required name j :: written) d e := by
  have hentry : readEntry fields held d (name, j.canonical) = .ok d' := by
    rw [readEntry_of_find hfield, hread]
  have hstep : canonicalEntries (required name j :: written) =
      (name, j.canonical) :: canonicalEntries written := rfl
  unfold Leads
  rw [hstep, List.foldlM_cons, hentry]
  exact h

/-- A name that is no field is passed over. -/
theorem leads_unknown {name : String} {j : Json} (hfield : fields.find? (·.name == name) = none)
    (h : Leads fields held written d e) : Leads fields held (required name j :: written) d e := by
  have hentry : readEntry fields held d (name, j.canonical) = .ok d := by
    unfold readEntry
    rw [hfield]
  have hstep : canonicalEntries (required name j :: written) =
      (name, j.canonical) :: canonicalEntries written := rfl
  unfold Leads
  rw [hstep, List.foldlM_cons, hentry]
  exact h

theorem leads_needs {name : String} {read : Reader α} {set : δ → α → δ} {a : α} {j : Json}
    (hfield : fields.find? (·.name == name) = some (.needs name read set))
    (hread : Restores read a j) (h : Leads fields held written (set d a) e) :
    Leads fields held (required name j :: written) d e := by
  refine leads_field hfield ?_ h
  simp [RecordField.needs, hread held, Except.map]

/-- A field that was left out leaves the record as it is. -/
theorem leads_may {name : String} {read : Reader α} {set : δ → Option α → δ} {a : Option α}
    {write : α → Json}
    (hfield : fields.find? (·.name == name) = some (.may name (orNull read) set))
    (hnone : set d none = d) (hread : ∀ v, Restores (orNull read) (some v) (write v))
    (h : Leads fields held written (set d a) e) :
    Leads fields held (Json.optional name (a.map write) :: written) d e := by
  cases a with
  | none =>
      rw [hnone] at h
      exact h
  | some v =>
      refine leads_field hfield ?_ h
      simp [RecordField.may, RecordField.needs, hread v held, Except.map]

/-- Every field that must be there was written. -/
def Complete (fields : List (RecordField δ)) (written : List (Option (String × Json))) : Prop :=
  ∀ field ∈ fields, field.needed = true → ∃ j, required field.name j ∈ written

theorem lookup_isSome_of_mem {name : String} {j : Json} (h : required name j ∈ written) :
    ((canonicalEntries written).lookup name).isNone = false := by
  have hmem : (name, j.canonical) ∈ canonicalEntries written := by
    rw [canonicalEntries, Json.canonicalFields_eq_map]
    exact List.mem_map.mpr ⟨(name, j), List.mem_filterMap.mpr ⟨some (name, j), h, rfl⟩, rfl⟩
  cases hlookup : (canonicalEntries written).lookup name with
  | some v => rfl
  | none => simpa using List.lookup_eq_none_iff.mp hlookup (name, j.canonical) hmem

theorem ofEntries_canonicalEntries (h : Leads fields held written d e)
    (hcomplete : Complete fields written) :
    ofEntries fields d held (canonicalEntries written) = .ok e := by
  have hneeded : (fields.find? fun f => f.needed &&
      ((canonicalEntries written).lookup f.name).isNone) = none := by
    refine List.find?_eq_none.mpr fun field hmem => ?_
    by_cases hneeded : field.needed = true
    · obtain ⟨j, hj⟩ := hcomplete field hmem hneeded
      simp [lookup_isSome_of_mem hj]
    · simp [hneeded]
  unfold ofEntries
  rw [h]
  simp only [bind, Except.bind, hneeded]

theorem record_canonicalEntries {what : String} (h : Leads fields held written d e)
    (hcomplete : Complete fields written) :
    record what fields d held (.object (canonicalEntries written)) = .ok e :=
  ofEntries_canonicalEntries h hcomplete

/-- **A record is read back** if its written fields, in ascending order, lead to it. -/
theorem restores_record {what : String} {j : Json}
    (hsorted : j.canonical = .object (canonicalEntries written))
    (h : ∀ held, Leads fields held written d e) (hcomplete : Complete fields written) :
    Restores (record what fields d) e j := by
  intro held
  rw [hsorted]
  exact record_canonicalEntries (h held) hcomplete

/-- **A tagged record is read back** if its variant, named by the tag, gives it from the other
fields. -/
theorem restores_tagged (name : String) (written rest : List (Option (String × Json)))
    {typeName tag : String} {variants : List (String × Reader α)} {read : Reader α} {a : α} {j : Json}
    (hsorted : j.canonical = .object (canonicalEntries written))
    (htag : (canonicalEntries written).lookup tag = some (.string name))
    (hrest : (canonicalEntries written).filter (·.1 != tag) =
      canonicalEntries rest)
    (hvariant : variants.lookup name = some read)
    (h : read true (.object (canonicalEntries rest)) = .ok a) :
    Restores (tagged typeName tag variants) a j := by
  intro held
  have hread : variant variants held (.string name) = .ok read := by
    simp [variant, hvariant]
  rw [hsorted]
  unfold tagged
  simp only [htag, hread, hrest]
  exact h

end ContractAudit.Decoding.FromJson
