/-!
# Registries

A registry keeps values under names. Each name occurs once; entries stand in the order in which
their names were first entered, and entering a name again replaces its value in place. That the
names differ is part of the type, so no operation has to ask for it.
-/

namespace ContractAudit

/-- Replaces the value under a name, or adds the name at the end. -/
def insertEntry {α : Type} (name : String) (value : α) : List (String × α) → List (String × α)
  | [] => [(name, value)]
  | (n, v) :: rest => if n = name then (name, value) :: rest else (n, v) :: insertEntry name value rest

theorem names_insertEntry {α : Type} (name : String) (value : α) (l : List (String × α)) :
    (insertEntry name value l).map Prod.fst =
      if name ∈ l.map Prod.fst then l.map Prod.fst else l.map Prod.fst ++ [name] := by
  induction l with
  | nil => simp [insertEntry]
  | cons e rest ih =>
    obtain ⟨n, v⟩ := e
    by_cases h : n = name
    · subst h
      simp [insertEntry]
    · have h' : ¬ name = n := fun e => h e.symm
      simp only [insertEntry, h, if_false, List.map_cons, ih, List.mem_cons, h', false_or]
      split <;> simp

/-- Values under distinct names, in order of first entry. -/
structure Registry (α : Type) where
  entries : List (String × α)
  nodup : (entries.map Prod.fst).Nodup
  deriving DecidableEq

namespace Registry

variable {α : Type}

@[ext] theorem ext {r s : Registry α} (h : r.entries = s.entries) : r = s := by
  cases r; cases s; cases h; rfl

def empty : Registry α := ⟨[], by simp⟩

instance : Inhabited (Registry α) := ⟨empty⟩

def insert (r : Registry α) (name : String) (value : α) : Registry α where
  entries := insertEntry name value r.entries
  nodup := by
    rw [names_insertEntry]
    split
    · exact r.nodup
    · rename_i h
      refine List.nodup_append.2 ⟨r.nodup, by simp, ?_⟩
      intro a ha b hb
      rw [List.mem_singleton] at hb
      subst hb
      exact fun e => h (e ▸ ha)

def ofList (l : List (String × α)) : Registry α := l.foldl (fun r e => r.insert e.1 e.2) empty

def names (r : Registry α) : List String := r.entries.map Prod.fst

def values (r : Registry α) : List α := r.entries.map Prod.snd

def get? (r : Registry α) (name : String) : Option α := r.entries.lookup name

def contains (r : Registry α) (name : String) : Bool := r.entries.any fun e => e.1 == name

def size (r : Registry α) : Nat := r.entries.length

/-- The other entries, in their order. -/
def erase (r : Registry α) (name : String) : Registry α where
  entries := r.entries.filter fun e => e.1 != name
  nodup := List.Nodup.sublist (List.filter_sublist.map Prod.fst) r.nodup

/-- The same names with other values. -/
def map {β : Type} (f : α → β) (r : Registry α) : Registry β where
  entries := r.entries.map fun e => (e.1, f e.2)
  nodup := by
    rw [List.map_map]
    exact r.nodup

@[simp] theorem entries_empty : (empty : Registry α).entries = [] := rfl

theorem contains_iff {r : Registry α} {name : String} : r.contains name = true ↔ name ∈ r.names := by
  simp [contains, names]

theorem contains_eq_isSome (r : Registry α) (name : String) :
    r.contains name = (r.get? name).isSome := by
  obtain ⟨l, h⟩ := r
  simp only [contains, get?]
  clear h
  induction l with
  | nil => rfl
  | cons e rest ih =>
    obtain ⟨n, v⟩ := e
    by_cases hn : name = n
    · subst hn
      simp
    · have hn' : (name == n) = false := by simpa using hn
      have hn'' : (n == name) = false := by simpa using fun e : n = name => hn e.symm
      simp [List.lookup_cons, hn', hn'', ih]

/-! ## Entries under other names -/

theorem filter_insertEntry (name : String) (value : α) (l : List (String × α)) :
    (insertEntry name value l).filter (fun e => e.1 != name) =
      l.filter (fun e => e.1 != name) := by
  induction l with
  | nil => simp [insertEntry]
  | cons e rest ih =>
      obtain ⟨n, v⟩ := e
      by_cases h : n = name
      · subst h
        simp [insertEntry]
      · simp [insertEntry, h, ih]

theorem lookup_filter_ne {name other : String} (h : other ≠ name) (l : List (String × α)) :
    (l.filter fun e => e.1 != name).lookup other = l.lookup other := by
  induction l with
  | nil => rfl
  | cons e rest ih =>
      obtain ⟨n, v⟩ := e
      by_cases hn : n = name
      · subst hn
        have hother : (other == n) = false := by simpa using h
        simp [List.lookup_cons, hother, ih]
      · simp [hn, List.lookup_cons, ih]

/-- Entries that agree outside a name give every other name the same value. -/
theorem get?_eq_of_filter_eq {r s : Registry α} {name other : String} (h : other ≠ name)
    (hrs : (s.entries.filter fun e => e.1 != name) = r.entries.filter fun e => e.1 != name) :
    s.get? other = r.get? other := by
  unfold get?
  rw [← lookup_filter_ne h r.entries, ← lookup_filter_ne h s.entries, hrs]

theorem get?_map {β : Type} (f : α → β) (r : Registry α) (name : String) :
    (r.map f).get? name = (r.get? name).map f := by
  obtain ⟨l, h⟩ := r
  simp only [map, get?]
  clear h
  induction l with
  | nil => rfl
  | cons e rest ih =>
      rw [List.map_cons, List.lookup_cons, List.lookup_cons, ih]
      cases name == e.1 <;> rfl

theorem mem_of_get? {r : Registry α} {name : String} {value : α} (h : r.get? name = some value) :
    (name, value) ∈ r.entries := by
  obtain ⟨before, behind, hsplit, -⟩ := List.lookup_eq_some_iff.mp h
  rw [hsplit]
  simp

theorem get?_eq_some_iff {r : Registry α} {name : String} {value : α} :
    r.get? name = some value ↔ (name, value) ∈ r.entries := by
  refine ⟨mem_of_get?, fun h => ?_⟩
  obtain ⟨before, behind, hsplit⟩ := List.append_of_mem h
  refine List.lookup_eq_some_iff.mpr ⟨before, behind, hsplit, fun e he => ?_⟩
  have hnodup := r.nodup
  rw [hsplit, List.map_append, List.map_cons, List.nodup_append] at hnodup
  have hne : e.1 ≠ name := hnodup.2.2 e.1 (List.mem_map_of_mem he) name List.mem_cons_self
  simpa using Ne.symm hne

/-- The order of the entries is of no matter to a lookup. -/
theorem get?_eq_of_perm {r s : Registry α} (h : s.entries.Perm r.entries) (name : String) :
    s.get? name = r.get? name := by
  cases hr : r.get? name with
  | some value => exact get?_eq_some_iff.mpr (h.mem_iff.mpr (get?_eq_some_iff.mp hr))
  | none =>
      rw [Option.eq_none_iff_forall_not_mem] at hr ⊢
      intro value hs
      exact hr value (get?_eq_some_iff.mpr (h.mem_iff.mp (get?_eq_some_iff.mp hs)))

end Registry

end ContractAudit
