/-!
# Cutting texts

Cuts at the first or last place where something stands, substring search, and joining. Each cut
gives the two parts without the separator, so putting the separator back between them restores the
text; the lemmas say so.
-/

namespace ContractAudit.Text

/-- The parts before and after the first character that satisfies `p`. -/
def cutFirst (p : Char → Bool) : List Char → Option (List Char × List Char)
  | [] => none
  | c :: cs => if p c then some ([], cs) else (cutFirst p cs).map fun (a, b) => (c :: a, b)

/-- The parts before and after the last character that satisfies `p`. -/
def cutLast (p : Char → Bool) : List Char → Option (List Char × List Char)
  | [] => none
  | c :: cs =>
    match cutLast p cs with
    | some (a, b) => some (c :: a, b)
    | none => if p c then some ([], cs) else none

/-- The parts before and after the last place where `sep` stands. -/
def cutLastAt (sep : List Char) : List Char → Option (List Char × List Char)
  | [] => none
  | c :: cs =>
    match cutLastAt sep cs with
    | some (a, b) => some (c :: a, b)
    | none => if sep.isPrefixOf (c :: cs) then some ([], (c :: cs).drop sep.length) else none

def occursIn (needle : List Char) : List Char → Bool
  | [] => needle.isEmpty
  | c :: cs => needle.isPrefixOf (c :: cs) || occursIn needle cs

def contains (s needle : String) : Bool := occursIn needle.toList s.toList

/-- The pieces of a text between the characters equal to `sep`, the empty ones included. -/
def splitAtEach (sep : Char) (s : List Char) : List (List Char) :=
  s.foldr (fun c parts =>
    match parts with
    | [] => if c = sep then [[], []] else [[c]]
    | p :: ps => if c = sep then [] :: p :: ps else (c :: p) :: ps) [[]]

/-- The texts one after the other with `sep` between neighbours. -/
def joinWith (sep : String) (parts : List String) : String := sep.intercalate parts

theorem cutFirst_eq_some {p : Char → Bool} {s a b : List Char} (h : cutFirst p s = some (a, b)) :
    ∃ c, p c = true ∧ (∀ x ∈ a, p x = false) ∧ s = a ++ c :: b := by
  induction s generalizing a b with
  | nil => simp [cutFirst] at h
  | cons d ds ih =>
    by_cases hd : p d = true
    · simp only [cutFirst, hd, if_true, Option.some.injEq, Prod.mk.injEq] at h
      obtain ⟨rfl, rfl⟩ := h
      exact ⟨d, hd, by simp, by simp⟩
    · simp only [cutFirst, hd, Bool.false_eq_true, if_false, Option.map_eq_some_iff] at h
      obtain ⟨⟨a', b'⟩, h', heq⟩ := h
      simp only [Prod.mk.injEq] at heq
      obtain ⟨rfl, rfl⟩ := heq
      obtain ⟨c, hc, ha, rfl⟩ := ih h'
      refine ⟨c, hc, ?_, rfl⟩
      intro x hx
      rcases List.mem_cons.1 hx with rfl | hx
      · simpa using hd
      · exact ha x hx

theorem cutFirst_eq_none_iff {p : Char → Bool} {s : List Char} :
    cutFirst p s = none ↔ ∀ x ∈ s, p x = false := by
  induction s with
  | nil => simp [cutFirst]
  | cons d ds ih =>
    by_cases hd : p d = true <;> simp [cutFirst, hd, ih]

theorem cutLast_eq_none_iff {p : Char → Bool} {s : List Char} :
    cutLast p s = none ↔ ∀ x ∈ s, p x = false := by
  induction s with
  | nil => simp [cutLast]
  | cons d ds ih =>
    cases h : cutLast p ds with
    | none =>
      have hall := ih.1 h
      by_cases hd : p d = true
      · simp [cutLast, h, hd]
      · simpa [cutLast, h, hd] using hall
    | some ab =>
      have hn : ¬ ∀ x ∈ ds, p x = false := fun hall => by simp [ih.2 hall] at h
      constructor
      · intro h'
        simp [cutLast, h] at h'
      · intro hall
        exact absurd (fun x hx => hall x (List.mem_cons_of_mem _ hx)) hn

theorem cutLast_eq_some {p : Char → Bool} {s a b : List Char} (h : cutLast p s = some (a, b)) :
    ∃ c, p c = true ∧ (∀ x ∈ b, p x = false) ∧ s = a ++ c :: b := by
  induction s generalizing a b with
  | nil => simp [cutLast] at h
  | cons d ds ih =>
    cases hc : cutLast p ds with
    | some ab =>
      obtain ⟨a', b'⟩ := ab
      simp only [cutLast, hc, Option.some.injEq, Prod.mk.injEq] at h
      obtain ⟨rfl, rfl⟩ := h
      obtain ⟨c, h1, h2, rfl⟩ := ih hc
      exact ⟨c, h1, h2, rfl⟩
    | none =>
      by_cases hd : p d = true
      · simp only [cutLast, hc, hd, if_true, Option.some.injEq, Prod.mk.injEq] at h
        obtain ⟨rfl, rfl⟩ := h
        exact ⟨d, hd, cutLast_eq_none_iff.1 hc, by simp⟩
      · simp [cutLast, hc, hd] at h

/-- A text is cut at a place that satisfies `p` if none behind it does. -/
theorem cutLast_append {p : Char → Bool} {c : Char} {b : List Char} (hc : p c = true)
    (hb : ∀ x ∈ b, p x = false) (a : List Char) : cutLast p (a ++ c :: b) = some (a, b) := by
  induction a with
  | nil => simp [cutLast, cutLast_eq_none_iff.2 hb, hc]
  | cons d a ih => simp [cutLast, ih]

/-- A text is cut at a separator unless none stands in it. -/
theorem cutLastAt_eq_none_iff {sep : List Char} (hsep : sep ≠ []) {s : List Char} :
    cutLastAt sep s = none ↔ ¬ sep <:+: s := by
  induction s with
  | nil => simpa [cutLastAt, List.infix_nil] using hsep
  | cons c cs ih =>
    rw [List.infix_cons_iff, not_or, ← ih, ← List.isPrefixOf_iff_prefix]
    cases hcut : cutLastAt sep cs <;> simp [cutLastAt, hcut]

/-- A cut is at a separator, and none stands behind it. -/
theorem cutLastAt_eq_some {sep s a b : List Char} (hsep : sep ≠ [])
    (h : cutLastAt sep s = some (a, b)) : s = a ++ sep ++ b ∧ ¬ sep <:+: b := by
  induction s generalizing a b with
  | nil => simp [cutLastAt] at h
  | cons c cs ih =>
    cases hcut : cutLastAt sep cs with
    | some cut =>
      simp only [cutLastAt, hcut, Option.some.injEq, Prod.mk.injEq] at h
      obtain ⟨rfl, rfl⟩ := h
      obtain ⟨hcs, hb⟩ := ih hcut
      exact ⟨by rw [hcs]; rfl, hb⟩
    | none =>
      simp only [cutLastAt, hcut] at h
      split at h
      · rename_i hprefix
        simp only [Option.some.injEq, Prod.mk.injEq] at h
        obtain ⟨rfl, rfl⟩ := h
        obtain ⟨rest, hrest⟩ := List.isPrefixOf_iff_prefix.mp hprefix
        rw [← hrest, List.drop_left]
        refine ⟨rfl, ?_⟩
        intro hbehind
        -- The separator is not empty, so what is behind it is behind the first character.
        have hsuffix : rest <:+ cs := by
          cases sep with
          | nil => exact absurd rfl hsep
          | cons d ds =>
            rw [List.cons_append, List.cons.injEq] at hrest
            exact ⟨ds, hrest.2⟩
        exact (cutLastAt_eq_none_iff hsep).mp hcut (hbehind.trans hsuffix.isInfix)
      · cases h

/-- A text is cut at a separator if none begins behind where it begins. -/
theorem cutLastAt_append {sep b : List Char} {c : Char} (h : ¬ (c :: sep) <:+: sep ++ b)
    (a : List Char) : cutLastAt (c :: sep) (a ++ (c :: sep ++ b)) = some (a, b) := by
  have hnone : cutLastAt (c :: sep) (sep ++ b) = none :=
    (cutLastAt_eq_none_iff (List.cons_ne_nil _ _)).mpr h
  induction a with
  | nil => simp [cutLastAt, hnone]
  | cons d a ih =>
    rw [List.cons_append] at ih
    simp [cutLastAt, ih]

/-- A text is found exactly if it stands somewhere in the other. -/
theorem occursIn_iff {needle s : List Char} : occursIn needle s = true ↔ needle <:+: s := by
  induction s with
  | nil => simp [occursIn]
  | cons c cs ih =>
    unfold occursIn
    rw [Bool.or_eq_true, ih, List.isPrefixOf_iff_prefix, List.infix_cons_iff]

theorem splitAtEach_ne_nil (sep : Char) (s : List Char) : splitAtEach sep s ≠ [] := by
  cases s with
  | nil => simp [splitAtEach]
  | cons c s =>
    rw [splitAtEach, List.foldr_cons]
    split <;> split <;> simp

theorem splitAtEach_sep_cons (sep : Char) (s : List Char) :
    splitAtEach sep (sep :: s) = [] :: splitAtEach sep s := by
  obtain ⟨p, ps, h⟩ := List.exists_cons_of_ne_nil (splitAtEach_ne_nil sep s)
  rw [h]
  unfold splitAtEach at h ⊢
  rw [List.foldr_cons, h]
  simp

theorem splitAtEach_cons {sep c : Char} (hc : c ≠ sep) {s p : List Char} {ps : List (List Char)}
    (h : splitAtEach sep s = p :: ps) : splitAtEach sep (c :: s) = (c :: p) :: ps := by
  unfold splitAtEach at h ⊢
  rw [List.foldr_cons, h]
  simp [hc]

/-- A separator ends one piece and opens the next. -/
theorem splitAtEach_append (sep : Char) (a b : List Char) :
    splitAtEach sep (a ++ sep :: b) = splitAtEach sep a ++ splitAtEach sep b := by
  induction a with
  | nil => exact splitAtEach_sep_cons sep b
  | cons c a ih =>
    by_cases hc : c = sep
    · subst hc
      rw [List.cons_append, splitAtEach_sep_cons, splitAtEach_sep_cons, ih, List.cons_append]
    · obtain ⟨p, ps, h⟩ := List.exists_cons_of_ne_nil (splitAtEach_ne_nil sep a)
      rw [h, List.cons_append] at ih
      rw [List.cons_append, splitAtEach_cons hc ih, splitAtEach_cons hc h, List.cons_append]

theorem splitAtEach_of_notMem {sep : Char} {s : List Char} (h : sep ∉ s) :
    splitAtEach sep s = [s] := by
  induction s with
  | nil => rfl
  | cons c s ih =>
    rw [List.mem_cons, not_or] at h
    exact splitAtEach_cons (Ne.symm h.1) (ih h.2)

end ContractAudit.Text
