import ContractAudit.Proofs.Text.OneLine

/-!
# Colour over texts

A colour sequence is an escape, an opening bracket, digits and semicolons, and an `m`. Taking all of
them out of a coloured text leaves the plain one (`IsOverlay`): the texts between the sequences hold
no escape, so none of them can begin a sequence or become part of one, and texts that lie over others
may be put together piece by piece.
-/

namespace ContractAudit

namespace Text

/-- The character that begins a colour sequence. -/
def escape : Char := '\x1b'

def isColourCode (c : Char) : Bool := c.isDigit || c == ';'

/-- What stands behind the codes of a colour sequence and the `m` that ends it. -/
def behindCodes? : List Char → Option (List Char)
  | [] => none
  | c :: s => if c = 'm' then some s else if isColourCode c then behindCodes? s else none

/-- What stands behind the colour sequence that a text begins with, if it begins with one. -/
def behindColour? : List Char → Option (List Char)
  | c :: '[' :: s => if c = escape then behindCodes? s else none
  | _ => none

theorem length_behindCodes? {s rest : List Char} (h : behindCodes? s = some rest) :
    rest.length < s.length := by
  induction s with
  | nil => cases h
  | cons c s ih =>
      rw [behindCodes?] at h
      split at h
      · cases h
        exact Nat.lt_succ_self _
      · split at h
        · exact Nat.lt_succ_of_lt (ih h)
        · cases h

theorem length_behindColour? {s rest : List Char} (h : behindColour? s = some rest) :
    rest.length < s.length := by
  unfold behindColour? at h
  split at h
  · split at h
    · have hlength := length_behindCodes? h
      simp only [List.length_cons]
      omega
    · cases h
  · cases h

/-- A text without its colour sequences. -/
def stripColour (s : List Char) : List Char :=
  match s with
  | [] => []
  | c :: s' =>
    match h : behindColour? (c :: s') with
    | some rest =>
      have := length_behindColour? h
      stripColour rest
    | none => c :: stripColour s'
termination_by s.length
decreasing_by
  · assumption
  · exact Nat.lt_succ_self _

theorem stripColour_of_colour {s rest : List Char} (h : behindColour? s = some rest) :
    stripColour s = stripColour rest := by
  cases s with
  | nil => cases h
  | cons c s =>
      rw [stripColour]
      split
      · rename_i rest' hrest
        rw [h] at hrest
        cases hrest
        rfl
      · rename_i hnone
        rw [h] at hnone
        cases hnone

theorem stripColour_cons {c : Char} (hc : c ≠ escape) (s : List Char) :
    stripColour (c :: s) = c :: stripColour s := by
  have hnone : behindColour? (c :: s) = none := by
    unfold behindColour?
    split
    · rename_i heq
      rw [← (List.cons.inj heq).1, if_neg hc]
    · rfl
  rw [stripColour]
  split
  · rename_i rest hrest
    rw [hnone] at hrest
    cases hrest
  · rfl

/-- What holds no escape is kept, whatever follows it. -/
theorem stripColour_append {s : List Char} (h : escape ∉ s) (rest : List Char) :
    stripColour (s ++ rest) = s ++ stripColour rest := by
  induction s with
  | nil => rfl
  | cons c s ih =>
      rw [List.mem_cons, not_or] at h
      rw [List.cons_append, stripColour_cons (Ne.symm h.1), ih h.2, List.cons_append]

theorem behindCodes?_append {codes : List Char} (h : codes.all isColourCode = true)
    (rest : List Char) : behindCodes? (codes ++ 'm' :: rest) = some rest := by
  induction codes with
  | nil => rfl
  | cons c codes ih =>
      rw [List.all_cons, Bool.and_eq_true] at h
      have hm : c ≠ 'm' := by
        rintro rfl
        exact absurd h.1 (by decide)
      rw [List.cons_append, behindCodes?, if_neg hm, if_pos h.1, ih h.2]

/-- A colour sequence is taken out, whatever follows it. -/
theorem stripColour_sequence {codes : List Char} (h : codes.all isColourCode = true)
    (rest : List Char) : stripColour (escape :: '[' :: codes ++ 'm' :: rest) = stripColour rest := by
  apply stripColour_of_colour
  show (if escape = escape then behindCodes? (codes ++ 'm' :: rest) else none) = some rest
  rw [if_pos rfl, behindCodes?_append h]

end Text

open Text (escape stripColour)

/-! ## Overlays -/

/-- The first text is the second, which holds no escape, with colour sequences put into it. What
follows on them is left open, so that such texts can be put together. -/
def IsOverlay (coloured plain : String) : Prop :=
  escape ∉ plain.toList ∧
    ∀ rest, stripColour (coloured.toList ++ rest) = plain.toList ++ stripColour rest

namespace IsOverlay

variable {s s' t t' : String}

theorem stripColour_eq (h : IsOverlay t s) : stripColour t.toList = s.toList := by
  have hstrip := h.2 []
  rwa [List.append_nil, stripColour, List.append_nil] at hstrip

theorem refl (h : escape ∉ s.toList) : IsOverlay s s := ⟨h, Text.stripColour_append h⟩

/-- A fixed text is looked through by evaluation. -/
theorem literal {cs : List Char} (h : cs.all (· != escape) = true) :
    IsOverlay (String.ofList cs) (String.ofList cs) := by
  apply refl
  rw [String.toList_ofList]
  intro hmem
  simpa using List.all_eq_true.mp h escape hmem

theorem append (h : IsOverlay t s) (h' : IsOverlay t' s') : IsOverlay (t ++ t') (s ++ s') := by
  constructor
  · rw [String.toList_append, List.mem_append]
    exact not_or.mpr ⟨h.1, h'.1⟩
  · intro rest
    rw [String.toList_append, String.toList_append, List.append_assoc, h.2, h'.2, List.append_assoc]

/-- A text between two fixed ones. -/
theorem enclosed {before behind : List Char} (h : IsOverlay t s)
    (hbefore : before.all (· != escape) = true) (hbehind : behind.all (· != escape) = true) :
    IsOverlay (String.ofList before ++ t ++ String.ofList behind)
      (String.ofList before ++ s ++ String.ofList behind) :=
  ((literal hbefore).append h).append (literal hbehind)

theorem repr_nat (n : Nat) : IsOverlay n.repr n.repr := by
  apply refl
  intro hmem
  have hdigit : escape ∈ Nat.toDigits 10 n := by simpa using hmem
  exact absurd (Nat.isDigit_of_mem_toDigits (by decide) (by decide) hdigit) (by decide)

theorem joinWith {sep : String} {parts : List String} (hsep : IsOverlay sep sep)
    (h : ∀ part ∈ parts, IsOverlay part part) :
    IsOverlay (Text.joinWith sep parts) (Text.joinWith sep parts) := by
  unfold Text.joinWith
  induction parts with
  | nil =>
      rw [String.intercalate_nil]
      exact literal rfl
  | cons part parts ih =>
      obtain ⟨hpart, hparts⟩ := List.forall_mem_cons.mp h
      cases parts with
      | nil => rwa [String.intercalate_singleton]
      | cons next parts =>
          rw [String.intercalate_cons_cons]
          exact (hpart.append hsep).append (ih hparts)

theorem of_nonBlank? (h : escape ∉ s.toList) (ht : Text.nonBlank? s = some t) : IsOverlay t t := by
  obtain ⟨-, rfl⟩ := Text.nonBlank?_eq_some_iff.mp ht
  apply refl
  rw [Text.trim, String.toList_ofList]
  exact fun hmem => h (Text.trimBoth_subset _ hmem)

/-- **Painting lays colour over a text.** -/
theorem paint {codes : String} (hcodes : codes.toList.all Text.isColourCode = true)
    (h : escape ∉ s.toList) : IsOverlay (Style.coloured.paint codes s) (Style.plain.paint codes s) := by
  refine ⟨h, fun rest => ?_⟩
  have htext : (Style.coloured.paint codes s).toList ++ rest =
      escape :: '[' :: codes.toList ++ 'm' :: (s.toList ++ (escape :: '[' :: ['0'] ++ 'm' :: rest)) := by
    simp [Style.paint, escape]
  rw [htext, Text.stripColour_sequence hcodes, Text.stripColour_append h,
    Text.stripColour_sequence (by decide)]
  rfl

/-- Lines that lie over others make a text that lies over theirs. -/
theorem linesText {ts ss : List String} (h : List.Forall₂ IsOverlay ts ss) :
    IsOverlay (ContractAudit.linesText ts) (ContractAudit.linesText ss) := by
  induction h with
  | nil => exact literal rfl
  | cons hline _ ih =>
      unfold ContractAudit.linesText at ih ⊢
      rw [List.map_cons, List.map_cons, String.join_cons, String.join_cons]
      exact (hline.append (literal rfl)).append ih

end IsOverlay

end ContractAudit
