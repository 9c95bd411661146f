import ContractAudit.Text.Blank
import ContractAudit.Text.CaseFold
import ContractAudit.Text.WordChar

/-!
# Case variants

A text is another one up to case if the two fold to the same characters, place by place
(`SameUpToCase`). Outside ASCII folding has only two surprises for names and keywords: the long s
and the Kelvin sign fold to ASCII letters, and nothing else does (`ascii_of_foldCase`). So a
case variant of a keyword begins with a word character (`isWordChar_of_foldCase`).
-/

namespace ContractAudit.Text

/-! ## Folding into ASCII -/

/-- Whether a character is one of the first 128. -/
def IsAscii (c : Char) : Prop := c.toNat < 128

def longS : Char := '\u017f'

def kelvinSign : Char := '\u212a'

theorem foldCase_of_isAscii {c : Char} (h : IsAscii c) : foldCase c = c.toLower := by
  unfold foldCase
  rw [if_pos]
  exact h

theorem toNat_ofNat {n : Nat} (h : n.isValidChar) : (Char.ofNat n).toNat = n := by
  unfold Char.ofNat
  rw [dif_pos h]
  rfl

/-- To show something of all ASCII characters it is enough to look at each of them. -/
theorem forall_ascii {P : Char → Prop} (h : ∀ n < 128, P (Char.ofNat n)) {c : Char}
    (hc : IsAscii c) : P c := by
  rw [← Char.ofNat_toNat c]
  exact h _ hc

/-- A run leads out of ASCII, to characters that exist, unless it is one of the two that lead a
single sign to a letter. -/
def FoldRun.LeavesAscii (r : FoldRun) : Prop :=
  (128 ≤ r.target ∧
    (r.target + (r.last - r.first) < 0xD800 ∨
      (0xDFFF < r.target ∧ r.target + (r.last - r.first) < 0x110000))) ∨
  (r.first = 0x17F ∧ r.last = 0x17F) ∨ (r.first = 0x212A ∧ r.last = 0x212A)

instance (r : FoldRun) : Decidable r.LeavesAscii := by
  unfold FoldRun.LeavesAscii
  infer_instance

theorem foldRunsA_leavesAscii : ∀ r ∈ foldRunsA, r.LeavesAscii := by decide

theorem foldRunsB_leavesAscii : ∀ r ∈ foldRunsB, r.LeavesAscii := by decide

/-- An image in ASCII can only be that of one of the two signs. -/
theorem FoldRun.LeavesAscii.image {r : FoldRun} {n m : Nat} (h : r.LeavesAscii)
    (himage : r.image? n = some m) (hm : IsAscii (Char.ofNat m)) : n = 0x17F ∨ n = 0x212A := by
  unfold FoldRun.image? at himage
  split at himage
  · rename_i hn
    obtain ⟨hfirst, hlast, -⟩ := hn
    cases himage
    rcases h with ⟨htarget, hrange⟩ | ⟨hf, hl⟩ | ⟨hf, hl⟩
    · exfalso
      have hvalid : (r.target + (n - r.first)).isValidChar := by
        rcases hrange with hlow | ⟨hhigh, hmax⟩
        · exact Or.inl (by omega)
        · exact Or.inr ⟨by omega, by omega⟩
      unfold IsAscii at hm
      rw [toNat_ofNat hvalid] at hm
      omega
    · exact Or.inl (by omega)
    · exact Or.inr (by omega)
  · cases himage

/-- **Only the long s and the Kelvin sign fold into ASCII from outside.** -/
theorem ascii_of_foldCase {c : Char} (h : IsAscii (foldCase c)) :
    IsAscii c ∨ c = longS ∨ c = kelvinSign := by
  have hsign : c.toNat = 0x17F ∨ c.toNat = 0x212A → c = longS ∨ c = kelvinSign := by
    rintro (hc | hc)
    · left
      rw [← Char.ofNat_toNat c, hc]
      rfl
    · right
      rw [← Char.ofNat_toNat c, hc]
      rfl
  by_cases hc : IsAscii c
  · exact Or.inl hc
  · right
    apply hsign
    unfold foldCase at h
    split at h
    · rename_i hval
      exact absurd hval hc
    · split at h
      · rename_i m hm
        obtain ⟨r, hr, himage⟩ := List.exists_of_findSome?_eq_some hm
        exact (foldRunsA_leavesAscii r hr).image himage h
      · split at h
        · rename_i m hm
          obtain ⟨r, hr, himage⟩ := List.exists_of_findSome?_eq_some hm
          exact (foldRunsB_leavesAscii r hr).image himage h
        · exact absurd h hc

theorem foldCase_longS : foldCase longS = 's' := by decide

theorem foldCase_kelvinSign : foldCase kelvinSign = 'k' := by decide

theorem isWordChar_toLower {c : Char} (hc : IsAscii c) : isWordChar c.toLower = isWordChar c :=
  forall_ascii (P := fun c => isWordChar c.toLower = isWordChar c) (by decide) hc

/-- A character that folds to a word character of ASCII is a word character. -/
theorem isWordChar_of_foldCase {c : Char} (hascii : IsAscii (foldCase c))
    (h : isWordChar (foldCase c) = true) : isWordChar c = true := by
  rcases ascii_of_foldCase hascii with hc | rfl | rfl
  · rw [foldCase_of_isAscii hc, isWordChar_toLower hc] at h
    exact h
  · decide
  · decide

/-- Whether a character of ASCII is no letter, so that it has no case. -/
def isCaseless (d : Char) : Bool := d.toNat < 128 && !d.isAlpha

theorem toLower_of_not_isAlpha {c : Char} (hc : IsAscii c) (h : c.isAlpha = false) :
    c.toLower = c :=
  forall_ascii (P := fun c => c.isAlpha = false → c.toLower = c) (by decide) hc h

theorem isAlpha_toLower {c : Char} (hc : IsAscii c) : c.toLower.isAlpha = c.isAlpha :=
  forall_ascii (P := fun c => c.toLower.isAlpha = c.isAlpha) (by decide) hc

/-- Nothing else folds to a character without case. -/
theorem foldCase_eq_iff_of_isCaseless {c d : Char} (hd : isCaseless d = true) :
    foldCase c = foldCase d ↔ c = d := by
  unfold isCaseless at hd
  rw [Bool.and_eq_true, decide_eq_true_eq, Bool.not_eq_true'] at hd
  have hself : foldCase d = d :=
    (foldCase_of_isAscii hd.1).trans (toLower_of_not_isAlpha hd.1 hd.2)
  rw [hself]
  constructor
  · intro h
    have hascii : IsAscii (foldCase c) := by
      rw [h]
      exact hd.1
    rcases ascii_of_foldCase hascii with hc | rfl | rfl
    · rw [foldCase_of_isAscii hc] at h
      have hletter : c.isAlpha = false := by rw [← isAlpha_toLower hc, h, hd.2]
      rw [← toLower_of_not_isAlpha hc hletter, h]
    · rw [foldCase_longS] at h
      subst h
      exact absurd hd.2 (by decide)
    · rw [foldCase_kelvinSign] at h
      subst h
      exact absurd hd.2 (by decide)
  · rintro rfl
    exact hself

/-! ## Texts up to case -/

/-- The texts are equal up to the case of their characters. -/
def SameUpToCase (s t : List Char) : Prop := s.map foldCase = t.map foldCase

instance (s t : List Char) : Decidable (SameUpToCase s t) := by
  unfold SameUpToCase
  infer_instance

theorem SameUpToCase.refl (s : List Char) : SameUpToCase s s := rfl

theorem sameUpToCase_cons_iff {s t : List Char} {d : Char} : SameUpToCase s (d :: t) ↔
    ∃ c rest, s = c :: rest ∧ foldCase c = foldCase d ∧ SameUpToCase rest t := by
  unfold SameUpToCase
  rw [List.map_cons, List.map_eq_cons_iff]

/-- Whether the text begins with a word character that folds within ASCII. -/
def beginsWord (t : List Char) : Bool :=
  t.head?.any fun d => (foldCase d).toNat < 128 && isWordChar (foldCase d)

/-- Every case variant of a keyword begins with a word character. -/
theorem exists_cons_of_beginsWord {s t : List Char} (ht : beginsWord t = true)
    (h : SameUpToCase s t) : ∃ c rest, s = c :: rest ∧ isWordChar c = true := by
  unfold beginsWord at ht
  obtain ⟨d, hd, hfold⟩ := (Option.any_eq_true _ _).mp ht
  rw [Bool.and_eq_true, decide_eq_true_eq] at hfold
  obtain ⟨t, rfl⟩ := List.head?_eq_some_iff.mp hd
  obtain ⟨c, rest, rfl, hc, -⟩ := sameUpToCase_cons_iff.mp h
  rw [← hc] at hfold
  exact ⟨c, rest, rfl, isWordChar_of_foldCase hfold.1 hfold.2⟩

/-! ## Characters of names -/

/-- An ASCII letter, a digit or an underscore. -/
def isNameChar (c : Char) : Bool := c.isAlphanum || c == '_'

/-- A character of an identifier, which may have dollar signs too. -/
def isIdentifierChar (c : Char) : Bool := isNameChar c || c == '$'

/-- A character of a name up to case, which lets the two signs in that fold to letters. -/
def IsNameCharUpToCase (c : Char) : Prop := isNameChar c = true ∨ c = longS ∨ c = kelvinSign

instance (c : Char) : Decidable (IsNameCharUpToCase c) := by
  unfold IsNameCharUpToCase
  infer_instance

theorem isAscii_of_isNameChar {c : Char} (h : isNameChar c = true) : IsAscii c := by
  unfold isNameChar at h
  rw [Bool.or_eq_true, beq_iff_eq] at h
  unfold IsAscii
  rcases h with h | rfl
  · delta Char.isAlphanum Char.isAlpha Char.isUpper Char.isLower Char.isDigit at h
    simp only [Bool.or_eq_true, Bool.and_eq_true, decide_eq_true_eq, ge_iff_le,
      UInt32.le_iff_toNat_le] at h
    have hcode : c.toNat = c.val.toNat := rfl
    rw [hcode]
    simp at h
    omega
  · decide

theorem isAscii_of_isIdentifierChar {c : Char} (h : isIdentifierChar c = true) : IsAscii c := by
  unfold isIdentifierChar at h
  rw [Bool.or_eq_true, beq_iff_eq] at h
  rcases h with hname | rfl
  · exact isAscii_of_isNameChar hname
  · unfold IsAscii
    decide

/-! ## Blanks -/

theorem exists_of_inRanges {n : Nat} {rs : List CodeRange} (h : inRanges rs n = true) :
    ∃ r ∈ rs, r.1 ≤ n ∧ n ≤ r.2 := by
  induction rs with
  | nil => cases h
  | cons r rs ih =>
      unfold inRanges at h
      split at h
      · cases h
      · rename_i hfirst
        split at h
        · rename_i hlast
          exact ⟨r, List.mem_cons_self, by omega, hlast⟩
        · obtain ⟨r', hr', hn⟩ := ih h
          exact ⟨r', List.mem_cons_of_mem _ hr', hn⟩

/-- To show something of all blanks it is enough to look at each of them. -/
theorem forall_isBlank {P : Char → Prop}
    (h : ∀ r ∈ blankRanges, ∀ i < r.2 + 1 - r.1, P (Char.ofNat (r.1 + i))) {c : Char}
    (hc : isBlank c = true) : P c := by
  obtain ⟨r, hr, hfirst, hlast⟩ := exists_of_inRanges hc
  have hP := h r hr (c.toNat - r.1) (by omega)
  rw [Nat.add_sub_cancel' hfirst, Char.ofNat_toNat] at hP
  exact hP

theorem isWordChar_of_isBlank {c : Char} (h : isBlank c = true) : isWordChar c = false :=
  forall_isBlank (P := fun c => isWordChar c = false) (by decide +kernel) h

theorem isIdentifierChar_of_isBlank {c : Char} (h : isBlank c = true) :
    isIdentifierChar c = false :=
  forall_isBlank (P := fun c => isIdentifierChar c = false) (by decide +kernel) h

theorem isBlank_of_isNameChar {c : Char} (h : isNameChar c = true) : isBlank c = false := by
  cases hblank : isBlank c with
  | false => rfl
  | true =>
      have hid := isIdentifierChar_of_isBlank hblank
      unfold isIdentifierChar at hid
      rw [h, Bool.true_or] at hid
      cases hid

/-- No name goes on with a blank. -/
theorem not_isNameCharUpToCase_of_isBlank {c : Char} (h : isBlank c = true) :
    ¬ IsNameCharUpToCase c :=
  forall_isBlank (P := fun c => ¬ IsNameCharUpToCase c) (by decide +kernel) h

end ContractAudit.Text
