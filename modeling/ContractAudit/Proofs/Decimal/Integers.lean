import ContractAudit.Json.Token
import ContractAudit.Yaml.Scalar
import Mathlib.Data.List.TakeWhile

/-!
# Integers in decimal

An integer is written with the digits of its size behind a sign, and without a needless zero. Read
as a JSON number (`number?_toString`) or as a plain YAML scalar (`plainMeaning_toString`) it is the
same integer again, as long as it fits 64 bits with a sign or without one (`IsWord`).
-/

namespace ContractAudit

/-- An integer that fits 64 bits, with a sign or without one. -/
def IsWord (n : Int) : Prop := -(Int.pow 2 63) ≤ n ∧ n < Int.pow 2 64

instance (n : Int) : Decidable (IsWord n) := by
  unfold IsWord
  infer_instance

namespace Decimal

/-! ## Digits -/

theorem digitsValue_toDigits (n : Nat) : digitsValue (Nat.toDigits 10 n) = n := by
  have hfold : digitsValue (Nat.toDigits 10 n) = Nat.ofDigitChars 10 (Nat.toDigits 10 n) 0 := by
    rw [Nat.ofDigitChars_eq_foldl]
    unfold digitsValue
    congr 1
    funext value c
    rw [Nat.mul_comm]
    rfl
  rw [hfold, Nat.ofDigitChars_ten_toDigits]

theorem isDigit_of_mem_toDigits {n : Nat} {c : Char} (h : c ∈ Nat.toDigits 10 n) :
    c.isDigit = true :=
  Nat.isDigit_of_mem_toDigits (by decide) (by decide) h

/-- Only zero itself begins with a zero. -/
theorem toDigits_eq_zero_cons {n : Nat} {ds : List Char} (h : Nat.toDigits 10 n = '0' :: ds) :
    ds = [] := by
  induction n using Nat.strongRecOn generalizing ds with
  | _ n ih =>
      by_cases hn : n < 10
      · rw [Nat.toDigits_of_lt_base hn] at h
        exact (List.cons.inj h).2.symm
      · rw [Nat.toDigits_of_base_le (by decide) (by omega)] at h
        cases hfirst : Nat.toDigits 10 (n / 10) with
        | nil => exact absurd hfirst Nat.toDigits_ne_nil
        | cons c rest =>
            rw [hfirst, List.cons_append, List.cons.injEq] at h
            obtain ⟨rfl, -⟩ := h
            have hrest := ih (n / 10) (by omega) hfirst
            -- The leading digit of a number of several digits is not the number zero.
            have hzero : n / 10 = 0 := by
              rw [← digitsValue_toDigits (n / 10), hfirst, hrest]
              rfl
            omega

/-- The digits of a number in front, and what follows from a zero among them. -/
theorem exists_toDigits_eq_cons (n : Nat) : ∃ d ds, Nat.toDigits 10 n = d :: ds ∧
    d.isDigit = true ∧ (d = '0' → ds = []) := by
  cases hds : Nat.toDigits 10 n with
  | nil => exact absurd hds Nat.toDigits_ne_nil
  | cons d ds =>
      refine ⟨d, ds, rfl, isDigit_of_mem_toDigits (hds ▸ List.mem_cons_self), ?_⟩
      rintro rfl
      exact toDigits_eq_zero_cons hds

/-- A zero in front is the only digit. -/
theorem length_toDigits_of_head?_zero {n : Nat} (h : (Nat.toDigits 10 n).head? = some '0') :
    (Nat.toDigits 10 n).length = 1 := by
  obtain ⟨ds, hds⟩ := List.head?_eq_some_iff.mp h
  rw [hds, toDigits_eq_zero_cons hds]
  rfl

theorem takeWhile_isDigit_toDigits (n : Nat) :
    (Nat.toDigits 10 n).takeWhile Char.isDigit = Nat.toDigits 10 n :=
  List.takeWhile_eq_self_iff.mpr fun _ hc => isDigit_of_mem_toDigits hc

theorem dropWhile_isDigit_toDigits (n : Nat) : (Nat.toDigits 10 n).dropWhile Char.isDigit = [] :=
  List.dropWhile_eq_nil_iff.mpr fun _ hc => isDigit_of_mem_toDigits hc

/-- The text of an integer: the digits of its size, and a sign if it is negative. -/
theorem toList_toString (n : Int) : (toString n).toList =
    if n < 0 then '-' :: Nat.toDigits 10 n.natAbs else Nat.toDigits 10 n.natAbs := by
  cases n with
  | ofNat n =>
      have hpos : ¬ Int.ofNat n < 0 := by simp
      rw [if_neg hpos]
      exact Nat.toList_repr
  | negSucc n =>
      rw [if_pos (Int.negSucc_lt_zero n)]
      show ("-" ++ Nat.repr (n + 1)).toList = _
      rw [String.toList_append, Nat.toList_repr]
      rfl

/-- The text of an integer is made of a sign and digits. -/
theorem isSignOrDigit_of_mem_toString {n : Int} {c : Char} (h : c ∈ (toString n).toList) :
    c = '-' ∨ c.isDigit = true := by
  rw [toList_toString] at h
  split at h
  · rcases List.mem_cons.mp h with rfl | h
    · exact Or.inl rfl
    · exact Or.inr (isDigit_of_mem_toDigits h)
  · exact Or.inr (isDigit_of_mem_toDigits h)

/-- No integer is written with such a character. -/
def isForeign (c : Char) : Bool := c != '-' && !c.isDigit

theorem toString_ne_of_any {n : Int} {word : List Char} (h : word.any isForeign = true) :
    (toString n).toList ≠ word := by
  rintro rfl
  obtain ⟨c, hc, hforeign⟩ := List.any_eq_true.mp h
  rcases isSignOrDigit_of_mem_toString hc with rfl | hdigit
  · cases hforeign
  · simp [isForeign, hdigit] at hforeign

theorem toString_ne_nil (n : Int) : (toString n).toList ≠ [] := by
  rw [toList_toString]
  split
  · exact List.cons_ne_nil _ _
  · exact Nat.toDigits_ne_nil

end Decimal

open Decimal

/-! ## JSON numbers -/

namespace Json.Token

/-- The digits of a number are a number: they begin with no needless zero, and nothing is left
behind them. -/
theorem number?_toDigits {n : Nat} (h : n < Nat.pow 2 64) :
    number? (Nat.toDigits 10 n) = some (.int n) := by
  obtain ⟨d, ds, hds, hd, -⟩ := exists_toDigits_eq_cons n
  have hminus : ∀ rest, Nat.toDigits 10 n ≠ '-' :: rest := by
    intro rest hrest
    obtain ⟨rfl, -⟩ := List.cons.inj (hds.symm.trans hrest)
    cases hd
  unfold number?
  split
  rename_i hsign
  split at hsign
  · rename_i rest heq
    exact absurd heq (hminus rest)
  · cases hsign
    simp only [takeWhile_isDigit_toDigits, dropWhile_isDigit_toDigits, List.append_nil,
      digitsValue_toDigits]
    simpa [Nat.toDigits_ne_nil, h] using length_toDigits_of_head?_zero

theorem number?_minus_toDigits {n : Nat} (hpos : n ≠ 0) (h : n ≤ Nat.pow 2 63) :
    number? ('-' :: Nat.toDigits 10 n) = some (.int (-n)) := by
  unfold number?
  simp only [takeWhile_isDigit_toDigits, dropWhile_isDigit_toDigits, List.append_nil,
    digitsValue_toDigits]
  simpa [Nat.toDigits_ne_nil, hpos, h] using length_toDigits_of_head?_zero

/-- **An integer is the number it is written as.** -/
theorem number?_toString {n : Int} (h : IsWord n) :
    number? (toString n).toList = some (.int n) := by
  have hbounds : -(2 ^ 63) ≤ n ∧ n < 2 ^ 64 := h
  rw [toList_toString]
  split
  · rename_i hn
    have hsize : n.natAbs ≤ Nat.pow 2 63 := by
      show n.natAbs ≤ 2 ^ 63
      omega
    have hint : -(n.natAbs : Int) = n := by omega
    rw [number?_minus_toDigits (by omega) hsize, hint]
  · rename_i hn
    have hsize : n.natAbs < Nat.pow 2 64 := by
      show n.natAbs < 2 ^ 64
      omega
    have hint : (n.natAbs : Int) = n := by omega
    rw [number?_toDigits hsize, hint]

end Json.Token

/-! ## Plain scalars -/

namespace Yaml

theorem digitIn?_of_isDigit {c : Char} (h : c.isDigit = true) :
    digitIn? 10 c = some (c.toNat - 48) := by
  have hrange : 48 ≤ c.toNat ∧ c.toNat ≤ 57 := by
    simpa [Char.isDigit, UInt32.le_iff_toNat_le] using h
  have hle : '0' ≤ c ∧ c ≤ '9' := by
    simpa [Char.le_def, UInt32.le_iff_toNat_le] using hrange
  unfold digitIn?
  rw [if_pos hle]
  simp
  omega

theorem natIn?_of_isDigit {ds : List Char} (hne : ds ≠ []) (h : ∀ c ∈ ds, c.isDigit = true) :
    natIn? 10 ds = some (digitsValue ds) := by
  have hfold : ∀ start, ds.foldlM (fun n c => (digitIn? 10 c).map (n * 10 + ·)) start =
      some (ds.foldl (fun n c => n * 10 + (c.toNat - 48)) start) := by
    clear hne
    induction ds with
    | nil => exact fun _ => rfl
    | cons c rest ih =>
        intro start
        rw [List.foldlM_cons, digitIn?_of_isDigit (h c List.mem_cons_self)]
        exact ih (fun d hd => h d (List.mem_cons_of_mem _ hd)) _
  unfold natIn?
  rw [if_neg (by simpa using hne)]
  exact hfold 0

/-- Digits carry no mark of another base: a letter behind a zero is no digit. -/
theorem unsigned?_toDigits (n : Nat) : unsigned? (Nat.toDigits 10 n) = some n := by
  obtain ⟨d, ds, hds, -, hzero⟩ := exists_toDigits_eq_cons n
  have hnat : natIn? 10 (Nat.toDigits 10 n) = some n := by
    rw [natIn?_of_isDigit Nat.toDigits_ne_nil fun _ => isDigit_of_mem_toDigits,
      digitsValue_toDigits]
  rw [hds] at hnat ⊢
  unfold unsigned?
  split
  iterate 3
    rename_i heq
    rw [List.cons.injEq] at heq
    cases heq.2.symm.trans (hzero heq.1)
  exact hnat

theorem integer?_toString (n : Int) : integer? (toString n).toList = some n := by
  have hunsigned := unsigned?_toDigits n.natAbs
  rw [toList_toString]
  split
  · rename_i hn
    have hint : -(n.natAbs : Int) = n := by omega
    generalize n.natAbs = size at *
    simp [integer?, hunsigned, hint]
  · rename_i hn
    obtain ⟨d, ds, hds, hd, -⟩ := exists_toDigits_eq_cons n.natAbs
    have hint : (n.natAbs : Int) = n := by omega
    rw [hds] at hunsigned ⊢
    generalize n.natAbs = size at *
    unfold integer?
    split
    iterate 2
      rename_i heq
      rw [(List.cons.inj heq).1] at hd
      cases hd
    simp [hunsigned, hint]

theorem hasNeedlessZero_toString (n : Int) : hasNeedlessZero (toString n).toList = false := by
  obtain ⟨d, ds, hds, hd, hzero⟩ := exists_toDigits_eq_cons n.natAbs
  have hkeep : ∀ d' rest, d :: ds ≠ '0' :: d' :: rest := by
    intro d' rest heq
    rw [List.cons.injEq] at heq
    cases heq.2.symm.trans (hzero heq.1)
  rw [toList_toString, hds]
  by_cases hn : n < 0
  · rw [if_pos hn]
    unfold hasNeedlessZero
    dsimp only
    split
    · rename_i heq
      exact absurd heq (hkeep _ _)
    · rfl
  · rw [if_neg hn]
    unfold hasNeedlessZero
    split
    iterate 2
      rename_i heq
      rw [(List.cons.inj heq).1] at hd
      cases hd
    dsimp only
    split
    · rename_i heq
      exact absurd heq (hkeep _ _)
    · rfl

theorem intMeaning?_toString {n : Int} (h : IsWord n) :
    intMeaning? (toString n) = some (.int n) := by
  unfold IsWord at h
  unfold intMeaning?
  dsimp only
  rw [hasNeedlessZero_toString, integer?_toString]
  dsimp only
  rw [if_neg Bool.false_ne_true, if_pos h]

/-- The words that a plain scalar may be besides a number and text. -/
def reservedWords : List String :=
  ["", "~", "null", "Null", "NULL", "true", "True", "TRUE", "false", "False", "FALSE"]

theorem toString_ne_of_reserved {n : Int} : ∀ word ∈ reservedWords, toString n ≠ word := by
  rintro word hword rfl
  have hforeign : ∀ word ∈ reservedWords, word.toList = [] ∨ word.toList.any isForeign = true := by
    decide
  rcases hforeign _ hword with hnil | hany
  · exact toString_ne_nil n hnil
  · exact toString_ne_of_any hany rfl

/-- **An integer is what its text means as a plain scalar.** -/
theorem plainMeaning_toString {n : Int} (h : IsWord n) : plainMeaning (toString n) = .int n := by
  have hint := intMeaning?_toString h
  have hwords := toString_ne_of_reserved (n := n)
  generalize toString n = s at *
  simp only [reservedWords, List.forall_mem_cons] at hwords
  simp [plainMeaning, isNullWord, boolWord?, hint, hwords]

end Yaml

end ContractAudit
