import ContractAudit.Text.Blank
import Mathlib.Data.List.Infix
import Mathlib.Data.List.TakeWhile

/-!
# Trimming

Trimming leaves a piece of a text (`trimBoth_isInfix`) that neither begins nor ends in a blank
(`isBlank_of_head?_trimBoth`, `isBlank_of_getLast?_trimBoth`), and nothing of a text that holds
blanks only (`trimBoth_eq_nil_iff`). Blanks put around a text change nothing
(`trimBoth_of_blanks_append`, `trimBoth_append_blanks`). A word has no blank in it, so it is kept
whole, and of what stands behind it only the end is trimmed (`trimRight_append`).
-/

namespace ContractAudit.Text

/-! ## What is left -/

theorem trimRight_isPrefix (s : List Char) : trimRight s <+: s := by
  rw [← List.reverse_suffix]
  unfold trimRight
  rw [List.reverse_reverse]
  exact List.dropWhile_suffix _

theorem trimBoth_isInfix (s : List Char) : trimBoth s <:+: s :=
  (trimRight_isPrefix _).isInfix.trans (List.dropWhile_suffix _).isInfix

/-- What trimming takes away at the end are blanks. -/
theorem exists_blanks_behind (s : List Char) :
    ∃ blanks, trimLeft s = trimBoth s ++ blanks ∧ ∀ c ∈ blanks, isBlank c = true := by
  refine ⟨((trimLeft s).reverse.takeWhile isBlank).reverse, ?_, ?_⟩
  · unfold trimBoth trimRight
    rw [← List.reverse_append, List.takeWhile_append_dropWhile, List.reverse_reverse]
  · intro c hc
    exact List.mem_takeWhile_imp (List.mem_reverse.mp hc)

/-- A trimmed text does not begin with a blank. -/
theorem isBlank_of_head?_trimBoth {s : List Char} {c : Char} (h : (trimBoth s).head? = some c) :
    isBlank c = false := by
  obtain ⟨blanks, htrim, -⟩ := exists_blanks_behind s
  have hhead := List.head?_dropWhile_not isBlank s
  have hfirst : (trimLeft s).head? = some c := by
    rw [htrim, List.head?_append, h, Option.some_or]
  unfold trimLeft at hfirst
  rw [hfirst] at hhead
  exact hhead

theorem isBlank_of_getLast?_trimRight {s : List Char} {c : Char}
    (h : (trimRight s).getLast? = some c) : isBlank c = false := by
  have hlast := List.head?_dropWhile_not isBlank s.reverse
  unfold trimRight at h
  rw [List.getLast?_reverse] at h
  rw [h] at hlast
  exact hlast

/-- A trimmed text does not end in a blank. -/
theorem isBlank_of_getLast?_trimBoth {s : List Char} {c : Char}
    (h : (trimBoth s).getLast? = some c) : isBlank c = false := isBlank_of_getLast?_trimRight h

theorem trimRight_eq_nil_iff {s : List Char} : trimRight s = [] ↔ ∀ c ∈ s, isBlank c = true := by
  unfold trimRight
  rw [List.reverse_eq_nil_iff, List.dropWhile_eq_nil_iff]
  simp only [List.mem_reverse]

/-- Nothing is left of a text exactly if it holds blanks only. -/
theorem trimBoth_eq_nil_iff {s : List Char} : trimBoth s = [] ↔ ∀ c ∈ s, isBlank c = true := by
  unfold trimBoth
  rw [trimRight_eq_nil_iff]
  unfold trimLeft
  constructor
  · intro h
    have hhead := List.head?_dropWhile_not isBlank s
    cases hd : s.dropWhile isBlank with
    | nil => exact List.dropWhile_eq_nil_iff.mp hd
    | cons c cs =>
        rw [hd, List.head?_cons] at hhead
        have hblank : isBlank c = true := h c (hd ▸ List.mem_cons_self)
        have hfilled : isBlank c = false := hhead
        rw [hblank] at hfilled
        cases hfilled
  · intro h c hc
    exact h c (List.dropWhile_subset _ hc)

theorem trim_eq_empty_iff {s : String} : trim s = "" ↔ ∀ c ∈ s.toList, isBlank c = true := by
  unfold trim
  rw [String.ofList_eq_empty_iff, trimBoth_eq_nil_iff]

/-! ## Blanks around a text -/

section

variable {blanks : List Char} (h : ∀ c ∈ blanks, isBlank c = true)
include h

theorem trimBoth_of_blanks_append (s : List Char) : trimBoth (blanks ++ s) = trimBoth s := by
  unfold trimBoth trimLeft
  rw [List.dropWhile_append_of_pos h]

theorem trimRight_append_blanks (s : List Char) : trimRight (s ++ blanks) = trimRight s := by
  unfold trimRight
  rw [List.reverse_append, List.dropWhile_append_of_pos (by simpa using h)]

theorem trimBoth_append_blanks (s : List Char) : trimBoth (s ++ blanks) = trimBoth s := by
  unfold trimBoth trimLeft
  rw [List.dropWhile_append]
  split
  · rename_i hs
    rw [List.isEmpty_iff.mp hs, List.dropWhile_eq_nil_iff.mpr h]
  · exact trimRight_append_blanks h _

end

theorem trimBoth_cons_blank {c : Char} (hc : isBlank c = true) (s : List Char) :
    trimBoth (c :: s) = trimBoth s :=
  trimBoth_of_blanks_append (fun _ hd => List.mem_singleton.mp hd ▸ hc) s

/-! ## Words -/

/-- No blank is in the text. -/
def BlankFree (s : List Char) : Prop := ∀ c ∈ s, isBlank c = false

instance (s : List Char) : Decidable (BlankFree s) :=
  List.decidableBAll (isBlank · = false) s

theorem trimBoth_of_blankFree {s : List Char} (h : BlankFree s) : trimBoth s = s :=
  trimBoth_of_ends (fun c hc => h c (List.mem_of_mem_head? hc))
    fun c hc => h c (List.mem_of_mem_getLast? hc)

/-- Blanks behind a word are all that can be trimmed at its end. -/
theorem trimRight_append {word : List Char} (hword : BlankFree word) (rest : List Char) :
    trimRight (word ++ rest) = word ++ trimRight rest := by
  have hkeep : word.reverse.dropWhile isBlank = word.reverse := by
    rw [List.dropWhile_eq_self_iff]
    intro hpos
    rw [hword _ (List.mem_reverse.mp (List.getElem_mem hpos))]
    exact Bool.false_ne_true
  unfold trimRight
  rw [List.reverse_append, List.dropWhile_append]
  split
  · rename_i hrest
    rw [hkeep, List.reverse_reverse, List.isEmpty_iff.mp hrest, List.reverse_nil, List.append_nil]
  · rw [List.reverse_append, List.reverse_reverse]

section

variable {p : Char → Bool} {word rest : List Char} (hword : ∀ c ∈ word, p c = true)
  (hrest : ∀ c, rest.head? = some c → p c = false)
include hword hrest

/-- What passes a test ends where something follows that does not, or nothing. -/
theorem takeWhile_of_head : (word ++ rest).takeWhile p = word := by
  rw [List.takeWhile_append_of_pos hword]
  cases rest with
  | nil => simp
  | cons c rest => simp [hrest c rfl]

theorem dropWhile_of_head : (word ++ rest).dropWhile p = rest := by
  rw [List.dropWhile_append_of_pos hword]
  cases rest with
  | nil => rfl
  | cons c rest => simp [hrest c rfl]

end

end ContractAudit.Text
