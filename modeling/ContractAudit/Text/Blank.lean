import ContractAudit.Text.CodeRange

/-!
# Blanks and trimming

A blank is a character of Unicode's `White_Space` property. Trimming removes the blanks at both
ends of a text and nothing else.
-/

namespace ContractAudit.Text

def blankRanges : List CodeRange :=
  [(0x9, 0xD), (0x20, 0x20), (0x85, 0x85), (0xA0, 0xA0), (0x1680, 0x1680), (0x2000, 0x200A),
   (0x2028, 0x2029), (0x202F, 0x202F), (0x205F, 0x205F), (0x3000, 0x3000)]

/-- White space of any kind: spaces, tabs, line ends and their relatives outside ASCII. -/
def isBlank (c : Char) : Bool := inRanges blankRanges c.toNat

def trimLeft (s : List Char) : List Char := s.dropWhile isBlank

def trimRight (s : List Char) : List Char := (s.reverse.dropWhile isBlank).reverse

def trimBoth (s : List Char) : List Char := trimRight (trimLeft s)

def trim (s : String) : String := String.ofList (trimBoth s.toList)

def trimEnd (s : String) : String := String.ofList (trimRight s.toList)

def isBlankText (s : String) : Bool := s.toList.all isBlank

/-- The trimmed text, unless nothing is left of it. -/
def nonBlank? (s : String) : Option String :=
  let t := trim s
  if t.isEmpty then none else some t

theorem trimLeft_of_head {s : List Char} (h : ∀ c ∈ s.head?, isBlank c = false) :
    trimLeft s = s := by
  cases s with
  | nil => rfl
  | cons c s => exact List.dropWhile_cons_of_neg (by simp [h c rfl])

/-- A text that neither begins nor ends in a blank is trimmed. -/
theorem trimBoth_of_ends {s : List Char} (hhead : ∀ c ∈ s.head?, isBlank c = false)
    (hlast : ∀ c ∈ s.getLast?, isBlank c = false) : trimBoth s = s := by
  have hreverse : trimLeft s.reverse = s.reverse := trimLeft_of_head (by simpa using hlast)
  unfold trimBoth trimRight
  rw [trimLeft_of_head hhead]
  unfold trimLeft at hreverse
  rw [hreverse, List.reverse_reverse]

theorem nonBlank?_eq_none {s : String} (h : trim s = "") : nonBlank? s = none := by
  unfold nonBlank?
  rw [h]
  rfl

theorem nonBlank?_eq_some_iff {s t : String} :
    nonBlank? s = some t ↔ trim s ≠ "" ∧ trim s = t := by
  by_cases hblank : trim s = ""
  · simp [nonBlank?_eq_none hblank, hblank]
  · simp [nonBlank?, hblank]

/-- An optional text is missing or blank, or what counts of it is the trimmed text. -/
theorem bind_nonBlank?_cases (declared : Option String) :
    ((∀ s, declared = some s → trim s = "") ∧ declared.bind nonBlank? = none) ∨
      ∃ s, declared = some s ∧ trim s ≠ "" ∧ declared.bind nonBlank? = some (trim s) := by
  cases declared with
  | none =>
      refine Or.inl ⟨?_, rfl⟩
      rintro s ⟨⟩
  | some s =>
      rw [Option.bind_some]
      by_cases hblank : trim s = ""
      · refine Or.inl ⟨?_, nonBlank?_eq_none hblank⟩
        rintro _ ⟨⟩
        exact hblank
      · exact Or.inr ⟨s, rfl, hblank, nonBlank?_eq_some_iff.mpr ⟨hblank, rfl⟩⟩

end ContractAudit.Text
