import ContractAudit.Pattern.Basic
import Mathlib.Data.List.Basic

/-!
# A text taken as one line

A pattern can be looked for without regard to lines: `lineStart` then stands for the start of the
text alone, `lineEnd` for its end, and a line feed is a character like any other. In a text without
line feeds this is the same as looking for it line by line (`occursAsOneLine_iff`), whatever the
pattern.
-/

namespace ContractAudit.Pattern

/-- The text matches the pattern between these neighbours, where only the ends of the whole text are
ends of a line. -/
inductive MatchesAsOneLine : Option Char → Pattern → List Char → Option Char → Prop where
  | empty {l r} : MatchesAsOneLine l .empty [] r
  | char {l r i set c} : set.has i c = true → MatchesAsOneLine l (.char i set) [c] r
  | lineStart {l r} : l = none → MatchesAsOneLine l .lineStart [] r
  | lineEnd {l r} : r = none → MatchesAsOneLine l .lineEnd [] r
  | wordBoundary {l r} : isBoundary l r = true → MatchesAsOneLine l .wordBoundary [] r
  | seq {l r p q s t} :
      MatchesAsOneLine l p s (t.head?.or r) → MatchesAsOneLine (s.getLast?.or l) q t r →
      MatchesAsOneLine l (.seq p q) (s ++ t) r
  | altLeft {l r p q s} : MatchesAsOneLine l p s r → MatchesAsOneLine l (.alt p q) s r
  | altRight {l r p q s} : MatchesAsOneLine l q s r → MatchesAsOneLine l (.alt p q) s r
  | starNil {l r p} : MatchesAsOneLine l (.star p) [] r
  | starCons {l r p s t} :
      MatchesAsOneLine l p s (t.head?.or r) → MatchesAsOneLine (s.getLast?.or l) (.star p) t r →
      MatchesAsOneLine l (.star p) (s ++ t) r

/-- Somewhere in the text, taken as one line, a piece matches the pattern. -/
def OccursAsOneLine (p : Pattern) (text : List Char) : Prop :=
  ∃ a s b, text = a ++ s ++ b ∧ MatchesAsOneLine a.getLast? p s b.head?

variable {l r : Option Char} {p : Pattern} {s t : List Char}

/-- The ends of a text are ends of its lines. -/
theorem MatchesAsOneLine.matches (h : MatchesAsOneLine l p s r) : Matches l p s r := by
  induction h with
  | empty => exact .empty
  | char hset => exact .char hset
  | lineStart hl =>
      subst hl
      exact .lineStart rfl
  | lineEnd hr =>
      subst hr
      exact .lineEnd rfl
  | wordBoundary hword => exact .wordBoundary hword
  | seq _ _ ih₁ ih₂ => exact .seq ih₁ ih₂
  | altLeft _ ih => exact .altLeft ih
  | altRight _ ih => exact .altRight ih
  | starNil => exact .starNil
  | starCons _ _ ih₁ ih₂ => exact .starCons ih₁ ih₂

theorem getLast?_or_ne_newline (hs : '\n' ∉ s) (hl : l ≠ some '\n') :
    s.getLast?.or l ≠ some '\n' := by
  intro h
  rcases Option.or_eq_some_iff.mp h with hlast | ⟨-, hl'⟩
  · exact hs (List.mem_of_getLast? hlast)
  · exact hl hl'

theorem head?_or_ne_newline (ht : '\n' ∉ t) (hr : r ≠ some '\n') :
    t.head?.or r ≠ some '\n' := by
  intro h
  rcases Option.or_eq_some_iff.mp h with hhead | ⟨-, hr'⟩
  · exact ht (List.mem_of_head? hhead)
  · exact hr hr'

/-- Away from line feeds no line ends but the text. -/
theorem Matches.asOneLine (h : Matches l p s r) (hl : l ≠ some '\n') (hs : '\n' ∉ s)
    (hr : r ≠ some '\n') : MatchesAsOneLine l p s r := by
  induction h with
  | empty => exact .empty
  | char hset => exact .char hset
  | lineStart hstart =>
      rw [startsLine, Bool.or_eq_true, decide_eq_true_eq, decide_eq_true_eq] at hstart
      exact .lineStart (hstart.resolve_right hl)
  | lineEnd hend =>
      rw [endsLine, Bool.or_eq_true, decide_eq_true_eq, decide_eq_true_eq] at hend
      exact .lineEnd (hend.resolve_right hr)
  | wordBoundary hword => exact .wordBoundary hword
  | seq _ _ ih₁ ih₂ =>
      rw [List.mem_append, not_or] at hs
      exact .seq (ih₁ hl hs.1 (head?_or_ne_newline hs.2 hr))
        (ih₂ (getLast?_or_ne_newline hs.1 hl) hs.2 hr)
  | altLeft _ ih => exact .altLeft (ih hl hs hr)
  | altRight _ ih => exact .altRight (ih hl hs hr)
  | starNil => exact .starNil
  | starCons _ _ ih₁ ih₂ =>
      rw [List.mem_append, not_or] at hs
      exact .starCons (ih₁ hl hs.1 (head?_or_ne_newline hs.2 hr))
        (ih₂ (getLast?_or_ne_newline hs.1 hl) hs.2 hr)

/-- **A text without line feeds is one line** for every pattern. -/
theorem occursAsOneLine_iff (h : '\n' ∉ t) : p.OccursAsOneLine t ↔ p.OccursIn t := by
  constructor
  · rintro ⟨a, s, b, rfl, hm⟩
    exact ⟨a, s, b, rfl, hm.matches⟩
  · rintro ⟨a, s, b, rfl, hm⟩
    rw [List.mem_append, List.mem_append, not_or, not_or] at h
    refine ⟨a, s, b, rfl, hm.asOneLine ?_ h.1.2 ?_⟩
    · exact fun hlast => h.1.1 (List.mem_of_getLast? hlast)
    · exact fun hhead => h.2 (List.mem_of_head? hhead)

end ContractAudit.Pattern
