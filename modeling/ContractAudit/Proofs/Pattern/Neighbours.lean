import ContractAudit.Pattern.Search
import ContractAudit.Proofs.Text.LineBlocks
import Mathlib.Data.List.Basic

/-!
# What a pattern sees of its neighbours

A match depends on the characters around it only through the edges of lines and words. At the edge
of a line a pattern cannot tell a line feed from the end of the text (`Matches.of_sameSide`), so
whatever occurs in a block of lines occurs in the whole text (`OccursIn.of_isLineBlock`). This holds
of every pattern.

Text put straight behind a final line feed is different: the empty last line is gone, and a pattern
that ended there may not match any longer. That takes a `lineEnd` that is reached behind a line
feed. Whether one can be is read off the pattern (`isOpenEnded`); where none can, matches survive
all added lines (`OccursIn.of_addsLines`).
-/

namespace ContractAudit.Pattern

open Text

/-! ## Neighbours that make no difference -/

/-- Neighbours a pattern cannot tell apart: they are equal, or both are the edge of a line. -/
def SameSide (x y : Option Char) : Prop := x = y ∨ (startsLine x = true ∧ startsLine y = true)

theorem startsLine_iff {x : Option Char} : startsLine x = true ↔ x = none ∨ x = some '\n' := by
  simp [startsLine]

/-- No word reaches over the edge of a line. -/
theorem any_isWordChar_of_startsLine {x : Option Char} (h : startsLine x = true) :
    x.any isWordChar = false := by
  rcases startsLine_iff.mp h with rfl | rfl
  · rfl
  · decide

namespace SameSide

variable {x y : Option Char}

theorem refl (x : Option Char) : SameSide x x := Or.inl rfl

theorem startsLine_eq (h : SameSide x y) : startsLine x = startsLine y := by
  rcases h with rfl | ⟨hx, hy⟩
  · rfl
  · rw [hx, hy]

theorem endsLine_eq (h : SameSide x y) : endsLine x = endsLine y := h.startsLine_eq

theorem any_isWordChar_eq (h : SameSide x y) : x.any isWordChar = y.any isWordChar := by
  rcases h with rfl | ⟨hx, hy⟩
  · rfl
  · rw [any_isWordChar_of_startsLine hx, any_isWordChar_of_startsLine hy]

/-- A nearer neighbour hides the difference, or leaves it what it is. -/
theorem or (h : SameSide x y) (z : Option Char) : SameSide (z.or x) (z.or y) := by
  cases z with
  | none => exact h
  | some c => exact refl _

/-- The end of the text gives way to the edge of a line. -/
theorem or_right (h : startsLine y = true) : ∀ x, SameSide x (x.or y)
  | none => Or.inr ⟨rfl, h⟩
  | some _ => refl _

end SameSide

/-- **A pattern sees no more of its neighbours than the edge of a line.** -/
theorem Matches.of_sameSide {l l' r r' : Option Char} {p : Pattern} {s : List Char}
    (h : Matches l p s r) (hl : SameSide l l') (hr : SameSide r r') : Matches l' p s r' := by
  induction h generalizing l' r' with
  | empty => exact .empty
  | char h => exact .char h
  | lineStart h =>
      rw [hl.startsLine_eq] at h
      exact .lineStart h
  | lineEnd h =>
      rw [hr.endsLine_eq] at h
      exact .lineEnd h
  | wordBoundary h =>
      unfold isBoundary at h
      rw [hl.any_isWordChar_eq, hr.any_isWordChar_eq] at h
      exact .wordBoundary h
  | seq _ _ ih₁ ih₂ => exact .seq (ih₁ hl (hr.or _)) (ih₂ (hl.or _) hr)
  | altLeft _ ih => exact .altLeft (ih hl hr)
  | altRight _ ih => exact .altRight (ih hl hr)
  | starNil => exact .starNil
  | starCons _ _ ih₁ ih₂ => exact .starCons (ih₁ hl (hr.or _)) (ih₂ (hl.or _) hr)

theorem startsLine_of_atLineStart {before : List Char} (h : AtLineStart before) :
    startsLine before.getLast? = true := by
  rcases h with rfl | h
  · rfl
  · rw [h]
    rfl

theorem startsLine_of_atLineEnd {behind : List Char} (h : AtLineEnd behind) :
    startsLine behind.head? = true := by
  rcases h with rfl | h
  · rfl
  · rw [h]
    rfl

/-- **What occurs in a block of lines occurs in the text**, whatever the pattern. -/
theorem OccursIn.of_isLineBlock {p : Pattern} {w s : List Char} (h : p.OccursIn w)
    (hb : IsLineBlock w s) : p.OccursIn s := by
  obtain ⟨a, m, b, rfl, hm⟩ := h
  obtain ⟨before, behind, rfl, hbefore, hbehind⟩ := hb
  refine ⟨before ++ a, m, b ++ behind, by simp, hm.of_sameSide ?_ ?_⟩
  · rw [List.getLast?_append]
    exact SameSide.or_right (startsLine_of_atLineStart hbefore) _
  · rw [List.head?_append]
    exact SameSide.or_right (startsLine_of_atLineEnd hbehind) _

/-! ## Ends of lines behind line feeds -/

/-- Whether a match may end straight behind a line feed; `behind` says whether it may begin
there. -/
def leavesBreak (behind : Bool) : Pattern → Bool
  | .char i set => set.has i '\n'
  | .seq p q => q.leavesBreak (p.leavesBreak behind)
  | .alt p q => p.leavesBreak behind || q.leavesBreak behind
  | .star p => behind || p.leavesBreak true
  | _ => behind

/-- Whether no `lineEnd` of the pattern is ever reached straight behind a line feed; `behind` says
whether the pattern itself may be. -/
def isOpenEnded (behind : Bool) : Pattern → Bool
  | .lineEnd => !behind
  | .seq p q => p.isOpenEnded behind && q.isOpenEnded (p.leavesBreak behind)
  | .alt p q => p.isOpenEnded behind && q.isOpenEnded behind
  | .star p => p.isOpenEnded true
  | _ => true

/-- `leavesBreak` misses no match that ends behind a line feed. -/
theorem Matches.leavesBreak {l r : Option Char} {p : Pattern} {s : List Char} {b : Bool}
    (h : Matches l p s r) (hl : l = some '\n' → b = true)
    (hs : s.getLast?.or l = some '\n') : p.leavesBreak b = true := by
  induction h generalizing b with
  | empty | lineStart | lineEnd | wordBoundary => exact hl hs
  | char hset =>
      rw [List.getLast?_singleton, Option.some_or, Option.some.injEq] at hs
      subst hs
      exact hset
  | seq _ _ ih₁ ih₂ =>
      rw [List.getLast?_append, Option.or_assoc] at hs
      exact ih₂ (fun hmid => ih₁ hl hmid) hs
  | altLeft _ ih =>
      unfold Pattern.leavesBreak
      rw [ih hl hs, Bool.true_or]
  | altRight _ ih =>
      unfold Pattern.leavesBreak
      rw [ih hl hs, Bool.or_true]
  | starNil =>
      unfold Pattern.leavesBreak
      rw [hl hs, Bool.true_or]
  | @starCons l r p s t _ _ ih₁ ih₂ =>
      rw [List.getLast?_append, Option.or_assoc] at hs
      by_cases hmid : s.getLast?.or l = some '\n'
      · have hp : p.leavesBreak true = true := ih₁ (fun _ => rfl) hmid
        unfold Pattern.leavesBreak
        rw [hp, Bool.or_true]
      · -- The rest does not begin behind a line feed, so one of its rounds leaves one.
        have hrest : (star p).leavesBreak false = true := ih₂ (fun h => absurd h hmid) hs
        unfold Pattern.leavesBreak at hrest ⊢
        rw [Bool.false_or] at hrest
        rw [hrest, Bool.or_true]

/-- Behind a line feed, where no word can end, an open-ended pattern does not notice that the text
goes on. -/
theorem Matches.of_isOpenEnded {l r r' : Option Char} {p : Pattern} {s : List Char} {b : Bool}
    (h : Matches l p s r) (hopen : p.isOpenEnded b = true)
    (hl : l = some '\n' → b = true) (hr : r ≠ r' → r = none ∧ s.getLast?.or l = some '\n') :
    Matches l p s r' := by
  induction h generalizing b r' with
  | empty => exact .empty
  | char hset => exact .char hset
  | lineStart h => exact .lineStart h
  | @lineEnd l r hend =>
      by_cases hrr : r = r'
      · subst hrr
        exact .lineEnd hend
      · -- Only the end of the text made this the end of a line, and an open-ended pattern does
        -- not ask for it behind a line feed.
        have hb : b = true := hl (hr hrr).2
        rw [hb] at hopen
        exact absurd hopen (by decide)
  | @wordBoundary l r hword =>
      by_cases hrr : r = r'
      · subst hrr
        exact .wordBoundary hword
      · obtain ⟨rfl, hlast⟩ := hr hrr
        rw [List.getLast?_nil, Option.none_or] at hlast
        subst hlast
        -- Between a line feed and the end of the text no word has an edge.
        exact absurd hword (by decide)
  | @seq l r p q s t h₁ _ ih₁ ih₂ =>
      simp only [isOpenEnded, Bool.and_eq_true] at hopen
      rw [List.getLast?_append, Option.or_assoc] at hr
      refine .seq (ih₁ hopen.1 hl ?_) (ih₂ hopen.2 (fun hmid => h₁.leavesBreak hl hmid) hr)
      -- A second part that takes a character hides the new neighbour from the first.
      cases t with
      | nil => exact hr
      | cons c t => exact fun hne => absurd rfl hne
  | altLeft _ ih =>
      simp only [isOpenEnded, Bool.and_eq_true] at hopen
      exact .altLeft (ih hopen.1 hl hr)
  | altRight _ ih =>
      simp only [isOpenEnded, Bool.and_eq_true] at hopen
      exact .altRight (ih hopen.2 hl hr)
  | starNil => exact .starNil
  | @starCons l r p s t _ _ ih₁ ih₂ =>
      rw [List.getLast?_append, Option.or_assoc] at hr
      -- Inside a repetition any round may begin behind a line feed, so `b` is `true` from here.
      refine .starCons (ih₁ (b := true) hopen (fun _ => rfl) ?_)
        (ih₂ (b := true) hopen (fun _ => rfl) hr)
      cases t with
      | nil => exact hr
      | cons c t => exact fun hne => absurd rfl hne

/-- **Added lines leave an open-ended pattern where it was.** -/
theorem OccursIn.of_addsLines {p : Pattern} {s t : List Char} (h : p.OccursIn s)
    (hadds : AddsLines s t) (hopen : p.isOpenEnded true = true) : p.OccursIn t := by
  obtain ⟨above, below, rfl, habove, hbelow | hlast⟩ := hadds
  · exact h.of_isLineBlock ⟨above, below, rfl, habove, hbelow⟩
  · obtain ⟨a, m, b, rfl, hm⟩ := h
    refine ⟨above ++ a, m, b ++ below, by simp, ?_⟩
    rw [List.getLast?_append, List.head?_append]
    refine (hm.of_isOpenEnded hopen (fun _ => rfl) ?_).of_sameSide
      (SameSide.or_right (startsLine_of_atLineStart habove) _) (SameSide.refl _)
    intro hne
    cases b with
    | nil =>
        rw [List.append_nil, List.getLast?_append] at hlast
        exact ⟨rfl, hlast⟩
    | cons c b => exact absurd rfl hne

end ContractAudit.Pattern
