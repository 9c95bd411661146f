import ContractAudit.Proofs.Text.LineBlocks

/-!
# Line ends

A line ends in a line feed, in a carriage return, or in both. Making them uniform is defined by two
replacements one after the other, and described by a single pass, `universalNewlines`: the two agree
on every text (`normalizeLineEnds_eq`), also where returns and feeds stand next to each other in
ways that no single style writes. What is uniform stays as it is, so doing it twice is doing it
once. Two texts put together are made uniform one by one, unless a pair is cut between them
(`universalNewlines_append`).

Writing a text in a style and making its line ends uniform gives the text back
(`LineStyle.withUniformLineEnds_writeText`), whatever the style.
-/

namespace ContractAudit.Text

/-! ## One pass -/

/-- Only a line feed can tell whether a carriage return stood before it. -/
theorem universalNewlines_true {s : List Char} (h : s.head? ≠ some '\n') :
    universalNewlines true s = universalNewlines false s := by
  cases s with
  | nil => rfl
  | cons c cs =>
      have hc : c ≠ '\n' := by simpa using h
      simp [universalNewlines, hc]

/-- The induction is on the first replacement. What it has put aside is only read by the second,
one character at a time. -/
theorem map_dropPairedReturns (done s : List Char) :
    (dropPairedReturns done s).map (fun c => if c = '\r' then '\n' else c) =
      done.reverse.map (fun c => if c = '\r' then '\n' else c) ++ universalNewlines false s := by
  induction done, s using dropPairedReturns.induct with
  | case1 done => simp [dropPairedReturns, universalNewlines]
  | case2 done cs ih =>
      have hpair : universalNewlines false ('\r' :: '\n' :: cs) =
          '\n' :: universalNewlines false cs := by simp [universalNewlines]
      rw [dropPairedReturns, ih, hpair]
      simp
  | case3 done c cs hpair ih =>
      rw [dropPairedReturns.eq_3 done c cs hpair, ih]
      by_cases hc : c = '\r'
      · subst hc
        -- No line feed follows, so nothing is left of the return when the next character is read.
        have hhead : cs.head? ≠ some '\n' := by
          intro hhead
          obtain ⟨rest, rfl⟩ := List.head?_eq_some_iff.mp hhead
          exact hpair rest rfl rfl
        have hlone : universalNewlines false ('\r' :: cs) = '\n' :: universalNewlines false cs := by
          rw [← universalNewlines_true hhead]
          simp [universalNewlines]
        rw [hlone]
        simp
      · have hkeep : universalNewlines false (c :: cs) = c :: universalNewlines false cs := by
          simp [universalNewlines, hc]
        rw [hkeep]
        simp [hc]

/-- **Two replacements make one pass.** -/
theorem normalizeLineEnds_eq (s : List Char) : normalizeLineEnds s = universalNewlines false s := by
  unfold normalizeLineEnds
  rw [map_dropPairedReturns]
  simp

example : normalizeLineEnds ['\r', '\r', '\n', '\n', '\r'] = ['\n', '\n', '\n', '\n'] := by decide

theorem withUniformLineEnds_eq (s : String) :
    withUniformLineEnds s = String.ofList (universalNewlines false s.toList) := by
  unfold withUniformLineEnds
  rw [normalizeLineEnds_eq]

theorem withUniformLineEnds_idem (s : String) :
    withUniformLineEnds (withUniformLineEnds s) = withUniformLineEnds s :=
  withUniformLineEnds_of_returnFree (returnFree_withUniformLineEnds s)

/-! ## Texts put together -/

/-- What was read in front of a text, as far as the pass remembers it. -/
def remembered (afterReturn : Bool) : List Char := if afterReturn then ['\r'] else []

theorem universalNewlines_append_of {s t : List Char} {r : Bool}
    (h : (remembered r ++ s).getLast? = some '\r' → t.head? ≠ some '\n') :
    universalNewlines r (s ++ t) = universalNewlines r s ++ universalNewlines false t := by
  -- Each character decides what the pass remembers of it, so both states are kept general.
  induction s generalizing r with
  | nil =>
      cases r with
      | false => rfl
      | true => exact universalNewlines_true (h rfl)
  | cons c s ih =>
      have hlast : (c :: s).getLast? = some '\r' → t.head? ≠ some '\n' := by
        intro hlast
        apply h
        rw [List.getLast?_append, hlast, Option.some_or]
      rw [List.cons_append]
      by_cases hc : c = '\r'
      · subst hc
        have hbehind : universalNewlines true (s ++ t) =
            universalNewlines true s ++ universalNewlines false t := ih hlast
        simp only [universalNewlines, if_true, hbehind, List.cons_append]
      · have hkeep : universalNewlines false (s ++ t) =
            universalNewlines false s ++ universalNewlines false t := by
          apply ih
          intro hs
          apply hlast
          rw [List.getLast?_cons, show s.getLast? = some '\r' from hs, Option.getD_some]
        simp only [universalNewlines, if_neg hc, hkeep]
        split <;> rfl

/-- A text can be made uniform in two parts if no pair is cut by it. -/
theorem universalNewlines_append {s t : List Char}
    (h : s.getLast? = some '\r' → t.head? ≠ some '\n') :
    universalNewlines false (s ++ t) = universalNewlines false s ++ universalNewlines false t :=
  universalNewlines_append_of h

theorem universalNewlines_of_returnFree {s : List Char} (h : ReturnFree s) :
    universalNewlines false s = s := by
  rw [← normalizeLineEnds_eq, normalizeLineEnds_of_returnFree h]

/-- The character ends a line, alone or as a part of a pair. -/
def IsLineEnd (c : Char) : Prop := c = '\n' ∨ c = '\r'

theorem universalNewlines_singleton {c : Char} (hc : IsLineEnd c) :
    universalNewlines false [c] = ['\n'] := by
  rcases hc with rfl | rfl <;> rfl

/-- Behind the end of a line a line starts once the line ends are uniform. -/
theorem atLineStart_universalNewlines {s : List Char} (h : ∀ c ∈ s.getLast?, IsLineEnd c) :
    AtLineStart (universalNewlines false s) := by
  rcases List.eq_nil_or_concat' s with rfl | ⟨front, c, rfl⟩
  · exact Or.inl rfl
  · have hc : IsLineEnd c := h c (by simp)
    right
    by_cases hpair : front.getLast? = some '\r' ∧ c = '\n'
    · -- The two of a pair end one line; what is in front of them is closed by both at once.
      obtain ⟨hlast, rfl⟩ := hpair
      obtain ⟨front, rfl⟩ := List.getLast?_eq_some_iff.mp hlast
      rw [List.append_assoc, List.singleton_append, universalNewlines_append (by simp)]
      simp [universalNewlines]
    · have hapart : front.getLast? = some '\r' → [c].head? ≠ some '\n' := by simpa using hpair
      rw [universalNewlines_append hapart, universalNewlines_singleton hc]
      simp

theorem atLineEnd_universalNewlines {s : List Char} (h : ∀ c ∈ s.head?, IsLineEnd c) :
    AtLineEnd (universalNewlines false s) := by
  cases s with
  | nil => exact Or.inl rfl
  | cons c s =>
      right
      rcases h c rfl with rfl | rfl <;> simp [universalNewlines]

/-! ## Styles -/

/-- How lines are ended in a file. -/
inductive LineStyle where
  | feed
  | returnAndFeed
  | loneReturn
  deriving DecidableEq, Repr

namespace LineStyle

def ends : LineStyle → List Char
  | .feed => ['\n']
  | .returnAndFeed => ['\r', '\n']
  | .loneReturn => ['\r']

/-- A text with every line feed written in the style. -/
def write (style : LineStyle) (s : List Char) : List Char :=
  s.flatMap fun c => if c = '\n' then style.ends else [c]

def writeText (style : LineStyle) (s : String) : String := String.ofList (style.write s.toList)

theorem write_cons_newline (style : LineStyle) (s : List Char) :
    style.write ('\n' :: s) = style.ends ++ style.write s := by
  simp [write]

theorem write_cons (style : LineStyle) {c : Char} (h : c ≠ '\n') (s : List Char) :
    style.write (c :: s) = c :: style.write s := by
  simp [write, h]

/-- Lone returns leave no line feed that could join one of them. -/
theorem head?_write_loneReturn (s : List Char) : (loneReturn.write s).head? ≠ some '\n' := by
  cases s with
  | nil => simp [write]
  | cons c cs =>
      by_cases hc : c = '\n'
      · subst hc
        rw [write_cons_newline]
        simp [ends]
      · rw [write_cons _ hc]
        simp [hc]

theorem universalNewlines_write (style : LineStyle) {s : List Char} (h : ReturnFree s) :
    universalNewlines false (style.write s) = s := by
  induction s with
  | nil => rfl
  | cons c cs ih =>
      have hc : c ≠ '\r' := fun e => h (e ▸ List.mem_cons_self)
      have hcs : ReturnFree cs := fun m => h (List.mem_cons_of_mem _ m)
      by_cases hn : c = '\n'
      · subst hn
        rw [write_cons_newline]
        cases style with
        | feed => simp [ends, universalNewlines, ih hcs]
        | returnAndFeed => simp [ends, universalNewlines, ih hcs]
        | loneReturn =>
            simp [ends, universalNewlines, universalNewlines_true (head?_write_loneReturn cs),
              ih hcs]
      · rw [write_cons style hn]
        simp [universalNewlines, hc, hn, ih hcs]

/-- **The style of a text cannot be seen once its line ends are uniform.** -/
theorem withUniformLineEnds_writeText (style : LineStyle) {s : String} (h : ReturnFree s.toList) :
    withUniformLineEnds (style.writeText s) = s := by
  rw [withUniformLineEnds_eq, writeText, String.toList_ofList, style.universalNewlines_write h,
    String.ofList_toList]

end LineStyle

end ContractAudit.Text
