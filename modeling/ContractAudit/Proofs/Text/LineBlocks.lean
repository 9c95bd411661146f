import ContractAudit.Evidence.SourceFile
import Mathlib.Data.List.Basic

/-!
# Blocks of lines

Whatever looks at a source looks at whole lines of it: at all of them, at the lines of a window, or
at one line after the other. A piece of a text is a *block of lines* if it starts where a line
starts and ends where a line ends (`IsLineBlock`); a window is one (`isLineBlock_windowText`). A
text *grows by lines* if lines are put in front of it or behind it (`AddsLines`); its own lines are
then among the lines of the new text (`AddsLines.mem_rawLines`).

Sources are looked at with uniform line ends, so carriage returns never get here: `ReturnFree`
texts are the only ones these lemmas speak of, and uniform line ends make every text one.
-/

namespace ContractAudit.Text

/-! ## Texts without carriage returns -/

/-- No carriage return stands in the text. -/
def ReturnFree (s : List Char) : Prop := '\r' ∉ s

theorem returnFree_normalizeLineEnds (s : List Char) : ReturnFree (normalizeLineEnds s) := by
  unfold ReturnFree normalizeLineEnds
  rw [List.mem_map]
  rintro ⟨c, -, hc⟩
  split at hc
  · exact absurd hc (by decide)
  · contradiction

theorem returnFree_withUniformLineEnds (s : String) :
    ReturnFree (withUniformLineEnds s).toList := by
  unfold withUniformLineEnds
  rw [String.toList_ofList]
  exact returnFree_normalizeLineEnds _

theorem dropPairedReturns_of_returnFree : ∀ {s : List Char} (done : List Char), ReturnFree s →
    dropPairedReturns done s = done.reverse ++ s
  | [], done, _ => by simp [dropPairedReturns]
  | c :: cs, done, h => by
      have hc : c ≠ '\r' := fun e => h (e ▸ List.mem_cons_self)
      have hcs : ReturnFree cs := fun m => h (List.mem_cons_of_mem _ m)
      have hstep : dropPairedReturns done (c :: cs) = dropPairedReturns (c :: done) cs := by
        rw [dropPairedReturns]
        rintro rest rfl
        exact absurd rfl hc
      rw [hstep, dropPairedReturns_of_returnFree (c :: done) hcs]
      simp

/-- A text without carriage returns has uniform line ends already. -/
theorem normalizeLineEnds_of_returnFree {s : List Char} (h : ReturnFree s) :
    normalizeLineEnds s = s := by
  unfold normalizeLineEnds
  rw [dropPairedReturns_of_returnFree [] h, List.reverse_nil, List.nil_append]
  have hkeep : ∀ c ∈ s, (if c = '\r' then '\n' else c) = c := by
    intro c hc
    have hne : c ≠ '\r' := fun e => h (e ▸ hc)
    rw [if_neg hne]
  rw [List.map_congr_left hkeep, List.map_id']

theorem withUniformLineEnds_of_returnFree {s : String} (h : ReturnFree s.toList) :
    withUniformLineEnds s = s := by
  unfold withUniformLineEnds
  rw [normalizeLineEnds_of_returnFree h, String.ofList_toList]

/-! ## Lines -/

theorem rawLines_cons_newline (s : List Char) : rawLines ('\n' :: s) = [] :: rawLines s := by
  simp [rawLines]

theorem rawLines_cons {c : Char} (h : c ≠ '\n') (s : List Char) :
    rawLines (c :: s) = match rawLines s with
      | [] => [[c]]
      | l :: rest => (c :: l) :: rest := by
  unfold rawLines
  rw [List.foldr_cons]
  exact if_neg h

theorem rawLines_eq_nil_iff {s : List Char} : rawLines s = [] ↔ s = [] := by
  cases s with
  | nil => simp [rawLines]
  | cons c cs =>
      by_cases hc : c = '\n'
      · subst hc
        simp [rawLines_cons_newline]
      · rw [rawLines_cons hc]
        split <;> simp

/-- A line of a text is a line behind its first character, or that character begins it: a line feed
closes an empty line, and any other is alone or put in front of what was a line. -/
theorem mem_rawLines_cons {c : Char} {s l : List Char} (h : l ∈ rawLines (c :: s)) :
    l ∈ rawLines s ∨ c = '\n' ∧ l = [] ∨
      c ≠ '\n' ∧ (l = [c] ∨ ∃ l' ∈ rawLines s, l = c :: l') := by
  by_cases hc : c = '\n'
  · subst hc
    rw [rawLines_cons_newline] at h
    rcases List.mem_cons.mp h with rfl | h
    · exact .inr (.inl ⟨rfl, rfl⟩)
    · exact .inl h
  · rw [rawLines_cons hc] at h
    cases hs : rawLines s with
    | nil =>
        rw [hs] at h
        exact .inr (.inr ⟨hc, .inl (List.mem_singleton.mp h)⟩)
    | cons first rest =>
        rw [hs] at h
        rcases List.mem_cons.mp h with rfl | h
        · exact .inr (.inr ⟨hc, .inr ⟨first, List.mem_cons_self, rfl⟩⟩)
        · exact .inl (List.mem_cons_of_mem _ h)

/-- The lines hold no characters but those of the text. -/
theorem mem_of_mem_rawLines {s l : List Char} {c : Char} (hl : l ∈ rawLines s) (hc : c ∈ l) :
    c ∈ s := by
  induction s generalizing l with
  | nil => simp [rawLines] at hl
  | cons d ds ih =>
      rcases mem_rawLines_cons hl with hl | ⟨-, rfl⟩ | ⟨-, rfl | ⟨l', hl', rfl⟩⟩
      · exact List.mem_cons_of_mem _ (ih hl hc)
      · cases hc
      · exact List.mem_singleton.mp hc ▸ List.mem_cons_self
      · rcases List.mem_cons.mp hc with rfl | hc
        · exact List.mem_cons_self
        · exact List.mem_cons_of_mem _ (ih hl' hc)

theorem chompReturn_of_returnFree {l : List Char} (h : ReturnFree l) : chompReturn l = l := by
  unfold chompReturn
  rw [if_neg]
  intro hlast
  exact h (List.mem_of_getLast? hlast)

/-- Without carriage returns the lines are what stands between the line feeds. -/
theorem lines_of_returnFree {s : List Char} (h : ReturnFree s) : lines s = rawLines s := by
  have hchomp : ∀ l ∈ rawLines s, chompReturn l = l := fun l hl =>
    chompReturn_of_returnFree fun hr => h (mem_of_mem_rawLines hl hr)
  unfold lines
  dsimp only
  -- A last line without a line feed is kept as it is, the others lose a return they do not have.
  split
  · rw [List.map_congr_left hchomp, List.map_id']
  · have hinit : (rawLines s).dropLast.map chompReturn = (rawLines s).dropLast := by
      rw [List.map_congr_left fun l hl => hchomp l (List.dropLast_subset _ hl), List.map_id']
    rw [hinit]
    cases hlast : (rawLines s).getLast? with
    | none => simp [List.getLast?_eq_none_iff.mp hlast]
    | some l => exact List.dropLast_append_getLast? l hlast

/-! ## Blocks of lines -/

/-- What stands behind this text starts a line. -/
def AtLineStart (before : List Char) : Prop := before = [] ∨ before.getLast? = some '\n'

/-- What stands in front of this text ends a line. -/
def AtLineEnd (behind : List Char) : Prop := behind = [] ∨ behind.head? = some '\n'

/-- A piece of a text that starts with a line and ends with a line. -/
def IsLineBlock (w s : List Char) : Prop :=
  ∃ before behind, s = before ++ w ++ behind ∧ AtLineStart before ∧ AtLineEnd behind

theorem isLineBlock_refl (s : List Char) : IsLineBlock s s :=
  ⟨[], [], by simp, Or.inl rfl, Or.inl rfl⟩

/-- A line feed behind a text leaves its blocks what they are. -/
theorem IsLineBlock.append_newline {w s : List Char} (h : IsLineBlock w s) :
    IsLineBlock w (s ++ ['\n']) := by
  obtain ⟨before, behind, rfl, hb, he⟩ := h
  refine ⟨before, behind ++ ['\n'], by simp, hb, Or.inr ?_⟩
  rcases he with rfl | he
  · rfl
  · rw [List.head?_append, he]
    rfl

theorem joinLines_singleton (l : List Char) : joinLines [l] = l := List.intercalate_singleton

theorem joinLines_append {ls ls' : List (List Char)} (h : ls ≠ []) (h' : ls' ≠ []) :
    joinLines (ls ++ ls') = joinLines ls ++ '\n' :: joinLines ls' := by
  unfold joinLines
  induction ls with
  | nil => exact absurd rfl h
  | cons l rest ih =>
      by_cases hrest : rest = []
      · subst hrest
        rw [List.singleton_append, List.intercalate_cons_of_ne_nil h', List.intercalate_singleton]
        simp
      · rw [List.cons_append, List.intercalate_cons_of_ne_nil (by simp [hrest]), ih hrest,
          List.intercalate_cons_of_ne_nil hrest]
        simp

theorem joinLines_cons (l : List Char) {ls : List (List Char)} (h : ls ≠ []) :
    joinLines (l :: ls) = l ++ '\n' :: joinLines ls := by
  have happend := joinLines_append (List.cons_ne_nil l []) h
  rw [joinLines_singleton] at happend
  exact happend

/-- Consecutive lines, joined, are a block of all lines joined. -/
theorem isLineBlock_joinLines (before : List (List Char)) {ls : List (List Char)}
    (behind : List (List Char)) (h : ls ≠ []) :
    IsLineBlock (joinLines ls) (joinLines (before ++ ls ++ behind)) := by
  have hbehind : ∃ rest, joinLines (ls ++ behind) = joinLines ls ++ rest ∧ AtLineEnd rest := by
    by_cases hb : behind = []
    · exact ⟨[], by simp [hb], Or.inl rfl⟩
    · exact ⟨_, joinLines_append h hb, Or.inr rfl⟩
  obtain ⟨rest, hrest, hend⟩ := hbehind
  by_cases hb : before = []
  · exact ⟨[], rest, by rw [hb, List.nil_append, List.nil_append, hrest], Or.inl rfl, hend⟩
  · refine ⟨joinLines before ++ ['\n'], rest, ?_, Or.inr (by simp), hend⟩
    rw [List.append_assoc, joinLines_append hb (by simp [h]), hrest]
    simp

/-- The lines put together again give the text, up to a final line feed. -/
theorem joinLines_rawLines : ∀ s : List Char,
    joinLines (rawLines s) = s ∨ joinLines (rawLines s) ++ ['\n'] = s
  | [] => Or.inl rfl
  | c :: cs => by
      have ih := joinLines_rawLines cs
      by_cases hc : c = '\n'
      · subst hc
        rw [rawLines_cons_newline]
        -- Joining loses the line feed exactly where no line follows it.
        by_cases hcs : cs = []
        · subst hcs
          exact Or.inr rfl
        · have hfirst : [([] : List Char)] ≠ [] := by simp
          have hjoin : joinLines ([] :: rawLines cs) = '\n' :: joinLines (rawLines cs) :=
            joinLines_append hfirst (mt rawLines_eq_nil_iff.mp hcs)
          rw [hjoin]
          simpa using ih
      · have hjoin : joinLines (rawLines (c :: cs)) = c :: joinLines (rawLines cs) := by
          rw [rawLines_cons hc]
          cases rawLines cs with
          | nil => rfl
          | cons l rest => exact List.intercalate_cons_cons_left
        rw [hjoin]
        simpa using ih

/-! ## Windows -/

/-- A window is what is left of the lines when some are taken away at both ends. -/
theorem windowLines_split (ls : List (List Char)) (line radius : Nat) : ∃ before behind,
    ls = before ++ Evidence.windowLines ls line radius ++ behind ∧
    before.length =
      min (max (min line ls.length - radius) 1 - 1) (min (min line ls.length + radius) ls.length) ∧
    behind.length = ls.length - min (min line ls.length + radius) ls.length := by
  have hsplit : ∀ first last, ls = (ls.take last).take first ++ (ls.take last).drop first ++
      ls.drop last := by
    intro first last
    rw [List.take_append_drop, List.take_append_drop]
  refine ⟨_, _, hsplit _ _, ?_, List.length_drop⟩
  rw [List.length_take, List.length_take, Nat.min_eq_left (Nat.min_le_right _ _)]

/-- A window is never empty unless the text is: its centre is a line of the text. -/
theorem windowLines_ne_nil {ls : List (List Char)} {line radius : Nat} (h : ls ≠ [])
    (hr : 0 < line + radius) : Evidence.windowLines ls line radius ≠ [] := by
  have hpos : 0 < ls.length := List.length_pos_of_ne_nil h
  apply List.ne_nil_of_length_pos
  unfold Evidence.windowLines
  simp only [List.length_drop, List.length_take]
  omega

/-- **A window is a block of lines**, wherever its line lies, also behind the end of the text. -/
theorem isLineBlock_windowText {s : String} {line radius : Nat} (h : ReturnFree s.toList)
    (hr : 0 < line + radius) :
    IsLineBlock (Evidence.windowText s line radius).toList s.toList := by
  unfold Evidence.windowText
  rw [String.toList_ofList, lines_of_returnFree h]
  by_cases hs : s.toList = []
  · have hempty : joinLines (Evidence.windowLines (rawLines []) line radius) = [] := by
      simp [rawLines, Evidence.windowLines, joinLines]
    rw [hs, hempty]
    exact isLineBlock_refl []
  · have hne : Evidence.windowLines (rawLines s.toList) line radius ≠ [] :=
      windowLines_ne_nil (mt rawLines_eq_nil_iff.mp hs) hr
    obtain ⟨before, behind, hsplit, -⟩ := windowLines_split (rawLines s.toList) line radius
    have hblock := isLineBlock_joinLines before behind hne
    rw [← hsplit] at hblock
    -- The lines joined are the text, or the text without its final line feed.
    rcases joinLines_rawLines s.toList with hjoin | hjoin
    · rw [hjoin] at hblock
      exact hblock
    · have hlonger := hblock.append_newline
      rw [hjoin] at hlonger
      exact hlonger

/-! ## Added lines -/

/-- The second text is the first with lines put in front of it, behind it, or both. -/
def AddsLines (s t : List Char) : Prop :=
  ∃ above below, t = above ++ s ++ below ∧ AtLineStart above ∧
    (AtLineEnd below ∨ s.getLast? = some '\n')

theorem AddsLines.infix {s t : List Char} (h : AddsLines s t) : s <:+: t := by
  obtain ⟨above, below, rfl, -⟩ := h
  exact ⟨above, below, rfl⟩

theorem rawLines_snoc_append (a b : List Char) :
    rawLines (a ++ '\n' :: b) = rawLines (a ++ ['\n']) ++ rawLines b := by
  induction a with
  | nil => simp [rawLines_cons_newline, rawLines_eq_nil_iff.mpr]
  | cons c cs ih =>
      by_cases hc : c = '\n'
      · subst hc
        simp only [List.cons_append, rawLines_cons_newline, ih]
      · rw [List.cons_append, List.cons_append, rawLines_cons hc, rawLines_cons hc, ih]
        cases hcs : rawLines (cs ++ ['\n']) with
        | nil => simp [rawLines_eq_nil_iff] at hcs
        | cons l rest => rfl

/-- Behind the end of a line the lines of a text start anew. -/
theorem rawLines_append {a : List Char} (h : AtLineStart a) (b : List Char) :
    rawLines (a ++ b) = rawLines a ++ rawLines b := by
  rcases h with rfl | h
  · rfl
  · obtain ⟨a, rfl⟩ := List.getLast?_eq_some_iff.mp h
    rw [List.append_assoc, List.singleton_append]
    exact rawLines_snoc_append a b

/-- A final line feed changes no line; at most it closes an empty one. -/
theorem rawLines_append_newline (s : List Char) :
    rawLines (s ++ ['\n']) = rawLines s ∨ rawLines (s ++ ['\n']) = rawLines s ++ [[]] := by
  induction s with
  | nil => exact Or.inr rfl
  | cons c cs ih =>
      by_cases hc : c = '\n'
      · subst hc
        simpa only [List.cons_append, rawLines_cons_newline, List.cons.injEq, true_and] using ih
      · rw [List.cons_append, rawLines_cons hc, rawLines_cons hc]
        cases hcs : rawLines cs with
        | nil =>
            rw [rawLines_eq_nil_iff.mp hcs]
            exact Or.inl rfl
        | cons l rest =>
            rw [hcs] at ih
            rcases ih with ih | ih
            · exact Or.inl (by rw [ih])
            · exact Or.inr (by rw [ih]; rfl)

/-- The lines of a text stay lines when lines are added. -/
theorem AddsLines.mem_rawLines {s t l : List Char} (h : AddsLines s t) (hl : l ∈ rawLines s) :
    l ∈ rawLines t := by
  obtain ⟨above, below, rfl, habove, hbelow⟩ := h
  rw [List.append_assoc, rawLines_append habove]
  apply List.mem_append_right
  -- Nothing is added behind, or a new line, or text behind the end of the last line.
  rcases hbelow with (rfl | hbelow) | hlast
  · rwa [List.append_nil]
  · obtain ⟨rest, rfl⟩ := List.head?_eq_some_iff.mp hbelow
    rw [rawLines_snoc_append]
    apply List.mem_append_left
    rcases rawLines_append_newline s with heq | heq
    · rwa [heq]
    · rw [heq]
      exact List.mem_append_left _ hl
  · rw [rawLines_append (Or.inr hlast)]
    exact List.mem_append_left _ hl

end ContractAudit.Text
