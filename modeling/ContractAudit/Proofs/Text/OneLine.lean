import ContractAudit.Location
import ContractAudit.Proofs.Text.LineBlocks
import ContractAudit.Proofs.Text.Trimming
import ContractAudit.Report.Text
import Mathlib.Algebra.GroupWithZero.Nat
import Mathlib.Data.List.Count
import Mathlib.Data.List.Induction

/-!
# Texts on one line

A text without line feeds stays on one line, and so does what is put together from such texts or cut
out of one. A text made of lines has them for its lines exactly if each of them is such a text; a line
feed in one of them cuts it in two (`rawLines_linesText_iff`, `length_rawLines_linesText`). The lines
of any text are its blocks without line feeds (`isLineBlock_of_mem_rawLines`,
`mem_rawLines_of_isLineBlock`), and every place in it is in such a line (`exists_atLineStart`,
`exists_atLineEnd`).
-/

namespace ContractAudit

/-- The text holds no line feed. -/
def IsOneLine (s : String) : Prop := '\n' ∉ s.toList

namespace IsOneLine

variable {s t : String}

theorem of_subset (h : IsOneLine t) (hst : s.toList ⊆ t.toList) : IsOneLine s :=
  fun hs => h (hst hs)

theorem ofList_of_subset {cs : List Char} (h : IsOneLine t) (hst : cs ⊆ t.toList) :
    IsOneLine (String.ofList cs) := h.of_subset (by simpa using hst)

/-- A fixed text is looked through by evaluation. -/
theorem literal {cs : List Char} (h : cs.all (· != '\n') = true) : IsOneLine (String.ofList cs) := by
  intro hmem
  rw [String.toList_ofList] at hmem
  simpa using List.all_eq_true.mp h '\n' hmem

theorem append (hs : IsOneLine s) (ht : IsOneLine t) : IsOneLine (s ++ t) := by
  intro hmem
  rw [String.toList_append, List.mem_append] at hmem
  exact hmem.elim hs ht

/-- A text between two fixed ones. -/
theorem enclosed {before behind : List Char} (h : IsOneLine s)
    (hbefore : before.all (· != '\n') = true) (hbehind : behind.all (· != '\n') = true) :
    IsOneLine (String.ofList before ++ s ++ String.ofList behind) :=
  ((literal hbefore).append h).append (literal hbehind)

theorem repr_nat (n : Nat) : IsOneLine n.repr := by
  intro h
  have hmem : '\n' ∈ Nat.toDigits 10 n := by simpa using h
  exact absurd (Nat.isDigit_of_mem_toDigits (by decide) (by decide) hmem) (by decide)

theorem joinWith {sep : String} {parts : List String} (hsep : IsOneLine sep)
    (h : ∀ part ∈ parts, IsOneLine part) : IsOneLine (Text.joinWith sep parts) := by
  unfold Text.joinWith
  induction parts with
  | nil =>
      rw [String.intercalate_nil]
      exact literal rfl
  | cons part parts ih =>
      obtain ⟨hpart, hparts⟩ := List.forall_mem_cons.mp h
      cases parts with
      | nil => rwa [String.intercalate_singleton]
      | cons next parts =>
          rw [String.intercalate_cons_cons]
          exact (hpart.append hsep).append (ih hparts)

end IsOneLine

/-! ## Cutting -/

namespace Text

theorem trimBoth_subset (s : List Char) : trimBoth s ⊆ s := (trimBoth_isInfix s).subset

theorem isOneLine_trim {s : String} (h : IsOneLine s) : IsOneLine (trim s) :=
  h.ofList_of_subset (trimBoth_subset _)

theorem isOneLine_of_nonBlank? {s t : String} (h : IsOneLine (trim s)) (ht : nonBlank? s = some t) :
    IsOneLine t := by
  obtain ⟨-, rfl⟩ := nonBlank?_eq_some_iff.mp ht
  exact h

theorem cutFirst_subset {p : Char → Bool} {s a b : List Char} (h : cutFirst p s = some (a, b)) :
    a ⊆ s ∧ b ⊆ s := by
  obtain ⟨c, -, -, rfl⟩ := cutFirst_eq_some h
  exact ⟨List.subset_append_left _ _,
    List.Subset.trans (List.subset_cons_self _ _) (List.subset_append_right _ _)⟩

theorem cutLast_subset {p : Char → Bool} {s a b : List Char} (h : cutLast p s = some (a, b)) :
    a ⊆ s ∧ b ⊆ s := by
  obtain ⟨c, -, -, rfl⟩ := cutLast_eq_some h
  exact ⟨List.subset_append_left _ _,
    List.Subset.trans (List.subset_cons_self _ _) (List.subset_append_right _ _)⟩

end Text

namespace FilePath

theorem dropSlack_suffix (s : List Char) : dropSlack s <:+ s := by
  fun_induction dropSlack s with
  | case1 rest ih => exact ih.trans (List.suffix_cons _ _)
  | case2 rest ih => exact ih.trans ((List.suffix_cons _ _).trans (List.suffix_cons _ _))
  | case3 => exact List.nil_suffix
  | case4 rest => exact List.suffix_refl _

theorem dropSlack_subset (s : List Char) : dropSlack s ⊆ s := (dropSlack_suffix s).subset

theorem dropSlackEnd_subset (s : List Char) : dropSlackEnd s ⊆ s := by
  intro c hc
  exact List.mem_reverse.mp (dropSlack_subset _ (List.mem_reverse.mp hc))

theorem repeat_dropComponent_subset (n : Nat) (s : List Char) : Nat.repeat dropComponent n s ⊆ s := by
  induction n with
  | zero => exact List.Subset.refl _
  | succ n ih =>
      intro c hc
      have hslack : c ∈ dropSlack (Nat.repeat dropComponent n s) :=
        (List.dropWhile_sublist _).subset hc
      exact ih (dropSlack_subset _ hslack)

theorem splitLead_subset (s : List Char) : (splitLead s).2.1 ⊆ s ∧ (splitLead s).2.2 ⊆ s := by
  unfold splitLead
  split <;> simp

/-- What is left of a path below another has only characters of the path. -/
theorem behind_subset (p : FilePath) (n : Nat) : (p.behind n).text.toList ⊆ p.text.toList := by
  obtain ⟨hlead, hbody⟩ := splitLead_subset p.text.toList
  unfold behind
  cases n with
  | zero =>
      simp only [String.toList_ofList]
      exact List.append_subset.mpr ⟨hlead, fun c hc => hbody (dropSlackEnd_subset _ hc)⟩
  | succ n =>
      simp only [String.toList_ofList]
      exact fun c hc => hbody (repeat_dropComponent_subset _ _
        (dropSlack_subset _ (dropSlackEnd_subset _ hc)))

theorem isOneLine_shown {p : FilePath} (h : IsOneLine p.text) (root : FilePath) :
    IsOneLine (p.shown root) := by
  unfold shown below?
  split
  · exact h.of_subset (p.behind_subset _)
  · exact h

theorem isOneLine_join {base p : FilePath} (hbase : IsOneLine base.text) (hp : IsOneLine p.text) :
    IsOneLine (base.join p).text := by
  unfold join
  split
  · exact hp
  · split
    · exact hbase.append hp
    · exact (hbase.append (.literal rfl)).append hp

end FilePath

/-- A location has only characters of its text without the blanks around it. -/
theorem Location.isOneLine_ofString {loc : String} (h : IsOneLine (Text.trim loc)) :
    IsOneLine (Location.ofString loc).path := by
  have htrim : Text.trimBoth loc.toList ⊆ (Text.trim loc).toList := by simp [Text.trim]
  unfold Location.ofString
  dsimp only
  split
  · rename_i path tail hcut
    split
    · exact h.ofList_of_subset (List.Subset.trans (Text.cutLast_subset hcut).1 htrim)
    · exact h.ofList_of_subset htrim
  · exact h.ofList_of_subset htrim

theorem Location.isOneLine_base {root : FilePath} {docRoot : String} (hroot : IsOneLine root.text)
    (hdoc : IsOneLine (Text.trim docRoot)) : IsOneLine (base root docRoot).text := by
  unfold base
  split
  · rename_i dir hdir
    exact FilePath.isOneLine_join hroot (Text.isOneLine_of_nonBlank? hdoc hdir)
  · exact hroot

theorem Location.isOneLine_resolve {root : FilePath} {docRoot loc : String}
    (hroot : IsOneLine root.text) (hdoc : IsOneLine (Text.trim docRoot))
    (hloc : IsOneLine (Text.trim loc)) :
    IsOneLine ((Location.ofString loc).resolve root docRoot).path.text := by
  unfold resolve
  exact FilePath.isOneLine_join (isOneLine_base hroot hdoc) (isOneLine_ofString hloc)

/-! ## Lines of a text -/

namespace Text

theorem rawLines_line (l : List Char) (rest : List Char) (h : '\n' ∉ l) :
    rawLines (l ++ '\n' :: rest) = l :: rawLines rest := by
  induction l with
  | nil => exact rawLines_cons_newline rest
  | cons c l ih =>
      rw [List.mem_cons, not_or] at h
      rw [List.cons_append, rawLines_cons (Ne.symm h.1), ih h.2]

/-- A line feed inside a line cuts it in two. -/
theorem length_rawLines_line (l : List Char) (rest : List Char) :
    (rawLines (l ++ '\n' :: rest)).length = l.count '\n' + 1 + (rawLines rest).length := by
  induction l with
  | nil => simp [rawLines_cons_newline, Nat.add_comm]
  | cons c l ih =>
      by_cases hc : c = '\n'
      · subst hc
        rw [List.cons_append, rawLines_cons_newline, List.length_cons, ih, List.count_cons_self]
        omega
      · rw [List.cons_append, rawLines_cons hc, List.count_cons_of_ne hc]
        cases hl : rawLines (l ++ '\n' :: rest) with
        | nil => simp [rawLines_eq_nil_iff] at hl
        | cons first others =>
            rw [hl] at ih
            simpa using ih

theorem toList_linesText_cons (l : String) (ls : List String) :
    (linesText (l :: ls)).toList = l.toList ++ '\n' :: (linesText ls).toList := by
  simp [linesText, List.map_cons, String.join_cons]

theorem length_rawLines_linesText (ls : List String) : (rawLines (linesText ls).toList).length =
    ls.length + (ls.map fun l => l.toList.count '\n').sum := by
  induction ls with
  | nil => rfl
  | cons l ls ih =>
      rw [toList_linesText_cons, length_rawLines_line, ih, List.length_cons, List.map_cons,
        List.sum_cons]
      omega

theorem rawLines_linesText {ls : List String} (h : ∀ l ∈ ls, IsOneLine l) :
    rawLines (linesText ls).toList = ls.map String.toList := by
  induction ls with
  | nil => rfl
  | cons l ls ih =>
      obtain ⟨hl, hls⟩ := List.forall_mem_cons.mp h
      rw [toList_linesText_cons, rawLines_line _ _ hl, ih hls, List.map_cons]

/-- **The lines of a text made of lines are those lines** exactly if none of them holds a line feed. -/
theorem rawLines_linesText_iff {ls : List String} :
    rawLines (linesText ls).toList = ls.map String.toList ↔ ∀ l ∈ ls, IsOneLine l := by
  refine ⟨fun h l hl => ?_, rawLines_linesText⟩
  have hlength := length_rawLines_linesText ls
  rw [h, List.length_map] at hlength
  have hsum : (ls.map fun l => l.toList.count '\n').sum = 0 := by omega
  have hcount : l.toList.count '\n' = 0 :=
    List.sum_eq_zero_iff_forall_eq_nat.mp hsum _ (List.mem_map_of_mem hl)
  exact List.count_eq_zero.mp hcount

/-! ## Lines and blocks of lines -/

theorem newline_notMem_of_mem_rawLines {s l : List Char} (h : l ∈ rawLines s) : '\n' ∉ l := by
  induction s generalizing l with
  | nil => simp [rawLines] at h
  | cons c cs ih =>
      rcases mem_rawLines_cons h with h | ⟨-, rfl⟩ | ⟨hc, rfl | ⟨l', hl', rfl⟩⟩
      · exact ih h
      · exact List.not_mem_nil
      · simpa using Ne.symm hc
      · rw [List.mem_cons, not_or]
        exact ⟨Ne.symm hc, ih hl'⟩

/-- Every line is a block. -/
theorem isLineBlock_of_mem_rawLines {s l : List Char} (h : l ∈ rawLines s) : IsLineBlock l s := by
  obtain ⟨before, behind, hsplit⟩ := List.append_of_mem h
  have hblock := isLineBlock_joinLines before behind (List.cons_ne_nil l [])
  rw [List.append_assoc, List.singleton_append, ← hsplit, joinLines_singleton] at hblock
  rcases joinLines_rawLines s with hjoin | hjoin
  · rwa [hjoin] at hblock
  · rw [← hjoin]
    exact hblock.append_newline

/-- A block without line feeds is a line, unless it is empty. -/
theorem mem_rawLines_of_isLineBlock {s l : List Char} (h : IsLineBlock l s) (hl : '\n' ∉ l)
    (hne : l ≠ []) : l ∈ rawLines s := by
  obtain ⟨before, behind, rfl, hbefore, hbehind⟩ := h
  rw [List.append_assoc, rawLines_append hbefore]
  apply List.mem_append_right
  rcases hbehind with rfl | hhead
  · -- The end of the text closes the line as a line feed would.
    rw [List.append_nil]
    have hclosed : rawLines (l ++ ['\n']) = [l] := rawLines_line l [] hl
    rcases rawLines_append_newline l with heq | heq
    · rw [← heq, hclosed]
      exact List.mem_singleton_self l
    · rw [hclosed] at heq
      have hempty : rawLines l = [] := by
        have hlength := congrArg List.length heq
        rw [List.length_singleton, List.length_append, List.length_singleton] at hlength
        exact List.eq_nil_of_length_eq_zero (by omega)
      exact absurd (rawLines_eq_nil_iff.mp hempty) hne
  · obtain ⟨rest, rfl⟩ := List.head?_eq_some_iff.mp hhead
    rw [rawLines_line l rest hl]
    exact List.mem_cons_self

/-- Every place of a text has the start of its line in front of it. -/
theorem exists_atLineStart (before : List Char) :
    ∃ lines start, before = lines ++ start ∧ AtLineStart lines ∧ '\n' ∉ start := by
  induction before using List.reverseRecOn with
  | nil => exact ⟨[], [], rfl, Or.inl rfl, by simp⟩
  | append_singleton s c ih =>
      by_cases hc : c = '\n'
      · subst hc
        exact ⟨s ++ ['\n'], [], by simp, Or.inr (by simp), by simp⟩
      · obtain ⟨lines, start, rfl, hlines, hstart⟩ := ih
        refine ⟨lines, start ++ [c], List.append_assoc lines start [c], hlines, ?_⟩
        rw [List.mem_append, List.mem_singleton, not_or]
        exact ⟨hstart, Ne.symm hc⟩

/-- Every place of a text has the end of its line behind it. -/
theorem exists_atLineEnd (behind : List Char) :
    ∃ rest lines, behind = rest ++ lines ∧ AtLineEnd lines ∧ '\n' ∉ rest := by
  induction behind with
  | nil => exact ⟨[], [], rfl, Or.inl rfl, by simp⟩
  | cons c s ih =>
      by_cases hc : c = '\n'
      · subst hc
        exact ⟨[], '\n' :: s, rfl, Or.inr rfl, by simp⟩
      · obtain ⟨rest, lines, rfl, hlines, hrest⟩ := ih
        refine ⟨c :: rest, lines, rfl, hlines, ?_⟩
        rw [List.mem_cons, not_or]
        exact ⟨Ne.symm hc, hrest⟩

end Text

end ContractAudit
