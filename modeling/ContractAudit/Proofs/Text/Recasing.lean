import ContractAudit.Evidence.ForeignKey
import ContractAudit.Proofs.Text.CaseVariants
import ContractAudit.Proofs.Text.LineEnds

/-!
# Recased texts

A text is recased by changing the case of ASCII letters in it and nothing else (`Recased`). Most of
what is asked about a character does not depend on its case (`CaseBlind`), and to know that it is
enough to look at ASCII (`caseBlind_of_ascii`). Blanks, line ends and signs are such questions, so
cutting a text at them and changing its case can be done in either order: recased texts have recased
lines and windows, and recased trimmed names. Folding is such a question too, so a recased text is a
case variant (`Recased.sameUpToCase`), but the long s is a case variant of `s` that no recasing
makes.
-/

namespace ContractAudit

namespace Text

/-! ## Questions that do not depend on case -/

/-- The answer is the same for a letter of ASCII in both cases. -/
def CaseBlind {α : Type} (f : Char → α) : Prop := ∀ c, f c.toLower = f c

theorem toLower_of_not_isAscii {c : Char} (h : ¬ IsAscii c) : c.toLower = c := by
  unfold Char.toLower
  rw [dif_neg]
  rintro ⟨-, hlast⟩
  apply h
  have hcode : c.toNat ≤ 90 := hlast
  unfold IsAscii
  omega

/-- Outside ASCII there is nothing to look at. -/
theorem caseBlind_of_ascii {α : Type} {f : Char → α}
    (h : ∀ n < 128, f (Char.ofNat n).toLower = f (Char.ofNat n)) : CaseBlind f := by
  intro c
  by_cases hc : IsAscii c
  · exact forall_ascii (P := fun c => f c.toLower = f c) h hc
  · rw [toLower_of_not_isAscii hc]

namespace CaseBlind

variable {α : Type} {f : Char → α}

theorem eq_of_toLower (hf : CaseBlind f) {c d : Char} (h : c.toLower = d.toLower) : f c = f d := by
  rw [← hf c, h, hf d]

theorem comp_toLower (hf : CaseBlind f) : f ∘ Char.toLower = f := funext hf

/-- Whatever is made of the answer does not depend on case either. -/
theorem map {β : Type} (hf : CaseBlind f) (g : α → β) : CaseBlind fun c => g (f c) :=
  fun c => congrArg g (hf c)

end CaseBlind

theorem caseBlind_foldCase : CaseBlind foldCase := caseBlind_of_ascii (by decide)

theorem caseBlind_isBlank : CaseBlind isBlank := caseBlind_of_ascii (by decide)

theorem caseBlind_isWordChar : CaseBlind isWordChar := caseBlind_of_ascii (by decide)

/-- Only a character without case is changed into itself. -/
theorem toLower_eq_iff {c d : Char} (hd : isCaseless d = true) : c.toLower = d ↔ c = d := by
  unfold isCaseless at hd
  rw [Bool.and_eq_true, decide_eq_true_eq, Bool.not_eq_true'] at hd
  have hself : d.toLower = d := toLower_of_not_isAlpha hd.1 hd.2
  constructor
  · intro h
    by_cases hc : IsAscii c
    · have hletter : c.isAlpha = false := by rw [← isAlpha_toLower hc, h, hd.2]
      rw [← toLower_of_not_isAlpha hc hletter, h]
    · rw [← toLower_of_not_isAscii hc, h]
  · rintro rfl
    exact hself

/-! ## Recasing -/

/-- The texts differ in the case of ASCII letters at most. -/
def Recased (s t : List Char) : Prop := s.map Char.toLower = t.map Char.toLower

instance (s t : List Char) : Decidable (Recased s t) := by
  unfold Recased
  infer_instance

namespace Recased

variable {s t : List Char}

theorem symm (h : Recased s t) : Recased t s := Eq.symm h

/-- An answer that does not depend on case is the same all along the text. -/
theorem map_eq {α : Type} {f : Char → α} (hf : CaseBlind f) (h : Recased s t) :
    s.map f = t.map f := by
  rw [← hf.comp_toLower, ← List.map_map, ← List.map_map, h]

/-- **A recased text is a case variant.** -/
theorem sameUpToCase (h : Recased s t) : SameUpToCase s t := h.map_eq caseBlind_foldCase

theorem eq_nil_iff (h : Recased s t) : s = [] ↔ t = [] := by
  rw [← List.map_eq_nil_iff (f := Char.toLower), h, List.map_eq_nil_iff]

theorem isEmpty_eq {s t : String} (h : Recased s.toList t.toList) : t.isEmpty = s.isEmpty := by
  rw [Bool.eq_iff_iff, String.isEmpty_iff, String.isEmpty_iff, ← String.toList_eq_nil_iff,
    ← String.toList_eq_nil_iff, h.eq_nil_iff]

/-- A text that is cut in two is recased in two parts. -/
theorem exists_append {a b : List Char} (h : Recased (a ++ b) t) :
    ∃ u v, t = u ++ v ∧ Recased a u ∧ Recased b v := by
  unfold Recased at h
  rw [List.map_append] at h
  obtain ⟨u, v, rfl, hu, hv⟩ := List.map_eq_append_iff.mp h.symm
  exact ⟨u, v, rfl, hu.symm, hv.symm⟩

/-- What commutes with the change of case takes recased texts to recased texts. -/
theorem of_commutes {g : List Char → List Char}
    (hg : ∀ s, g (s.map Char.toLower) = (g s).map Char.toLower) (h : Recased s t) :
    Recased (g s) (g t) := by
  unfold Recased
  rw [← hg, ← hg, h]

end Recased

/-! ## Cutting -/

section

variable {p : Char → Bool} (hp : CaseBlind p)
include hp

theorem dropWhile_map_toLower (s : List Char) :
    (s.map Char.toLower).dropWhile p = (s.dropWhile p).map Char.toLower := by
  rw [List.dropWhile_map, hp.comp_toLower]

theorem takeWhile_map_toLower (s : List Char) :
    (s.map Char.toLower).takeWhile p = (s.takeWhile p).map Char.toLower := by
  rw [List.takeWhile_map, hp.comp_toLower]

end

theorem trimBoth_map_toLower (s : List Char) :
    trimBoth (s.map Char.toLower) = (trimBoth s).map Char.toLower := by
  unfold trimBoth trimRight trimLeft
  rw [dropWhile_map_toLower caseBlind_isBlank, ← List.map_reverse,
    dropWhile_map_toLower caseBlind_isBlank, List.map_reverse]

theorem recased_trim {s t : String} (h : Recased s.toList t.toList) :
    Recased (trim s).toList (trim t).toList := by
  unfold trim
  rw [String.toList_ofList, String.toList_ofList]
  exact h.of_commutes trimBoth_map_toLower

theorem isPrefixOf_map_toLower : ∀ {sep : List Char}, sep.all isCaseless = true →
    ∀ s : List Char, sep.isPrefixOf (s.map Char.toLower) = sep.isPrefixOf s
  | [], _, _ => by simp
  | _ :: _, _, [] => rfl
  | d :: sep, hsep, c :: s => by
      rw [List.all_cons, Bool.and_eq_true] at hsep
      obtain ⟨hd, hsep⟩ := hsep
      have hfirst : (d == c.toLower) = (d == c) := by
        rw [Bool.eq_iff_iff, beq_iff_eq, beq_iff_eq, eq_comm, toLower_eq_iff hd, eq_comm]
      rw [List.map_cons, List.isPrefixOf_cons_cons, List.isPrefixOf_cons_cons, hfirst,
        isPrefixOf_map_toLower hsep s]

/-- A cut at signs is found at the same place. -/
theorem cutLastAt_map_toLower {sep : List Char} (hsep : sep.all isCaseless = true)
    (s : List Char) : cutLastAt sep (s.map Char.toLower) =
      (cutLastAt sep s).map fun cut => (cut.1.map Char.toLower, cut.2.map Char.toLower) := by
  induction s with
  | nil => rfl
  | cons c s ih =>
      have hstart := isPrefixOf_map_toLower hsep (c :: s)
      rw [List.map_cons] at hstart ⊢
      unfold cutLastAt
      rw [ih]
      cases cutLastAt sep s with
      | some cut => rfl
      | none =>
          rw [Option.map_none]
          dsimp only
          rw [hstart]
          split
          · rw [Option.map_some, ← List.map_cons, ← List.map_drop]
            rfl
          · rfl

/-! ## Lines -/

theorem newline_isCaseless : isCaseless '\n' = true := by decide

theorem return_isCaseless : isCaseless '\r' = true := by decide

theorem universalNewlines_map_toLower (b : Bool) (s : List Char) :
    universalNewlines b (s.map Char.toLower) = (universalNewlines b s).map Char.toLower := by
  induction s generalizing b with
  | nil => rfl
  | cons c s ih =>
      rw [List.map_cons]
      unfold universalNewlines
      simp only [toLower_eq_iff return_isCaseless, toLower_eq_iff newline_isCaseless]
      split
      · rw [List.map_cons, ih]
        rfl
      · split
        · exact ih false
        · rw [List.map_cons, ih]

theorem recased_withUniformLineEnds {s t : String} (h : Recased s.toList t.toList) :
    Recased (withUniformLineEnds s).toList (withUniformLineEnds t).toList := by
  rw [withUniformLineEnds_eq, withUniformLineEnds_eq, String.toList_ofList, String.toList_ofList]
  exact h.of_commutes (universalNewlines_map_toLower false)

theorem rawLines_map_toLower (s : List Char) :
    rawLines (s.map Char.toLower) = (rawLines s).map (List.map Char.toLower) := by
  induction s with
  | nil => rfl
  | cons c s ih =>
      by_cases hc : c = '\n'
      · subst hc
        rw [List.map_cons, rawLines_cons_newline, List.map_cons, ← ih]
        exact rawLines_cons_newline _
      · rw [List.map_cons, rawLines_cons (mt (toLower_eq_iff newline_isCaseless).mp hc),
          rawLines_cons hc, ih]
        cases rawLines s <;> rfl

theorem joinLines_map_toLower (ls : List (List Char)) :
    joinLines (ls.map (List.map Char.toLower)) = (joinLines ls).map Char.toLower := by
  induction ls with
  | nil => rfl
  | cons l ls ih =>
      by_cases hls : ls = []
      · subst hls
        rw [List.map_cons, List.map_nil, joinLines_singleton, joinLines_singleton]
      · rw [List.map_cons, joinLines_cons _ (by simpa using hls), joinLines_cons _ hls, ih,
          List.map_append, List.map_cons]
        rfl

theorem windowLines_map (f : List Char → List Char) (ls : List (List Char)) (line radius : Nat) :
    Evidence.windowLines (ls.map f) line radius =
      (Evidence.windowLines ls line radius).map f := by
  unfold Evidence.windowLines
  rw [List.length_map, List.map_drop, List.map_take]

theorem chompReturn_map_toLower (l : List Char) :
    chompReturn (l.map Char.toLower) = (chompReturn l).map Char.toLower := by
  unfold chompReturn
  simp only [List.getLast?_map, Option.map_eq_some_iff, toLower_eq_iff return_isCaseless,
    exists_eq_right]
  split
  · exact List.map_dropLast.symm
  · rfl

theorem lines_map_toLower (s : List Char) :
    lines (s.map Char.toLower) = (lines s).map (List.map Char.toLower) := by
  have hchomp : ∀ ls : List (List Char), (ls.map (List.map Char.toLower)).map chompReturn =
      (ls.map chompReturn).map (List.map Char.toLower) := by
    intro ls
    rw [List.map_map, List.map_map]
    exact List.map_congr_left fun l _ => chompReturn_map_toLower l
  unfold lines
  simp only [rawLines_map_toLower, List.getLast?_map, Option.map_eq_some_iff,
    toLower_eq_iff newline_isCaseless, exists_eq_right]
  split
  · exact hchomp _
  · rw [← List.map_dropLast, hchomp, List.map_append]
    cases (rawLines s).getLast? <;> rfl

/-- The windows of recased texts are recased. -/
theorem recased_windowText {s t : String} (h : Recased s.toList t.toList) (line radius : Nat) :
    Recased (Evidence.windowText s line radius).toList
      (Evidence.windowText t line radius).toList := by
  unfold Evidence.windowText
  rw [String.toList_ofList, String.toList_ofList]
  refine h.of_commutes (g := fun cs => joinLines (Evidence.windowLines (lines cs) line radius)) ?_
  intro cs
  rw [lines_map_toLower, windowLines_map, joinLines_map_toLower]

end Text

/-! ## Foreign keys -/

namespace ForeignKey

open Text

theorem caseBlind_endsName : CaseBlind endsName := caseBlind_of_ascii (by decide)

/-- Recased entries name recased tables. -/
theorem targetChars_map_toLower (entry : List Char) :
    targetChars (entry.map Char.toLower) = (targetChars entry).map Char.toLower := by
  have harrow : ['-', '>'].all isCaseless = true := by decide
  have hname : CaseBlind fun c => !endsName c := caseBlind_endsName.map (!·)
  unfold targetChars
  rw [cutLastAt_map_toLower harrow]
  cases cutLastAt ['-', '>'] entry with
  | none =>
      show trimBoth ((trimBoth (entry.map Char.toLower)).takeWhile (!endsName ·)) = _
      rw [trimBoth_map_toLower, takeWhile_map_toLower hname, trimBoth_map_toLower]
  | some cut =>
      show trimBoth ((trimBoth (cut.2.map Char.toLower)).takeWhile (!endsName ·)) = _
      rw [trimBoth_map_toLower, takeWhile_map_toLower hname, trimBoth_map_toLower]

theorem recased_target {entry entry' : String} (h : Recased entry.toList entry'.toList) :
    Recased (target entry).toList (target entry').toList := by
  unfold target
  rw [String.toList_ofList, String.toList_ofList]
  exact h.of_commutes targetChars_map_toLower

end ForeignKey

end ContractAudit
