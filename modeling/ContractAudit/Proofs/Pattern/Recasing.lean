import ContractAudit.Proofs.Pattern.Pieces
import ContractAudit.Proofs.Text.Recasing

/-!
# Patterns and recased texts

A pattern that takes every character up to case (`ignoresCase`) matches a text exactly if it matches
every recasing of it (`occursIn_recased_iff`): a set up to case has all cases of a letter or none,
and neither the edges of lines nor those of words depend on case. A name up to case in a pattern may
be replaced by a case variant of it, whatever the rest of the pattern asks for
(`occursIn_variant_iff`). For a pattern made around a name the two together say that the case of the
name and of the text is of no matter (`found_recased`).
-/

namespace ContractAudit

open Text

/-- Up to case a set has a letter in both cases or in none. -/
theorem CharSet.caseBlind_has (set : CharSet) : CaseBlind fun c => set.has true c := by
  cases set with
  | literal d => exact caseBlind_foldCase.map (foldCase d == ·)
  | blank => exact caseBlind_isBlank
  | ranges negated rs =>
      intro c
      simp only [has, rangeHas, if_true, caseBlind_foldCase c]

namespace Pattern

/-! ## The case of the text -/

/-- Whether the pattern takes every character up to case. -/
def ignoresCase : Pattern → Bool
  | .char i _ => i
  | .seq p q => p.ignoresCase && q.ignoresCase
  | .alt p q => p.ignoresCase && q.ignoresCase
  | .star p => p.ignoresCase
  | _ => true

@[simp] theorem ignoresCase_ignoringCase (p : Pattern) : p.ignoringCase.ignoresCase = true := by
  induction p with
  | seq p q ihp ihq | alt p q ihp ihq =>
      unfold ignoringCase ignoresCase
      rw [ihp, ihq]
      rfl
  | star p ih => exact ih
  | _ => rfl

/-- The neighbours are the same up to the case of a letter. -/
def RecasedSide (x y : Option Char) : Prop := x.map Char.toLower = y.map Char.toLower

namespace RecasedSide

variable {x y : Option Char}

theorem or {x' y' : Option Char} (h : RecasedSide x y) (h' : RecasedSide x' y') :
    RecasedSide (x'.or x) (y'.or y) := by
  unfold RecasedSide at h h' ⊢
  rw [Option.map_or, Option.map_or, h, h']

theorem eq_some_iff {c : Char} (hc : isCaseless c = true) (h : RecasedSide x y) :
    x = some c ↔ y = some c := by
  have hside : ∀ z : Option Char, z.map Char.toLower = some c ↔ z = some c := by
    intro z
    simp only [Option.map_eq_some_iff, toLower_eq_iff hc, exists_eq_right]
  rw [← hside x, ← hside y, h]

theorem eq_none_iff (h : RecasedSide x y) : x = none ↔ y = none := by
  rw [← Option.map_eq_none_iff (f := Char.toLower), h, Option.map_eq_none_iff]

theorem startsLine_eq (h : RecasedSide x y) : startsLine x = startsLine y := by
  unfold startsLine
  simp only [h.eq_none_iff, h.eq_some_iff newline_isCaseless]

theorem any_eq {p : Char → Bool} (hp : CaseBlind p) (h : RecasedSide x y) :
    x.any p = y.any p := by
  have hside : ∀ z : Option Char, (z.map Char.toLower).any p = z.any p := by
    rintro (_ | c)
    · rfl
    · exact hp c
  rw [← hside x, ← hside y, h]

end RecasedSide

theorem recasedSide_head? {s t : List Char} (h : Recased s t) : RecasedSide s.head? t.head? := by
  unfold RecasedSide
  rw [← List.head?_map, ← List.head?_map, h]

theorem recasedSide_getLast? {s t : List Char} (h : Recased s t) :
    RecasedSide s.getLast? t.getLast? := by
  unfold RecasedSide
  rw [← List.getLast?_map, ← List.getLast?_map, h]

/-- **Up to case a match does not depend on the case of the text**, nor on that of its
neighbours. -/
theorem Matches.recased {l r l' r' : Option Char} {p : Pattern} {s s' : List Char}
    (h : Matches l p s r) (hp : p.ignoresCase = true) (hl : RecasedSide l l')
    (hs : Recased s s') (hr : RecasedSide r r') : Matches l' p s' r' := by
  induction h generalizing l' r' s' with
  | empty =>
      rw [hs.eq_nil_iff.mp rfl]
      exact .empty
  | @char l r i set c hset =>
      obtain ⟨d, rfl, hd⟩ := List.map_eq_singleton_iff.mp hs.symm
      have hi : i = true := hp
      subst hi
      have hblind : set.has true c = set.has true d := set.caseBlind_has.eq_of_toLower hd.symm
      rw [hblind] at hset
      exact .char hset
  | lineStart hstart =>
      rw [hs.eq_nil_iff.mp rfl]
      rw [hl.startsLine_eq] at hstart
      exact .lineStart hstart
  | lineEnd hend =>
      rw [hs.eq_nil_iff.mp rfl]
      have hside : endsLine _ = endsLine _ := hr.startsLine_eq
      rw [hside] at hend
      exact .lineEnd hend
  | wordBoundary hword =>
      rw [hs.eq_nil_iff.mp rfl]
      unfold isBoundary at hword
      rw [hl.any_eq caseBlind_isWordChar, hr.any_eq caseBlind_isWordChar] at hword
      exact .wordBoundary hword
  | seq _ _ ih₁ ih₂ =>
      simp only [ignoresCase, Bool.and_eq_true] at hp
      -- The recased text is cut at the same place, so its parts are neighbours up to case.
      obtain ⟨u, v, rfl, hu, hv⟩ := hs.exists_append
      exact .seq (ih₁ hp.1 hl hu (hr.or (recasedSide_head? hv)))
        (ih₂ hp.2 (hl.or (recasedSide_getLast? hu)) hv hr)
  | altLeft _ ih =>
      simp only [ignoresCase, Bool.and_eq_true] at hp
      exact .altLeft (ih hp.1 hl hs hr)
  | altRight _ ih =>
      simp only [ignoresCase, Bool.and_eq_true] at hp
      exact .altRight (ih hp.2 hl hs hr)
  | starNil =>
      rw [hs.eq_nil_iff.mp rfl]
      exact .starNil
  | starCons _ _ ih₁ ih₂ =>
      obtain ⟨u, v, rfl, hu, hv⟩ := hs.exists_append
      exact .starCons (ih₁ hp hl hu (hr.or (recasedSide_head? hv)))
        (ih₂ hp (hl.or (recasedSide_getLast? hu)) hv hr)

variable {p : Pattern} {text text' : List Char}

theorem OccursIn.recased (h : p.OccursIn text) (hp : p.ignoresCase = true)
    (htext : Recased text text') : p.OccursIn text' := by
  obtain ⟨a, s, b, rfl, hm⟩ := h
  obtain ⟨_, b', rfl, has, hb⟩ := htext.exists_append
  obtain ⟨a', s', rfl, ha, hs⟩ := has.exists_append
  exact ⟨a', s', b', rfl, hm.recased hp (recasedSide_getLast? ha) hs (recasedSide_head? hb)⟩

theorem occursIn_recased_iff (hp : p.ignoresCase = true) (htext : Recased text text') :
    p.OccursIn text' ↔ p.OccursIn text :=
  ⟨fun h => h.recased hp htext.symm, fun h => h.recased hp htext⟩

/-! ## The case of a name -/

/-- **A case variant takes the place of a name up to case.** -/
theorem occursIn_variant_iff (ps qs : List Pattern) {name name' : String}
    (h : SameUpToCase name.toList name'.toList) :
    (seqAll (ps ++ (literal name').ignoringCase :: qs)).OccursIn text ↔
      (seqAll (ps ++ (literal name).ignoringCase :: qs)).OccursIn text := by
  unfold SameUpToCase at h
  simp only [occursIn_iff, MatchesAt, matchesBetween_seqAll_append, matchesBetween_seqAll_cons,
    matchesBetween_ignoringCase_literal, SameUpToCase, h]

theorem found_variant (ps qs : List Pattern) {name name' : String}
    (h : SameUpToCase name.toList name'.toList) :
    (seqAll (ps ++ (literal name').ignoringCase :: qs)).found text =
      (seqAll (ps ++ (literal name).ignoringCase :: qs)).found text := by
  rw [Bool.eq_iff_iff, found_iff, found_iff, occursIn_variant_iff ps qs h]

/-- **Neither the case of a name nor that of the text is of matter** to a pattern that ignores
both. -/
theorem found_recased (ps qs : List Pattern) {name name' : String}
    (hp : (seqAll (ps ++ (literal name).ignoringCase :: qs)).ignoresCase = true)
    (hname : Recased name.toList name'.toList) (htext : Recased text text') :
    (seqAll (ps ++ (literal name').ignoringCase :: qs)).found text' =
      (seqAll (ps ++ (literal name).ignoringCase :: qs)).found text := by
  rw [found_variant ps qs hname.sameUpToCase, Bool.eq_iff_iff, found_iff, found_iff]
  exact occursIn_recased_iff hp htext

end Pattern

end ContractAudit
