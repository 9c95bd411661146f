import ContractAudit.Evidence.Families
import ContractAudit.Proofs.Evidence.OpenEnds
import ContractAudit.Proofs.Text.CaseVariants
import Mathlib.Data.List.Forall2

/-!
# What the parts of a pattern match

Patterns are put together from a few parts. Here each part is read as a statement about text: a
literal is the text itself or a case variant of it, a gap is one or more blanks, a sequence is a
text cut in two. The neighbours of a piece are kept as the whole texts around it
(`MatchesBetween`), so that a sequence hands over to its parts nothing but longer neighbours
(`matchesBetween_seqAll_cons`). Where a piece ends need not be said in advance: `MatchesAt` lets a
match begin a text and go on as far as it likes, and so a pattern is taken apart from left to right
(`matchesAt_seqAll_cons`).

Sets of characters come first. Up to case a set in ASCII has two more characters at most, the long s
and the Kelvin sign (`CharSet.ranges_upToCase_iff`).
-/

namespace ContractAudit

namespace Text

/-- One or more blanks. -/
def IsGap (s : List Char) : Prop := s ≠ [] ∧ ∀ c ∈ s, isBlank c = true

instance (s : List Char) : Decidable (IsGap s) :=
  decidable_of_iff (s ≠ [] ∧ s.all isBlank = true) (by rw [List.all_eq_true]; rfl)

/-- The words in turn, up to case, and behind each of them a gap. -/
def IsPhrase : List String → List Char → Prop
  | [], s => s = []
  | w :: ws, s => ∃ word gap rest, s = word ++ (gap ++ rest) ∧ SameUpToCase word w.toList ∧
      IsGap gap ∧ IsPhrase ws rest

/-- No word goes on behind this text. -/
def EndsNoWord (before : List Char) : Prop :=
  ∀ c, before.getLast? = some c → isWordChar c = false

theorem endsNoWord_append_gap {before gap : List Char} (h : IsGap gap) :
    EndsNoWord (before ++ gap) := by
  intro c hc
  obtain ⟨hne, hblank⟩ := h
  rw [List.getLast?_append, List.getLast?_eq_some_getLast hne, Option.some_or,
    Option.some.injEq] at hc
  subst hc
  exact isWordChar_of_isBlank (hblank _ (List.getLast_mem hne))

/-- A phrase ends in a gap, so no word goes on behind it. -/
theorem IsPhrase.endsNoWord_append {w : String} {words : List String} {before s : List Char}
    (h : IsPhrase (w :: words) s) : EndsNoWord (before ++ s) := by
  induction words generalizing w before s with
  | nil =>
      obtain ⟨word, blanks, _, rfl, -, hgap, rfl⟩ := h
      rw [List.append_nil, ← List.append_assoc]
      exact endsNoWord_append_gap hgap
  | cons w' words ih =>
      obtain ⟨word, blanks, more, rfl, -, -, hmore⟩ := h
      rw [← List.append_assoc, ← List.append_assoc]
      exact ih hmore

/-- A phrase that begins with a keyword begins with a word character. -/
theorem IsPhrase.exists_cons {w : String} {words : List String} {s : List Char}
    (h : IsPhrase (w :: words) s) (hw : beginsWord w.toList = true) :
    ∃ c t, s = c :: t ∧ isWordChar c = true := by
  obtain ⟨word, more, _, rfl, hword, -⟩ := h
  obtain ⟨c, t, rfl, hc⟩ := exists_cons_of_beginsWord hw hword
  exact ⟨c, _, rfl, hc⟩

/-- No character of a name, up to case, stands at the beginning of the text. -/
def EndsName (rest : List Char) : Prop := ∀ c, rest.head? = some c → ¬ IsNameCharUpToCase c

theorem endsName_nil : EndsName [] := by
  intro c hc
  cases hc

theorem endsName_cons {c : Char} {rest : List Char} :
    EndsName (c :: rest) ↔ ¬ IsNameCharUpToCase c := by
  simp [EndsName]

theorem endsName_append {s rest : List Char} (hs : ∀ c ∈ s, ¬ IsNameCharUpToCase c)
    (hrest : EndsName rest) : EndsName (s ++ rest) := by
  cases s with
  | nil => exact hrest
  | cons c s => exact endsName_cons.mpr (hs c List.mem_cons_self)

end Text

/-! ## Sets of characters -/

namespace CharSet

open Text

theorem isAscii_foldCase {c : Char} (h : IsAscii c) : IsAscii (foldCase c) := by
  rw [foldCase_of_isAscii h]
  exact forall_ascii (P := fun c => IsAscii c.toLower) (by unfold IsAscii; decide) h

/-- What ranges in ASCII have up to case folds into ASCII. -/
theorem isAscii_foldCase_of_ranges {rs : List (Char × Char)} (hrs : ∀ r ∈ rs, IsAscii r.2)
    {c : Char} (h : (rs.any fun r => rangeHas true r c) = true) : IsAscii (foldCase c) := by
  rw [List.any_eq_true] at h
  obtain ⟨r, hr, hc⟩ := h
  simp only [rangeHas, if_true, List.any_eq_true, List.mem_range, beq_iff_eq] at hc
  obtain ⟨i, hi, hfold⟩ := hc
  have hlast : r.2.toNat < 128 := hrs r hr
  have hcode : IsAscii (Char.ofNat (r.1.toNat + i)) := by
    unfold IsAscii
    rw [toNat_ofNat (Or.inl (by omega))]
    omega
  rw [← hfold]
  exact isAscii_foldCase hcode

/-- A range has with a character all its case variants. -/
theorem rangeHas_congr {r : Char × Char} {c d : Char} (h : foldCase c = foldCase d) :
    rangeHas true r c = rangeHas true r d := by
  simp only [rangeHas, if_true, h]

/-- **Ranges in ASCII up to case** are told by their ASCII characters and the two signs. -/
theorem ranges_upToCase_iff {rs : List (Char × Char)} {P : Char → Prop}
    (hrs : ∀ r ∈ rs, IsAscii r.2) (hP : ∀ c, P c → IsAscii (foldCase c))
    (hascii : ∀ n < 128, (rs.any fun r => rangeHas true r (Char.ofNat n)) = true ↔ P (Char.ofNat n))
    (hs : P longS ↔ P 's') (hk : P kelvinSign ↔ P 'k') {c : Char} :
    (rs.any fun r => rangeHas true r c) = true ↔ P c := by
  have hall : ∀ {c : Char}, IsAscii c → ((rs.any fun r => rangeHas true r c) = true ↔ P c) :=
    fun h => forall_ascii (P := fun c => (rs.any fun r => rangeHas true r c) = true ↔ P c) hascii h
  -- A sign is in the ranges exactly if the letter is that it folds to.
  have hsign : ∀ {sign letter : Char}, foldCase sign = foldCase letter → IsAscii letter →
      (P sign ↔ P letter) → ((rs.any fun r => rangeHas true r sign) = true ↔ P sign) := by
    intro sign letter hfold hletter hsame
    simp only [hsame, rangeHas_congr hfold]
    exact hall hletter
  by_cases hc : IsAscii (foldCase c)
  · rcases ascii_of_foldCase hc with hc | rfl | rfl
    · exact hall hc
    · have hfold : foldCase longS = foldCase 's' := foldCase_longS.trans (by decide)
      exact hsign hfold (by unfold IsAscii; decide) hs
    · have hfold : foldCase kelvinSign = foldCase 'k' := foldCase_kelvinSign.trans (by decide)
      exact hsign hfold (by unfold IsAscii; decide) hk
  · constructor
    · intro h
      exact absurd (isAscii_foldCase_of_ranges hrs h) hc
    · intro h
      exact absurd (hP c h) hc

theorem rangeHas_only {c d : Char} : rangeHas false (Pattern.only d) c = (c == d) := by
  show (decide (d ≤ c) && decide (c ≤ d)) = (c == d)
  rw [Bool.eq_iff_iff, Bool.and_eq_true, decide_eq_true_eq, decide_eq_true_eq, beq_iff_eq]
  constructor
  · rintro ⟨hle, hge⟩
    exact Char.le_antisymm hge hle
  · rintro rfl
    exact ⟨Char.le_refl _, Char.le_refl _⟩

/-- Ranges of one character each are a list of characters. -/
theorem any_rangeHas_only {cs : List Char} {c : Char} :
    ((cs.map Pattern.only).any fun r => rangeHas false r c) = cs.contains c := by
  induction cs with
  | nil => rfl
  | cons d cs ih => rw [List.map_cons, List.any_cons, ih, List.contains_cons, rangeHas_only]

/-- Of characters without case these are the list even up to case. -/
theorem any_rangeHas_only_upToCase {cs : List Char} (hcs : cs.all isCaseless = true) {c : Char} :
    ((cs.map Pattern.only).any fun r => rangeHas true r c) = cs.contains c := by
  induction cs with
  | nil => rfl
  | cons d cs ih =>
      rw [List.all_cons, Bool.and_eq_true] at hcs
      have hrange : rangeHas true (Pattern.only d) c = (c == d) := by
        simp only [rangeHas, Pattern.only, if_true, Nat.add_sub_cancel_left, List.range_one,
          List.any_cons, List.any_nil, Bool.or_false, Nat.add_zero, Char.ofNat_toNat]
        rw [Bool.eq_iff_iff, beq_iff_eq, beq_iff_eq, eq_comm]
        exact foldCase_eq_iff_of_isCaseless hcs.1
      rw [List.map_cons, List.any_cons, ih hcs.2, List.contains_cons, hrange]

end CharSet

namespace Pattern

open Text

theorem wordRanges_upToCase {c : Char} :
    (wordRanges.any fun r => CharSet.rangeHas true r c) = true ↔ IsNameCharUpToCase c := by
  refine CharSet.ranges_upToCase_iff (by unfold IsAscii; decide) ?_ (by decide +kernel)
    (by decide) (by decide)
  rintro c (hc | rfl | rfl)
  · exact CharSet.isAscii_foldCase (isAscii_of_isNameChar hc)
  · rw [foldCase_longS]
    unfold IsAscii
    decide
  · rw [foldCase_kelvinSign]
    unfold IsAscii
    decide

theorem outside_wordRanges {c : Char} :
    (CharSet.ranges true wordRanges).has true c = true ↔ ¬ IsNameCharUpToCase c := by
  rw [← wordRanges_upToCase]
  simp [CharSet.has]

theorem wordRanges_any {c : Char} :
    (wordRanges.any fun r => CharSet.rangeHas false r c) = isNameChar c := by
  unfold isNameChar
  delta Char.isAlphanum Char.isAlpha Char.isUpper Char.isLower Char.isDigit
  rw [Bool.eq_iff_iff]
  simp [wordRanges, only, CharSet.rangeHas, Char.le_def, UInt32.le_iff_toNat_le, Char.ext_iff,
    ← UInt32.toNat_inj]
  omega

theorem identifierRanges_any {c : Char} :
    (identifierRanges.any fun r => CharSet.rangeHas false r c) = isIdentifierChar c := by
  unfold identifierRanges isIdentifierChar
  rw [List.any_append, wordRanges_any, List.any_cons, List.any_nil, Bool.or_false,
    CharSet.rangeHas_only]

/-- The piece matches the pattern between the two texts. -/
def MatchesBetween (before : List Char) (p : Pattern) (s behind : List Char) : Prop :=
  Matches before.getLast? p s behind.head?

/-- Behind the first text a piece that matches the pattern begins, and the second text goes on as
it likes. -/
def MatchesAt (before : List Char) (p : Pattern) (rest : List Char) : Prop :=
  ∃ s behind, rest = s ++ behind ∧ MatchesBetween before p s behind

theorem occursIn_iff {p : Pattern} {text : List Char} :
    p.OccursIn text ↔ ∃ before rest, text = before ++ rest ∧ MatchesAt before p rest := by
  unfold OccursIn MatchesAt MatchesBetween
  simp only [List.append_assoc]
  constructor
  · rintro ⟨before, s, behind, htext, h⟩
    exact ⟨before, s ++ behind, htext, s, behind, rfl, h⟩
  · rintro ⟨before, _, htext, s, behind, rfl, h⟩
    exact ⟨before, s, behind, htext, h⟩

section

variable {before s behind : List Char}

/-! ## Single parts -/

theorem matchesBetween_empty : MatchesBetween before .empty s behind ↔ s = [] := by
  constructor
  · intro h
    cases h
    rfl
  · rintro rfl
    exact .empty

theorem matchesBetween_char {i : Bool} {set : CharSet} :
    MatchesBetween before (.char i set) s behind ↔ ∃ c, s = [c] ∧ set.has i c = true := by
  constructor
  · intro h
    cases h with
    | @char _ _ _ _ c hset => exact ⟨c, rfl, hset⟩
  · rintro ⟨c, rfl, hset⟩
    exact .char hset

/-- A set that is told by a list. -/
theorem matchesBetween_charIn {i : Bool} {set : CharSet} {cs : List Char}
    (hset : ∀ {c}, set.has i c = true ↔ c ∈ cs) :
    MatchesBetween before (.char i set) s behind ↔ ∃ c ∈ cs, s = [c] := by
  rw [matchesBetween_char]
  simp only [hset]
  exact exists_congr fun c => and_comm

theorem matchesBetween_lineStart :
    MatchesBetween before .lineStart s behind ↔ s = [] ∧ startsLine before.getLast? = true := by
  constructor
  · intro h
    cases h with
    | lineStart hstart => exact ⟨rfl, hstart⟩
  · rintro ⟨rfl, hstart⟩
    exact .lineStart hstart

theorem matchesBetween_lineEnd :
    MatchesBetween before .lineEnd s behind ↔ s = [] ∧ endsLine behind.head? = true := by
  constructor
  · intro h
    cases h with
    | lineEnd hend => exact ⟨rfl, hend⟩
  · rintro ⟨rfl, hend⟩
    exact .lineEnd hend

theorem matchesBetween_wordBoundary :
    MatchesBetween before .wordBoundary s behind ↔
      s = [] ∧ isBoundary before.getLast? behind.head? = true := by
  constructor
  · intro h
    cases h with
    | wordBoundary hword => exact ⟨rfl, hword⟩
  · rintro ⟨rfl, hword⟩
    exact .wordBoundary hword

/-! ## Parts put together -/

theorem matchesBetween_seq {p q : Pattern} : MatchesBetween before (.seq p q) s behind ↔
    ∃ t u, s = t ++ u ∧ MatchesBetween before p t (u ++ behind) ∧
      MatchesBetween (before ++ t) q u behind := by
  unfold MatchesBetween
  rw [matches_seq]
  simp only [List.head?_append, List.getLast?_append]

theorem matchesBetween_alt {p q : Pattern} : MatchesBetween before (.alt p q) s behind ↔
    MatchesBetween before p s behind ∨ MatchesBetween before q s behind := by
  constructor
  · intro h
    cases h with
    | altLeft h => exact Or.inl h
    | altRight h => exact Or.inr h
  · rintro (h | h)
    · exact .altLeft h
    · exact .altRight h

theorem matchesBetween_maybe {p : Pattern} : MatchesBetween before (maybe p) s behind ↔
    MatchesBetween before p s behind ∨ s = [] := by
  unfold maybe
  rw [matchesBetween_alt, matchesBetween_empty]

/-- A sequence begins with a match of its first part. -/
theorem matchesBetween_seqAll_cons {p : Pattern} {ps : List Pattern} :
    MatchesBetween before (seqAll (p :: ps)) s behind ↔
      ∃ t u, s = t ++ u ∧ MatchesBetween before p t (u ++ behind) ∧
        MatchesBetween (before ++ t) (seqAll ps) u behind := by
  cases ps with
  | nil =>
      unfold seqAll
      simp only [matchesBetween_empty]
      constructor
      · intro h
        exact ⟨s, [], (List.append_nil s).symm, h, rfl⟩
      · rintro ⟨t, u, rfl, h, rfl⟩
        rw [List.append_nil]
        exact h
  | cons q ps => exact matchesBetween_seq

theorem matchesBetween_seqAll_nil : MatchesBetween before (seqAll []) s behind ↔ s = [] :=
  matchesBetween_empty

/-- Two sequences in turn cut the piece in two. -/
theorem matchesBetween_seqAll_append {ps qs : List Pattern} :
    MatchesBetween before (seqAll (ps ++ qs)) s behind ↔
      ∃ t u, s = t ++ u ∧ MatchesBetween before (seqAll ps) t (u ++ behind) ∧
        MatchesBetween (before ++ t) (seqAll qs) u behind := by
  induction ps generalizing before s with
  | nil =>
      simp only [List.nil_append, matchesBetween_seqAll_nil]
      constructor
      · intro h
        refine ⟨[], s, rfl, rfl, ?_⟩
        rw [List.append_nil]
        exact h
      · rintro ⟨_, u, rfl, rfl, h⟩
        rw [List.append_nil] at h
        exact h
  | cons p ps ih =>
      rw [List.cons_append]
      simp only [matchesBetween_seqAll_cons, ih]
      -- Both sides cut the piece in three; they differ in which cut comes first.
      constructor
      · rintro ⟨t, _, rfl, hp, v, w, rfl, hps, hqs⟩
        refine ⟨t ++ v, w, (List.append_assoc t v w).symm, ⟨t, v, rfl, ?_, hps⟩, ?_⟩
        · rw [← List.append_assoc]
          exact hp
        · rw [← List.append_assoc]
          exact hqs
      · rintro ⟨_, w, rfl, ⟨t, v, rfl, hp, hps⟩, hqs⟩
        refine ⟨t, v ++ w, List.append_assoc t v w, ?_, v, w, rfl, hps, ?_⟩
        · rw [List.append_assoc]
          exact hp
        · rw [List.append_assoc]
          exact hqs

theorem matchesBetween_oneOf {ps : List Pattern} : MatchesBetween before (oneOf ps) s behind ↔
    ∃ p ∈ ps, MatchesBetween before p s behind := by
  induction ps with
  | nil =>
      unfold oneOf
      rw [matchesBetween_char]
      simp [CharSet.has]
  | cons p ps ih =>
      cases ps with
      | nil => simp [oneOf]
      | cons q ps =>
          show MatchesBetween before (.alt p (oneOf (q :: ps))) s behind ↔ _
          rw [matchesBetween_alt, ih]
          simp

theorem matchesBetween_star_char {i : Bool} {set : CharSet} :
    MatchesBetween before (.star (.char i set)) s behind ↔ ∀ c ∈ s, set.has i c = true := by
  unfold MatchesBetween
  generalize before.getLast? = l
  induction s generalizing l with
  | nil => simp [Matches.starNil]
  | cons c s ih =>
      rw [matches_star_cons, List.forall_mem_cons]
      constructor
      · rintro ⟨t, u, rfl, hc, hrest⟩
        generalize hct : c :: t = ct at hc
        cases hc with
        | char hset =>
            cases hct
            rw [List.nil_append]
            exact ⟨hset, (ih _).mp hrest⟩
      · rintro ⟨hset, hrest⟩
        exact ⟨[], s, rfl, .char hset, (ih _).mpr hrest⟩

theorem matchesBetween_many_char {i : Bool} {set : CharSet} :
    MatchesBetween before (many (.char i set)) s behind ↔
      s ≠ [] ∧ ∀ c ∈ s, set.has i c = true := by
  unfold many
  rw [matchesBetween_seq]
  simp only [matchesBetween_char, matchesBetween_star_char]
  constructor
  · rintro ⟨_, u, rfl, ⟨c, rfl, hset⟩, hrest⟩
    refine ⟨by simp, ?_⟩
    rw [List.singleton_append, List.forall_mem_cons]
    exact ⟨hset, hrest⟩
  · rintro ⟨hne, hall⟩
    cases s with
    | nil => exact absurd rfl hne
    | cons c s =>
        rw [List.forall_mem_cons] at hall
        exact ⟨[c], s, rfl, ⟨c, rfl, hall.1⟩, hall.2⟩

/-! ## Blanks and literal texts -/

theorem matchesBetween_blanks :
    MatchesBetween before blanks s behind ↔ ∀ c ∈ s, isBlank c = true :=
  matchesBetween_star_char

theorem matchesBetween_gap : MatchesBetween before gap s behind ↔ IsGap s :=
  matchesBetween_many_char

theorem matchesBetween_ignoringCase_gap :
    MatchesBetween before gap.ignoringCase s behind ↔ IsGap s :=
  matchesBetween_many_char

theorem literal_has {c d : Char} : (CharSet.literal d).has false c = true ↔ c = d := by
  show (d == c) = true ↔ _
  rw [beq_iff_eq]
  exact eq_comm

theorem literal_has_anyCase {c d : Char} :
    (CharSet.literal d).has true c = true ↔ foldCase c = foldCase d := by
  show (foldCase d == foldCase c) = true ↔ _
  rw [beq_iff_eq]
  exact eq_comm

theorem matchesBetween_chars {i : Bool} {cs : List Char} :
    MatchesBetween before (chars i cs) s behind ↔
      List.Forall₂ (fun c d => (CharSet.literal d).has i c = true) s cs := by
  unfold chars
  induction cs generalizing before s with
  | nil => rw [List.map_nil, matchesBetween_seqAll_nil, List.forall₂_nil_right_iff]
  | cons d cs ih =>
      rw [List.map_cons, matchesBetween_seqAll_cons]
      simp only [matchesBetween_char, ih]
      rw [List.forall₂_cons_right_iff]
      constructor
      · rintro ⟨_, u, rfl, ⟨c, rfl, hset⟩, hrest⟩
        exact ⟨c, u, hset, hrest, rfl⟩
      · rintro ⟨c, u, hset, hrest, rfl⟩
        exact ⟨[c], u, rfl, ⟨c, rfl, hset⟩, hrest⟩

/-- A text as it stands. -/
theorem matchesBetween_literal {t : String} :
    MatchesBetween before (literal t) s behind ↔ s = t.toList := by
  show MatchesBetween before (chars false t.toList) s behind ↔ _
  rw [matchesBetween_chars, ← List.forall₂_eq_eq_eq]
  simp only [literal_has]

/-- A text up to case. -/
theorem matchesBetween_ignoringCase_literal {t : String} :
    MatchesBetween before (literal t).ignoringCase s behind ↔ SameUpToCase s t.toList := by
  rw [ignoringCase_literal, matchesBetween_chars]
  unfold SameUpToCase
  rw [← List.forall₂_eq_eq_eq, List.forall₂_map_left_iff, List.forall₂_map_right_iff]
  simp only [literal_has_anyCase]

/-! ## Texts that begin with a match -/

variable {rest : List Char}

/-- A part of a sequence is cut off the text it stands in front of. -/
theorem matchesAt_seqAll_cons {p : Pattern} {ps : List Pattern} :
    MatchesAt before (seqAll (p :: ps)) rest ↔
      ∃ t rest', rest = t ++ rest' ∧ MatchesBetween before p t rest' ∧
        MatchesAt (before ++ t) (seqAll ps) rest' := by
  unfold MatchesAt
  simp only [matchesBetween_seqAll_cons]
  constructor
  · rintro ⟨_, behind, rfl, t, u, rfl, hp, hps⟩
    exact ⟨t, u ++ behind, List.append_assoc t u behind, hp, u, behind, rfl, hps⟩
  · rintro ⟨t, _, rfl, hp, u, behind, rfl, hps⟩
    exact ⟨t ++ u, behind, (List.append_assoc t u behind).symm, t, u, rfl, hp, hps⟩

theorem matchesAt_seqAll_append {ps qs : List Pattern} :
    MatchesAt before (seqAll (ps ++ qs)) rest ↔
      ∃ t rest', rest = t ++ rest' ∧ MatchesBetween before (seqAll ps) t rest' ∧
        MatchesAt (before ++ t) (seqAll qs) rest' := by
  unfold MatchesAt
  simp only [matchesBetween_seqAll_append]
  constructor
  · rintro ⟨_, behind, rfl, t, u, rfl, hps, hqs⟩
    exact ⟨t, u ++ behind, List.append_assoc t u behind, hps, u, behind, rfl, hqs⟩
  · rintro ⟨t, _, rfl, hps, u, behind, rfl, hqs⟩
    exact ⟨t ++ u, behind, (List.append_assoc t u behind).symm, t, u, rfl, hps, hqs⟩

theorem matchesAt_seqAll_nil : MatchesAt before (seqAll []) rest :=
  ⟨[], rest, rfl, matchesBetween_seqAll_nil.mpr rfl⟩

/-- **A sequence occurs only where each of its parts does.** -/
theorem occursIn_part {p : Pattern} (ps qs : List Pattern) {text : List Char}
    (h : (seqAll (ps ++ p :: qs)).OccursIn text) : p.OccursIn text := by
  obtain ⟨before, _, rfl, hmatch⟩ := occursIn_iff.mp h
  obtain ⟨s, _, rfl, -, hrest⟩ := matchesAt_seqAll_append.mp hmatch
  obtain ⟨t, behind, rfl, hp, -⟩ := matchesAt_seqAll_cons.mp hrest
  exact occursIn_iff.mpr ⟨before ++ s, t ++ behind, (List.append_assoc ..).symm, t, behind, rfl, hp⟩

/-- Of several patterns one occurs. -/
theorem exists_occursIn_of_oneOf {ps : List Pattern} {text : List Char}
    (h : (oneOf ps).OccursIn text) : ∃ p ∈ ps, p.OccursIn text := by
  obtain ⟨before, _, rfl, s, behind, rfl, hs⟩ := occursIn_iff.mp h
  obtain ⟨p, hp, hmatch⟩ := matchesBetween_oneOf.mp hs
  exact ⟨p, hp, occursIn_iff.mpr ⟨before, s ++ behind, rfl, s, behind, rfl, hmatch⟩⟩

/-- A set of characters occurs only in a text with one of them. -/
theorem exists_mem_of_occursIn_char {i : Bool} {set : CharSet} {text : List Char}
    (h : (char i set).OccursIn text) : ∃ c ∈ text, set.has i c = true := by
  obtain ⟨before, _, rfl, s, behind, rfl, hs⟩ := occursIn_iff.mp h
  obtain ⟨c, rfl, hc⟩ := matchesBetween_char.mp hs
  exact ⟨c, by simp, hc⟩

/-! ## Keywords and ends of words -/

/-- The words up to case in turn, each with a gap behind it. -/
def phrase (words : List String) : List Pattern :=
  words.flatMap fun w => [(literal w).ignoringCase, gap.ignoringCase]

theorem matchesBetween_phrase {words : List String} :
    MatchesBetween before (seqAll (phrase words)) s behind ↔ IsPhrase words s := by
  induction words generalizing before s with
  | nil => exact matchesBetween_seqAll_nil
  | cons w words ih =>
      show MatchesBetween before (seqAll ((literal w).ignoringCase :: gap.ignoringCase ::
        phrase words)) s behind ↔ _
      simp only [matchesBetween_seqAll_cons, matchesBetween_ignoringCase_literal,
        matchesBetween_ignoringCase_gap, ih]
      constructor
      · rintro ⟨word, _, rfl, hword, blanks, rest, rfl, hgap, hrest⟩
        exact ⟨word, blanks, rest, rfl, hword, hgap, hrest⟩
      · rintro ⟨word, blanks, rest, rfl, hword, hgap, hrest⟩
        exact ⟨word, blanks ++ rest, rfl, hword, blanks, rest, rfl, hgap, hrest⟩

/-- In front of a word character there is a word boundary unless a word goes on there. -/
theorem isBoundary_iff {c : Char} (hc : isWordChar c = true) :
    isBoundary before.getLast? (some c) = true ↔ EndsNoWord before := by
  unfold isBoundary EndsNoWord
  rw [Option.any_some, hc]
  cases before.getLast? with
  | none => simp
  | some d => simp

/-- Keywords behind a word boundary stand where no word goes on. -/
theorem matchesAt_keywords {w : String} {words : List String} {ps : List Pattern}
    (hw : beginsWord w.toList = true) :
    MatchesAt before (seqAll (.wordBoundary :: (phrase (w :: words) ++ ps))) rest ↔
      EndsNoWord before ∧ ∃ head rest', rest = head ++ rest' ∧ IsPhrase (w :: words) head ∧
        MatchesAt (before ++ head) (seqAll ps) rest' := by
  rw [matchesAt_seqAll_cons]
  simp only [matchesBetween_wordBoundary, matchesAt_seqAll_append, matchesBetween_phrase]
  have hboundary : ∀ {head rest'}, IsPhrase (w :: words) head →
      (isBoundary before.getLast? (head ++ rest').head? = true ↔ EndsNoWord before) := by
    intro head rest' hhead
    obtain ⟨c, t, rfl, hc⟩ := hhead.exists_cons hw
    exact isBoundary_iff hc
  constructor
  · rintro ⟨_, _, rfl, ⟨rfl, hword⟩, head, rest', rfl, hhead, hps⟩
    rw [List.append_nil] at hps
    exact ⟨(hboundary hhead).mp hword, head, rest', rfl, hhead, hps⟩
  · rintro ⟨hbefore, head, rest', rfl, hhead, hps⟩
    refine ⟨[], head ++ rest', rfl, ⟨rfl, (hboundary hhead).mpr hbefore⟩, head, rest', rfl, hhead, ?_⟩
    rw [List.append_nil]
    exact hps

/-- The end of a word as the last part of a sequence. -/
theorem matchesAt_wordEnd :
    MatchesAt before (seqAll [wordEnd.ignoringCase]) rest ↔ EndsName rest := by
  show (∃ s behind, rest = s ++ behind ∧
    MatchesBetween before (.alt (.char true (.ranges true wordRanges)) .lineEnd) s behind) ↔ _
  simp only [matchesBetween_alt, matchesBetween_char, matchesBetween_lineEnd, outside_wordRanges]
  constructor
  · rintro ⟨s, behind, rfl, ⟨c, rfl, hc⟩ | ⟨rfl, hend⟩⟩
    · exact endsName_cons.mpr hc
    · rcases startsLine_iff.mp hend with hend | hend
      · rw [List.nil_append, List.head?_eq_none_iff.mp hend]
        exact endsName_nil
      · obtain ⟨tail, htail⟩ := List.head?_eq_some_iff.mp hend
        rw [List.nil_append, htail]
        exact endsName_cons.mpr (by decide)
  · intro h
    cases rest with
    | nil => exact ⟨[], [], rfl, Or.inr ⟨rfl, rfl⟩⟩
    | cons c rest => exact ⟨[c], rest, rfl, Or.inl ⟨c, rfl, endsName_cons.mp h⟩⟩

end

end Pattern

end ContractAudit
