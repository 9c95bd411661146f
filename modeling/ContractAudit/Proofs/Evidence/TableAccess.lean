import ContractAudit.Proofs.Evidence.TableCreation

/-!
# Statements and strings on a table

A table is read or written where a statement says so, or where its name stands in a string. The
string is read exactly (`tableInString_occursIn_iff`): two quotes with neither a quote nor a line
feed between them, and there the name with no character of a name next to it. Both patterns find the
name only where it stands alone like that (`HasNameAlone`), the statement up to case, so a longer
name is another table.
-/

namespace ContractAudit

namespace Text

/-! ## Names that stand alone -/

/-- The name stands in the text with no character of a name next to it. -/
def StandsAlone (name text : List Char) : Prop :=
  ∃ before behind, text = before ++ (name ++ behind) ∧
    before.getLast?.any isNameChar = false ∧ behind.head?.any isNameChar = false

theorem any_isNameChar_iff {side : Option Char} :
    side.any isNameChar = false ↔ ∀ c, side = some c → isNameChar c = false := by
  cases side <;> simp

/-- A case variant of the name stands alone in the text. -/
def HasNameAlone (name text : List Char) : Prop :=
  ∃ word, SameUpToCase word name ∧ StandsAlone word text

/-- To look for a name it is enough to look at every place of the text once. -/
theorem hasNameAlone_iff {name text : List Char} : HasNameAlone name text ↔
    ∃ i < text.length + 1, SameUpToCase ((text.drop i).take name.length) name ∧
      (text.take i).getLast?.any isNameChar = false ∧
      (text.drop (i + name.length)).head?.any isNameChar = false := by
  constructor
  · rintro ⟨word, hword, before, behind, rfl, hbefore, hbehind⟩
    have hlength : name.length = word.length := by
      simpa using congrArg List.length hword.symm
    refine ⟨before.length, ?_, ?_, ?_, ?_⟩
    · rw [List.length_append]
      omega
    · rw [hlength, List.drop_left, List.take_left]
      exact hword
    · rw [List.take_left]
      exact hbefore
    · rw [hlength, ← List.drop_drop, List.drop_left, List.drop_left]
      exact hbehind
  · rintro ⟨i, -, hword, hbefore, hbehind⟩
    refine ⟨_, hword, text.take i, text.drop (i + name.length), ?_, hbefore, hbehind⟩
    rw [← List.drop_drop, List.take_append_drop, List.take_append_drop]

instance (name text : List Char) : Decidable (HasNameAlone name text) :=
  decidable_of_iff _ hasNameAlone_iff.symm

/-! ## Strings -/

/-- A part of a string on one line: no quotes, no line feeds. -/
def InString (s : List Char) : Prop := ∀ c ∈ s, c ∉ quoteMarks ∧ c ≠ '\n'

instance (s : List Char) : Decidable (InString s) :=
  decidable_of_iff (s.all (fun c => !quoteMarks.contains c && c != '\n') = true)
    (by simp [InString])

theorem inString_append {s t : List Char} : InString (s ++ t) ↔ InString s ∧ InString t :=
  List.forall_mem_append

/-- The name stands in a string on one line, with no character of a name next to it. -/
def HasInString (name text : List Char) : Prop :=
  ∃ before q s t r behind, text = before ++ q :: (s ++ (name ++ (t ++ r :: behind))) ∧
    q ∈ quoteMarks ∧ r ∈ quoteMarks ∧ InString s ∧ InString t ∧
    (∀ c, s.getLast? = some c → isNameChar c = false) ∧
    (∀ c, t.head? = some c → isNameChar c = false)

/-- A name without quotes and line feeds is part of the string. -/
theorem hasInString_iff {name text : List Char} (h : InString name) : HasInString name text ↔
    ∃ before q inside r behind, text = before ++ q :: (inside ++ r :: behind) ∧ q ∈ quoteMarks ∧
      r ∈ quoteMarks ∧ InString inside ∧ StandsAlone name inside := by
  constructor
  · rintro ⟨before, q, s, t, r, behind, rfl, hq, hr, hs, ht, hbefore, hbehind⟩
    refine ⟨before, q, s ++ (name ++ t), r, behind, by simp, hq, hr, ?_, s, t, rfl,
      any_isNameChar_iff.mpr hbefore, any_isNameChar_iff.mpr hbehind⟩
    rw [inString_append, inString_append]
    exact ⟨hs, h, ht⟩
  · rintro ⟨before, q, _, r, behind, rfl, hq, hr, hinside, s, t, rfl, hbefore, hbehind⟩
    rw [inString_append, inString_append] at hinside
    exact ⟨before, q, s, t, r, behind, by simp, hq, hr, hinside.1, hinside.2.2,
      any_isNameChar_iff.mp hbefore, any_isNameChar_iff.mp hbehind⟩

theorem isNameChar_of_mem_quoteMarks {q : Char} (h : q ∈ quoteMarks) : isNameChar q = false := by
  have hid := isIdentifierChar_of_mem_quoteMarks h
  unfold isIdentifierChar at hid
  rw [Bool.or_eq_false_iff] at hid
  exact hid.1

/-- In its string or next to its quotes, the name stands alone. -/
theorem HasInString.standsAlone {name text : List Char} (h : HasInString name text) :
    StandsAlone name text := by
  obtain ⟨before, q, s, t, r, behind, rfl, hq, hr, -, -, hbefore, hbehind⟩ := h
  refine ⟨before ++ q :: s, t ++ r :: behind, by simp, ?_, ?_⟩
  · rw [List.getLast?_append, List.getLast?_cons, Option.some_or, Option.any_some]
    cases hlast : s.getLast? with
    | none => exact isNameChar_of_mem_quoteMarks hq
    | some c => exact hbefore c hlast
  · cases t with
    | nil => exact isNameChar_of_mem_quoteMarks hr
    | cons c t => exact hbehind c rfl

end Text

open Text

namespace Pattern

variable {before s behind text : List Char} {name : String}

/-! ## Statements on tables -/

/-- What a statement says between the beginning of a word and the name of a table. -/
def accessVerb : Pattern :=
  oneOf [
    seqAll (phrase ["insert"] ++ [maybe (seqAll (phrase ["or"] ++
      [many (.char true (.ranges false [('a', 'z')])), gap.ignoringCase])),
      (literal "into").ignoringCase]),
    (literal "update").ignoringCase,
    seqAll (phrase ["delete"] ++ [(literal "from").ignoringCase]),
    seqAll (phrase ["replace"] ++ [(literal "into").ignoringCase]),
    seqAll (phrase ["merge"] ++ [(literal "into").ignoringCase]),
    seqAll (phrase ["upsert"] ++ [(literal "into").ignoringCase]),
    (literal "from").ignoringCase, (literal "join").ignoringCase, (literal "into").ignoringCase]

theorem tableStatement_eq (table : String) : tableStatement table =
    seqAll [.wordBoundary, accessVerb, gap.ignoringCase, maybeMark openingMarks,
      (literal table).ignoringCase, maybeMark closingMarks, wordEnd.ignoringCase] := rfl

theorem not_isNameCharUpToCase_of_isMark {marks : List Char}
    (hmarks : marks.all (fun c => ¬ IsNameCharUpToCase c) = true) (h : IsMark marks s) :
    ∀ c ∈ s, ¬ IsNameCharUpToCase c := by
  simp only [List.all_eq_true, decide_eq_true_eq] at hmarks
  rcases h with rfl | ⟨c, hc, rfl⟩
  · simp
  · simpa using hmarks c hc

/-- **A statement is on a table that stands alone**, up to case: in front of the name stands a blank
or a mark, behind it no character of a name. -/
theorem hasNameAlone_of_tableStatement (h : (tableStatement name).OccursIn text) :
    HasNameAlone name.toList text := by
  rw [occursIn_iff, tableStatement_eq] at h
  simp only [↓matchesAt_wordEnd, matchesAt_seqAll_cons, matchesBetween_ignoringCase_gap,
    matchesBetween_maybeMark openingMarks_isCaseless, matchesBetween_ignoringCase_literal,
    matchesBetween_maybeMark closingMarks_isCaseless] at h
  obtain ⟨before, _, rfl, edge, _, rfl, -, verb, _, rfl, -, blanks, _, rfl, ⟨hne, hblanks⟩,
    opening, _, rfl, hopening, word, _, rfl, hword, closing, behind, rfl, hclosing, hbehind⟩ := h
  refine ⟨word, hword, before ++ (edge ++ verb) ++ (blanks ++ opening), closing ++ behind, by simp,
    ?_, ?_⟩
  · have hfront : ∀ c ∈ blanks ++ opening, ¬ IsNameCharUpToCase c := by
      rw [List.forall_mem_append]
      exact ⟨fun c hc => not_isNameCharUpToCase_of_isBlank (hblanks c hc),
        not_isNameCharUpToCase_of_isMark (by decide) hopening⟩
    rw [any_isNameChar_iff]
    intro c hc
    rw [List.getLast?_append_of_ne_nil _ (by simp [hne])] at hc
    have hname := hfront c (List.mem_of_getLast? hc)
    exact Bool.eq_false_iff.mpr fun h => hname (Or.inl h)
  · have hends : EndsName (closing ++ behind) :=
      endsName_append (not_isNameCharUpToCase_of_isMark (by decide) hclosing) hbehind
    rw [any_isNameChar_iff]
    intro c hc
    exact Bool.eq_false_iff.mpr fun h => hends c hc (Or.inl h)

/-! ## Tables in strings -/

theorem without_quotes_has {c : Char} :
    (CharSet.ranges true (quoteRanges ++ [only '\n'])).has false c = true ↔
      c ∉ quoteMarks ∧ c ≠ '\n' := by
  simp [CharSet.has, quoteRanges_any, CharSet.rangeHas_only]

theorem without_names_has {c : Char} :
    (CharSet.ranges true (wordRanges ++ quoteRanges ++ [only '\n'])).has false c = true ↔
      isNameChar c = false ∧ c ∉ quoteMarks ∧ c ≠ '\n' := by
  simp [CharSet.has, wordRanges_any, quoteRanges_any, CharSet.rangeHas_only]

/-- What a string has in front of the table, up to a character that is none of a name. -/
theorem matchesBetween_stringBefore :
    MatchesBetween before (maybe (seqAll [.star (without (quoteRanges ++ [only '\n'])),
      without (wordRanges ++ quoteRanges ++ [only '\n'])])) s behind ↔
      InString s ∧ ∀ c, s.getLast? = some c → isNameChar c = false := by
  unfold without InString
  simp only [matchesBetween_maybe, matchesBetween_seqAll_cons, matchesBetween_star_char,
    matchesBetween_char, matchesBetween_seqAll_nil, without_quotes_has, without_names_has]
  constructor
  · rintro (⟨s, _, rfl, hs, _, _, rfl, ⟨c, rfl, hc⟩, rfl⟩ | rfl)
    · simp only [List.append_nil, List.getLast?_append, List.getLast?_singleton, Option.some_or,
        Option.some.injEq, List.forall_mem_append, List.forall_mem_singleton, forall_eq']
      exact ⟨⟨hs, hc.2⟩, hc.1⟩
    · simp
  · rintro ⟨hs, hlast⟩
    rcases List.eq_nil_or_concat' s with rfl | ⟨init, c, rfl⟩
    · exact Or.inr rfl
    · rw [List.forall_mem_append, List.forall_mem_singleton] at hs
      exact Or.inl ⟨init, [c], rfl, hs.1, [c], [], rfl, ⟨c, rfl, hlast c (by simp), hs.2⟩, rfl⟩

/-- What a string has behind the table, from a character on that is none of a name. -/
theorem matchesBetween_stringBehind :
    MatchesBetween before (maybe (seqAll [without (wordRanges ++ quoteRanges ++ [only '\n']),
      .star (without (quoteRanges ++ [only '\n']))])) s behind ↔
      InString s ∧ ∀ c, s.head? = some c → isNameChar c = false := by
  unfold without InString
  simp only [matchesBetween_maybe, matchesBetween_seqAll_cons, matchesBetween_star_char,
    matchesBetween_char, matchesBetween_seqAll_nil, without_quotes_has, without_names_has]
  constructor
  · rintro (⟨_, _, rfl, ⟨c, rfl, hc⟩, s, _, rfl, hs, rfl⟩ | rfl)
    · simp only [List.append_nil, List.singleton_append, List.head?_cons, Option.some.injEq,
        List.forall_mem_cons, forall_eq']
      exact ⟨⟨hc.2, hs⟩, hc.1⟩
    · simp
  · rintro ⟨hs, hhead⟩
    cases s with
    | nil => exact Or.inr rfl
    | cons c s =>
        rw [List.forall_mem_cons] at hs
        exact Or.inl ⟨[c], s, rfl, ⟨c, rfl, hhead c rfl, hs.1⟩, s, [], (List.append_nil s).symm,
          hs.2, rfl⟩

/-- **A table in a string** is found where its name stands alone in one. -/
theorem tableInString_occursIn_iff :
    (tableInString name).OccursIn text ↔ HasInString name.toList text := by
  unfold tableInString HasInString
  rw [occursIn_iff]
  simp only [matchesAt_seqAll_cons, matchesBetween_quote, matchesBetween_stringBefore,
    matchesBetween_literal, matchesBetween_stringBehind]
  constructor
  · rintro ⟨before, _, rfl, _, _, rfl, ⟨q, hq, rfl⟩, s, _, rfl, ⟨hs, hlast⟩, _, _, rfl, rfl,
      t, _, rfl, ⟨ht, hhead⟩, _, behind, rfl, ⟨r, hr, rfl⟩, -⟩
    exact ⟨before, q, s, t, r, behind, rfl, hq, hr, hs, ht, hlast, hhead⟩
  · rintro ⟨before, q, s, t, r, behind, rfl, hq, hr, hs, ht, hlast, hhead⟩
    exact ⟨before, _, rfl, [q], _, rfl, ⟨q, hq, rfl⟩, s, _, rfl, ⟨hs, hlast⟩, name.toList, _, rfl,
      rfl, t, _, rfl, ⟨ht, hhead⟩, [r], behind, rfl, ⟨r, hr, rfl⟩, matchesAt_seqAll_nil⟩

end Pattern

/-- Whatever finds a table finds its name where it stands alone. -/
theorem Evidence.hasNameAlone_of_tableAccessPatterns {table : String} {text : List Char}
    {p : Pattern} (hp : p ∈ tableAccessPatterns table) (h : p.OccursIn text) :
    HasNameAlone table.toList text := by
  simp only [tableAccessPatterns, List.mem_cons, List.not_mem_nil, or_false] at hp
  rcases hp with rfl | rfl
  · exact Pattern.hasNameAlone_of_tableStatement h
  · exact ⟨_, .refl _, (Pattern.tableInString_occursIn_iff.mp h).standsAlone⟩

end ContractAudit
