import ContractAudit.Proofs.Pattern.Pieces

/-!
# Tokens and quoted names

A name is a token of a text where it stands as a whole identifier: no character of an identifier in
front of it, none behind it (`HasToken`). The pattern for tokens occurs exactly there
(`token_occursIn_iff`), whatever characters the name itself holds, and the pattern for quoted names
occurs exactly where the name stands between two quotes (`quoted_occursIn_iff`). Quotes are no
characters of identifiers, so what is quoted is a token (`HasQuoted.hasToken`).
-/

namespace ContractAudit

namespace Text

/-! ## Places in a text -/

/-- No identifier stands straight in front. -/
def EndsNoIdentifier (before : List Char) : Prop :=
  ∀ c, before.getLast? = some c → isIdentifierChar c = false

/-- No identifier goes on: the text ends, or a character follows that is none of an identifier. -/
def EndsIdentifier (rest : List Char) : Prop :=
  ∀ c, rest.head? = some c → isIdentifierChar c = false

/-- The name stands somewhere in the text as a whole identifier. -/
def HasToken (name text : List Char) : Prop :=
  ∃ before behind, text = before ++ (name ++ behind) ∧ EndsNoIdentifier before ∧
    EndsIdentifier behind

/-- An identifier begins with the name somewhere in the text, and may go on behind it. -/
def HasIdentifierFrom (name text : List Char) : Prop :=
  ∃ before behind, text = before ++ (name ++ behind) ∧ EndsNoIdentifier before

theorem HasToken.hasIdentifierFrom {name text : List Char} (h : HasToken name text) :
    HasIdentifierFrom name text := by
  obtain ⟨before, behind, htext, hbefore, -⟩ := h
  exact ⟨before, behind, htext, hbefore⟩

def quoteMarks : List Char := ['"', '\'', '\x60']

/-- The name stands somewhere in the text with a quote on either side. -/
def HasQuoted (name text : List Char) : Prop :=
  ∃ before q r behind, text = before ++ q :: (name ++ r :: behind) ∧ q ∈ quoteMarks ∧
    r ∈ quoteMarks

theorem isIdentifierChar_of_mem_quoteMarks {q : Char} (h : q ∈ quoteMarks) :
    isIdentifierChar q = false := by
  have hall : quoteMarks.all (!isIdentifierChar ·) = true := by decide
  simpa using List.all_eq_true.mp hall q h

theorem endsNoIdentifier_concat {before : List Char} {c : Char} :
    EndsNoIdentifier (before ++ [c]) ↔ isIdentifierChar c = false := by
  simp [EndsNoIdentifier]

theorem endsIdentifier_cons {c : Char} {rest : List Char} :
    EndsIdentifier (c :: rest) ↔ isIdentifierChar c = false := by
  simp [EndsIdentifier]

/-- **What is quoted is a token.** -/
theorem HasQuoted.hasToken {name text : List Char} (h : HasQuoted name text) :
    HasToken name text := by
  obtain ⟨before, q, r, behind, rfl, hq, hr⟩ := h
  refine ⟨before ++ [q], r :: behind, by simp, ?_, ?_⟩
  · exact endsNoIdentifier_concat.mpr (isIdentifierChar_of_mem_quoteMarks hq)
  · exact endsIdentifier_cons.mpr (isIdentifierChar_of_mem_quoteMarks hr)

end Text

open Text

namespace Pattern

variable {before s behind rest text : List Char}

/-! ## Parts -/

theorem quoteRanges_any {c : Char} :
    (quoteRanges.any fun r => CharSet.rangeHas false r c) = quoteMarks.contains c := by
  have hranges : quoteRanges = quoteMarks.map only := rfl
  rw [hranges, CharSet.any_rangeHas_only]

theorem matchesBetween_quote :
    MatchesBetween before quote s behind ↔ ∃ q ∈ quoteMarks, s = [q] :=
  matchesBetween_charIn (by simp [CharSet.has, quoteRanges_any])

theorem matchesBetween_lit {c : Char} : MatchesBetween before (lit c) s behind ↔ s = [c] := by
  unfold lit
  rw [matchesBetween_char]
  simp only [literal_has]
  constructor
  · rintro ⟨_, rfl, rfl⟩
    rfl
  · rintro rfl
    exact ⟨c, rfl, rfl⟩

theorem notIdentifier_has {c : Char} :
    (CharSet.ranges true identifierRanges).has false c = true ↔ isIdentifierChar c = false := by
  simp [CharSet.has, identifierRanges_any]

theorem matchesBetween_identifierStart : MatchesBetween before identifierStart s behind ↔
    s = [] ∧ startsLine before.getLast? = true ∨ ∃ c, s = [c] ∧ isIdentifierChar c = false := by
  unfold identifierStart notIdentifier without
  rw [matchesBetween_alt, matchesBetween_lineStart, matchesBetween_char]
  simp only [notIdentifier_has]

/-- No character of an identifier is on this side. -/
def FreeSide (x : Option Char) : Prop := ∀ c, x = some c → isIdentifierChar c = false

theorem freeSide_of_startsLine {x : Option Char} (h : startsLine x = true) : FreeSide x := by
  intro c hc
  rcases startsLine_iff.mp h with rfl | rfl
  · cases hc
  · cases hc
    decide

/-- The start of an identifier leads to where no identifier stands in front. -/
theorem endsNoIdentifier_append (h : MatchesBetween before identifierStart s behind) :
    EndsNoIdentifier (before ++ s) := by
  rcases matchesBetween_identifierStart.mp h with ⟨rfl, hstart⟩ | ⟨c, rfl, hc⟩
  · rw [List.append_nil]
    exact freeSide_of_startsLine hstart
  · exact endsNoIdentifier_concat.mpr hc

/-- A sequence from the start of an identifier occurs where no identifier stands in front. -/
theorem occursIn_identifierStart_iff {ps : List Pattern} :
    (seqAll (identifierStart :: ps)).OccursIn text ↔
      ∃ before rest, text = before ++ rest ∧ EndsNoIdentifier before ∧
        MatchesAt before (seqAll ps) rest := by
  rw [occursIn_iff]
  constructor
  · rintro ⟨before, _, rfl, h⟩
    obtain ⟨s, rest, rfl, hs, hps⟩ := matchesAt_seqAll_cons.mp h
    exact ⟨before ++ s, rest, (List.append_assoc before s rest).symm, endsNoIdentifier_append hs,
      hps⟩
  · rintro ⟨before, rest, rfl, hbefore, hps⟩
    -- The start of an identifier is the start of the text, or the last character in front.
    rcases List.eq_nil_or_concat' before with rfl | ⟨init, c, rfl⟩
    · exact ⟨[], rest, rfl, matchesAt_seqAll_cons.mpr
        ⟨[], rest, rfl, matchesBetween_identifierStart.mpr (Or.inl ⟨rfl, rfl⟩), hps⟩⟩
    · have hc : isIdentifierChar c = false := endsNoIdentifier_concat.mp hbefore
      exact ⟨init, c :: rest, by simp, matchesAt_seqAll_cons.mpr
        ⟨[c], rest, rfl, matchesBetween_identifierStart.mpr (Or.inr ⟨c, rfl, hc⟩), hps⟩⟩

/-- The end of an identifier as the last part of a sequence. -/
theorem matchesAt_identifierEnd :
    MatchesAt before (seqAll [identifierEnd]) rest ↔ EndsIdentifier rest := by
  show (∃ s behind, rest = s ++ behind ∧
    MatchesBetween before (.alt (.char false (.ranges true identifierRanges)) .lineEnd) s behind) ↔ _
  simp only [matchesBetween_alt, matchesBetween_char, matchesBetween_lineEnd, notIdentifier_has]
  constructor
  · rintro ⟨s, behind, rfl, ⟨c, rfl, hc⟩ | ⟨rfl, hend⟩⟩
    · exact endsIdentifier_cons.mpr hc
    · exact freeSide_of_startsLine hend
  · intro h
    cases rest with
    | nil => exact ⟨[], [], rfl, Or.inr ⟨rfl, rfl⟩⟩
    | cons c rest => exact ⟨[c], rest, rfl, Or.inl ⟨c, rfl, endsIdentifier_cons.mp h⟩⟩

/-! ## Names -/

/-- A name at the head of a sequence is cut off the text. -/
theorem matchesAt_literal_cons {name : String} {ps : List Pattern} :
    MatchesAt before (seqAll (literal name :: ps)) rest ↔
      ∃ rest', rest = name.toList ++ rest' ∧ MatchesAt (before ++ name.toList) (seqAll ps) rest' := by
  simp only [matchesAt_seqAll_cons, matchesBetween_literal]
  constructor
  · rintro ⟨_, rest', rfl, rfl, hps⟩
    exact ⟨rest', rfl, hps⟩
  · rintro ⟨rest', rfl, hps⟩
    exact ⟨name.toList, rest', rfl, rfl, hps⟩

/-- **The pattern for tokens occurs where the name is a token**, whatever the name holds. -/
theorem token_occursIn_iff {name : String} :
    (token name).OccursIn text ↔ HasToken name.toList text := by
  unfold token HasToken
  rw [occursIn_identifierStart_iff]
  simp only [matchesAt_literal_cons, matchesAt_identifierEnd]
  constructor
  · rintro ⟨before, _, rfl, hbefore, behind, rfl, hbehind⟩
    exact ⟨before, behind, rfl, hbefore, hbehind⟩
  · rintro ⟨before, behind, rfl, hbefore, hbehind⟩
    exact ⟨before, _, rfl, hbefore, behind, rfl, hbehind⟩

theorem matchesBetween_quoted {name : String} :
    MatchesBetween before (quoted name) s behind ↔
      ∃ q ∈ quoteMarks, ∃ r ∈ quoteMarks, s = q :: (name.toList ++ [r]) := by
  unfold quoted
  simp only [matchesBetween_seqAll_cons, matchesBetween_quote, matchesBetween_literal,
    matchesBetween_seqAll_nil]
  constructor
  · rintro ⟨_, _, rfl, ⟨q, hq, rfl⟩, _, _, rfl, rfl, _, _, rfl, ⟨r, hr, rfl⟩, rfl⟩
    exact ⟨q, hq, r, hr, rfl⟩
  · rintro ⟨q, hq, r, hr, rfl⟩
    exact ⟨[q], _, rfl, ⟨q, hq, rfl⟩, name.toList, [r], rfl, rfl, [r], [], rfl, ⟨r, hr, rfl⟩, rfl⟩

/-- **The pattern for quoted names occurs where the name is quoted.** -/
theorem quoted_occursIn_iff {name : String} :
    (quoted name).OccursIn text ↔ HasQuoted name.toList text := by
  unfold HasQuoted
  rw [occursIn_iff]
  simp only [MatchesAt, matchesBetween_quoted]
  constructor
  · rintro ⟨before, _, rfl, _, behind, rfl, q, hq, r, hr, rfl⟩
    exact ⟨before, q, r, behind, by simp, hq, hr⟩
  · rintro ⟨before, q, r, behind, rfl, hq, hr⟩
    exact ⟨before, _, rfl, q :: (name.toList ++ [r]), behind, by simp, q, hq, r, hr, rfl⟩

end Pattern

end ContractAudit
