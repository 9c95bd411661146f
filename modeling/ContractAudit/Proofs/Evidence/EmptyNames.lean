import ContractAudit.Proofs.Evidence.TableAccess

/-!
# What is left of a pattern without a name

A pattern for a name is looked for even if the name is empty, and what is left of it still occurs:
a call without a name is an opening bracket with no identifier in front of it, a literal without a
name is a pair of quotes, a table without a name is a keyword or a place in a string. Each of these
is told here as a property of the text (`callOf_empty_occursIn_iff` and its relatives), so it is
known exactly which files have evidence of nothing.
-/

namespace ContractAudit

namespace Text

/-! ## Places in a text -/

/-- An opening bracket that no identifier stands straight in front of. -/
def HasBareBracket (text : List Char) : Prop :=
  ∃ before behind, text = before ++ '(' :: behind ∧ EndsNoIdentifier before

/-- Two quotes side by side. -/
def HasEmptyQuotes (text : List Char) : Prop :=
  ∃ before q r behind, text = before ++ q :: r :: behind ∧ q ∈ quoteMarks ∧ r ∈ quoteMarks

/-- The words behind which a statement has the name of a table that it reads or writes. -/
def accessWords : List String := ["update", "from", "join", "into"]

/-- Such a word and a blank, with no name behind them. -/
def HasBareAccess (text : List Char) : Prop :=
  ∃ before word c behind, text = before ++ (word ++ c :: behind) ∧ EndsNoWord before ∧
    (∃ w ∈ accessWords, SameUpToCase word w.toList) ∧ isBlank c = true ∧ EndsName behind

/-- The words that declare a function or a method. -/
def methodWords : List String := ["fn", "def", "func", "function", "fun", "sub", "method"]

/-- One of these words, a gap and an opening bracket, with no name between them. -/
def HasAnonymousMethod (text : List Char) : Prop :=
  ∃ before w gap behind, text = before ++ (w.toList ++ (gap ++ '(' :: behind)) ∧
    EndsNoWord before ∧ w ∈ methodWords ∧ IsGap gap

/-- A string on one line with a place in it that no character of a name stands next to. -/
def HasPlaceInString (text : List Char) : Prop :=
  ∃ before q s t r behind, text = before ++ q :: (s ++ (t ++ r :: behind)) ∧
    q ∈ quoteMarks ∧ r ∈ quoteMarks ∧ InString s ∧ InString t ∧
    (∀ c, s.getLast? = some c → isNameChar c = false) ∧
    (∀ c, t.head? = some c → isNameChar c = false)

end Text

open Text

namespace Pattern

variable {before s behind rest text : List Char}

/-! ## Parts -/

/-- An empty text is matched by nothing. -/
theorem matchesBetween_literal_empty : MatchesBetween before (literal "") s behind ↔ s = [] := by
  rw [matchesBetween_literal]
  exact Iff.rfl

theorem matchesBetween_ignoringCase_literal_empty :
    MatchesBetween before (literal "").ignoringCase s behind ↔ s = [] :=
  matchesBetween_literal_empty

/-! ## Calls -/

theorem endsNoIdentifier_append_blanks (h : EndsNoIdentifier before)
    (hs : ∀ c ∈ s, isBlank c = true) : EndsNoIdentifier (before ++ s) := by
  intro c hc
  rw [List.getLast?_append, Option.or_eq_some_iff] at hc
  rcases hc with hc | ⟨-, hc⟩
  · exact isIdentifierChar_of_isBlank (hs c (List.mem_of_getLast? hc))
  · exact h c hc

theorem matchesAt_bracket : MatchesAt before (seqAll [literal "", blanks, lit '(']) rest ↔
    ∃ s behind, rest = s ++ '(' :: behind ∧ ∀ c ∈ s, isBlank c = true := by
  simp only [matchesAt_seqAll_cons, matchesBetween_literal_empty, matchesBetween_blanks,
    matchesBetween_lit]
  constructor
  · rintro ⟨_, _, rfl, rfl, s, _, rfl, hs, _, behind, rfl, rfl, -⟩
    exact ⟨s, behind, rfl, hs⟩
  · rintro ⟨s, behind, rfl, hs⟩
    exact ⟨[], _, rfl, rfl, s, _, rfl, hs, ['('], behind, rfl, rfl, matchesAt_seqAll_nil⟩

/-- **A call without a name** is an opening bracket with no identifier in front of it. -/
theorem callOf_empty_occursIn_iff : (callOf "").OccursIn text ↔ HasBareBracket text := by
  unfold callOf HasBareBracket
  rw [occursIn_identifierStart_iff]
  simp only [matchesAt_bracket]
  constructor
  · rintro ⟨before, _, rfl, hbefore, blanks, behind, rfl, hblanks⟩
    refine ⟨before ++ blanks, behind, by simp, ?_⟩
    exact endsNoIdentifier_append_blanks hbefore hblanks
  · rintro ⟨before, behind, rfl, hbefore⟩
    exact ⟨before, '(' :: behind, rfl, hbefore, [], behind, rfl, by simp⟩

/-! ## Methods -/

theorem matchesBetween_nameAndBracket_empty :
    MatchesBetween before (nameAndBracket "") ['('] behind := by
  unfold nameAndBracket typeParameters
  simp only [matchesBetween_seqAll_cons, matchesBetween_literal_empty, matchesBetween_blanks,
    matchesBetween_maybe, matchesBetween_lit, matchesBetween_seqAll_nil]
  exact ⟨[], _, rfl, rfl, [], _, rfl, by simp, [], _, rfl, Or.inr rfl, [], _, rfl, by simp, ['('],
    [], rfl, rfl, rfl⟩

theorem beginsWord_of_methodWord : ∀ w ∈ methodWords, beginsWord w.toList = true := by decide

/-- **A method without a name** is found wherever a function has none. -/
theorem keywordMethod_empty_occursIn (h : HasAnonymousMethod text) :
    (keywordMethod "").OccursIn text := by
  obtain ⟨before, w, gap, behind, rfl, hbefore, hw, hgap⟩ := h
  obtain ⟨c, t, ht, hc⟩ := exists_cons_of_beginsWord (beginsWord_of_methodWord w hw) (.refl w.toList)
  have hboundary : isBoundary before.getLast? (w.toList ++ (gap ++ '(' :: behind)).head? = true := by
    rw [ht]
    exact (isBoundary_iff hc).mpr hbefore
  have hword : ∀ front rest, MatchesBetween front (anyOf methodWords) w.toList rest := fun _ _ =>
    matchesBetween_oneOf.mpr ⟨literal w, List.mem_map_of_mem hw, matchesBetween_literal.mpr rfl⟩
  unfold keywordMethod
  rw [occursIn_iff]
  simp only [matchesAt_seqAll_cons, matchesBetween_wordBoundary, matchesBetween_gap]
  exact ⟨before, _, rfl, [], _, rfl, ⟨rfl, hboundary⟩, w.toList, _, rfl, hword _ _, gap, _, rfl,
    hgap, ['('], behind, rfl, matchesBetween_nameAndBracket_empty, matchesAt_seqAll_nil⟩

/-! ## Literals -/

/-- **A literal without a name** is a pair of quotes. -/
theorem quoted_empty_occursIn_iff : (quoted "").OccursIn text ↔ HasEmptyQuotes text :=
  quoted_occursIn_iff

/-! ## Statements on tables -/

/-- The text has one of the words last, and no word goes on in front of it. -/
def EndsInAccessWord (before s : List Char) : Prop :=
  ∃ lead word, s = lead ++ word ∧ EndsNoWord (before ++ lead) ∧
    ∃ w ∈ accessWords, SameUpToCase word w.toList

theorem beginsWord_of_accessWord : ∀ w ∈ accessWords, beginsWord w.toList = true := by decide

/-- What a verb is good for: it begins a word, and one of the words ends it. -/
def IsAccessVerb (before s : List Char) : Prop :=
  (∃ c t, s = c :: t ∧ isWordChar c = true) ∧ (EndsNoWord before → EndsInAccessWord before s)

theorem isAccessVerb_word {w : String} (hw : w ∈ accessWords)
    (h : MatchesBetween before (literal w).ignoringCase s behind) : IsAccessVerb before s := by
  rw [matchesBetween_ignoringCase_literal] at h
  refine ⟨exists_cons_of_beginsWord (beginsWord_of_accessWord w hw) h, ?_⟩
  intro hbefore
  refine ⟨[], s, rfl, ?_, w, hw, h⟩
  rw [List.append_nil]
  exact hbefore

/-- A keyword, whatever lets no word go on in front of the last word, and that word. -/
theorem isAccessVerb_phrase {v w : String} {ps : List Pattern} (hv : beginsWord v.toList = true)
    (hw : w ∈ accessWords)
    (hps : ∀ {front t behind}, EndsNoWord front → MatchesBetween front (seqAll ps) t behind →
      EndsNoWord (front ++ t))
    (h : MatchesBetween before (seqAll (phrase [v] ++ (ps ++ [(literal w).ignoringCase]))) s behind) :
    IsAccessVerb before s := by
  obtain ⟨verb, _, rfl, hverb, h⟩ := matchesBetween_seqAll_append.mp h
  obtain ⟨more, word, rfl, hmore, hword⟩ := matchesBetween_seqAll_append.mp h
  rw [matchesBetween_phrase] at hverb
  obtain ⟨c, t, rfl, hc⟩ := hverb.exists_cons hv
  refine ⟨⟨c, _, rfl, hc⟩, fun _ => ⟨c :: t ++ more, word, by simp, ?_, w, hw, ?_⟩⟩
  · rw [← List.append_assoc]
    exact hps (hverb.endsNoWord_append) hmore
  · exact matchesBetween_ignoringCase_literal.mp hword

/-- Behind `insert` there may be a clause, which ends in a gap. -/
theorem endsNoWord_append_clause {front t : List Char} (hfront : EndsNoWord front)
    (h : MatchesBetween front (seqAll [maybe (seqAll (phrase ["or"] ++
      [many (.char true (.ranges false [('a', 'z')])), gap.ignoringCase]))]) t behind) :
    EndsNoWord (front ++ t) := by
  rcases matchesBetween_maybe.mp h with h | rfl
  · obtain ⟨word, _, rfl, -, h⟩ := matchesBetween_seqAll_append.mp h
    obtain ⟨letters, blanks, rfl, -, h⟩ := matchesBetween_seqAll_cons.mp h
    rw [← List.append_assoc, ← List.append_assoc]
    exact endsNoWord_append_gap (matchesBetween_ignoringCase_gap.mp h)
  · rw [List.append_nil]
    exact hfront

theorem isAccessVerb_of_matches (h : MatchesBetween before accessVerb s behind) :
    IsAccessVerb before s := by
  have hnothing : ∀ {front t behind : List Char}, EndsNoWord front →
      MatchesBetween front (seqAll []) t behind → EndsNoWord (front ++ t) := by
    intro front t behind hfront ht
    rw [matchesBetween_seqAll_nil.mp ht, List.append_nil]
    exact hfront
  obtain ⟨p, hp, h⟩ := matchesBetween_oneOf.mp h
  simp only [List.mem_cons, List.not_mem_nil, or_false] at hp
  rcases hp with rfl | rfl | rfl | rfl | rfl | rfl | rfl | rfl | rfl
  · exact isAccessVerb_phrase (v := "insert") (w := "into") (by decide) (by decide)
      endsNoWord_append_clause h
  · exact isAccessVerb_word (by decide) h
  · exact isAccessVerb_phrase (v := "delete") (w := "from") (by decide) (by decide) hnothing h
  · exact isAccessVerb_phrase (v := "replace") (w := "into") (by decide) (by decide) hnothing h
  · exact isAccessVerb_phrase (v := "merge") (w := "into") (by decide) (by decide) hnothing h
  · exact isAccessVerb_phrase (v := "upsert") (w := "into") (by decide) (by decide) hnothing h
  · exact isAccessVerb_word (by decide) h
  · exact isAccessVerb_word (by decide) h
  · exact isAccessVerb_word (by decide) h

/-- Each of the words is a verb on its own. -/
theorem matchesBetween_accessVerb {w : String} (hw : w ∈ accessWords)
    (h : SameUpToCase s w.toList) : MatchesBetween before accessVerb s behind := by
  have hword : MatchesBetween before (literal w).ignoringCase s behind :=
    matchesBetween_ignoringCase_literal.mpr h
  refine matchesBetween_oneOf.mpr ⟨(literal w).ignoringCase, ?_, hword⟩
  simp only [accessWords, List.mem_cons, List.not_mem_nil, or_false] at hw
  rcases hw with rfl | rfl | rfl | rfl <;> simp

/-- **A statement on a table without a name** is one of the words and a blank, with no name behind
them. -/
theorem tableStatement_empty_occursIn_iff :
    (tableStatement "").OccursIn text ↔ HasBareAccess text := by
  unfold HasBareAccess
  rw [occursIn_iff, tableStatement_eq]
  simp only [↓matchesAt_wordEnd, matchesAt_seqAll_cons, matchesBetween_wordBoundary,
    matchesBetween_ignoringCase_gap, matchesBetween_maybeMark openingMarks_isCaseless,
    matchesBetween_maybeMark closingMarks_isCaseless, matchesBetween_ignoringCase_literal_empty]
  constructor
  · rintro ⟨before, _, rfl, _, _, rfl, ⟨rfl, hboundary⟩, verb, _, rfl, hverb, blanks, _, rfl,
      ⟨hne, hblanks⟩, opening, _, rfl, hopening, _, _, rfl, rfl, closing, behind, rfl, hclosing,
      hbehind⟩
    rw [List.append_nil] at hverb
    obtain ⟨⟨d, t, rfl, hd⟩, hends⟩ := isAccessVerb_of_matches hverb
    obtain ⟨lead, word, hcut, hlead, hword⟩ := hends ((isBoundary_iff hd).mp hboundary)
    obtain ⟨c, more, rfl⟩ := List.exists_cons_of_ne_nil hne
    rw [List.forall_mem_cons] at hblanks
    refine ⟨before ++ lead, word, c, more ++ (opening ++ (closing ++ behind)), ?_, hlead, hword,
      hblanks.1, ?_⟩
    · rw [List.nil_append, hcut]
      simp
    · apply endsName_append fun c hc => not_isNameCharUpToCase_of_isBlank (hblanks.2 c hc)
      apply endsName_append (not_isNameCharUpToCase_of_isMark (by decide) hopening)
      exact endsName_append (not_isNameCharUpToCase_of_isMark (by decide) hclosing) hbehind
  · rintro ⟨before, word, c, behind, rfl, hbefore, ⟨w, hw, hword⟩, hc, hbehind⟩
    obtain ⟨d, t, rfl, hd⟩ := exists_cons_of_beginsWord (beginsWord_of_accessWord w hw) hword
    exact ⟨before, _, rfl, [], _, rfl, ⟨rfl, (isBoundary_iff hd).mpr hbefore⟩, d :: t, _, rfl,
      matchesBetween_accessVerb hw hword, [c], _, rfl, ⟨by simp, by simpa using hc⟩, [], _, rfl,
      Or.inl rfl, [], _, rfl, rfl, [], behind, rfl, Or.inl rfl, hbehind⟩

/-! ## Tables in strings -/

/-- **A table without a name in a string** is a place that no character of a name stands next
to. -/
theorem tableInString_empty_occursIn_iff :
    (tableInString "").OccursIn text ↔ HasPlaceInString text := tableInString_occursIn_iff

end Pattern

end ContractAudit
