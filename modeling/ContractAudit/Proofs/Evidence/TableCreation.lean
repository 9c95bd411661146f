import ContractAudit.Proofs.Evidence.Tokens

/-!
# Statements that create a table

A text creates a table where it has the keywords, perhaps a clause, and the name of the table.
`TableCreation` cuts such a text into its parts, with a place for a schema in front of the name and
with nothing said about what follows. The pattern for tables occurs exactly where a creation names
no schema and no character of a name follows (`createTable_occursIn_iff`). A dollar sign is no such
character, although it is one of an identifier, while the two signs that fold into ASCII are.
-/

namespace ContractAudit

open Text

namespace Text

/-- The marks that open a quoted name. -/
def openingMarks : List Char := ['\x60', '"', '[']

/-- The marks that close one. Nothing asks for a mark on both sides, or for a pair. -/
def closingMarks : List Char := ['\x60', '"', ']']

/-- One of the marks, or nothing. -/
def IsMark (marks : List Char) (s : List Char) : Prop := s = [] ∨ ∃ c ∈ marks, s = [c]

/-- A schema in front of a name: a text without blanks, and a dot. -/
def IsQualifier (s : List Char) : Prop :=
  ∃ schema, schema ≠ [] ∧ schema.any isBlank = false ∧ s = schema ++ ['.']

/-- A place in a text where a table is created. -/
structure TableCreation (name text : List Char) where
  before : List Char
  keywords : List Char
  clause : List Char
  qualifier : List Char
  opening : List Char
  word : List Char
  closing : List Char
  behind : List Char
  text_eq : text = before ++
    (keywords ++ (clause ++ (qualifier ++ (opening ++ (word ++ (closing ++ behind))))))
  startsWord : EndsNoWord before
  isKeywords : IsPhrase ["create", "table"] keywords
  isClause : clause = [] ∨ IsPhrase ["if", "not", "exists"] clause
  isQualifier : qualifier = [] ∨ IsQualifier qualifier
  isOpening : IsMark openingMarks opening
  isName : SameUpToCase word name
  isClosing : IsMark closingMarks closing

namespace TableCreation

variable {name text : List Char}

/-- The name ends where an identifier does. -/
def IsDocumented (c : TableCreation name text) : Prop := EndsIdentifier c.behind

/-- No schema is named, and no character of a name follows, up to case. -/
def IsSeen (c : TableCreation name text) : Prop := c.qualifier = [] ∧ EndsName c.behind

/-- No schema is named, and none of the characters follows that only some take for the end of a
name. -/
def IsPlain (c : TableCreation name text) : Prop :=
  c.qualifier = [] ∧ ∀ d ∈ ['$', longS, kelvinSign], c.behind.head? ≠ some d

theorem isSeen_iff_of_isPlain {c : TableCreation name text} (h : c.IsPlain) :
    c.IsSeen ↔ c.IsDocumented := by
  obtain ⟨hqualifier, hnext⟩ := h
  unfold IsSeen IsDocumented EndsName EndsIdentifier
  rw [and_iff_right hqualifier]
  apply forall_congr'
  intro d
  apply imp_congr_right
  intro hd
  have hplain : ∀ e ∈ ['$', longS, kelvinSign], d ≠ e := by
    rintro e he rfl
    exact hnext d he hd
  have hsigns : ¬ (d = longS ∨ d = kelvinSign) := by
    rintro (hsign | hsign)
    · exact hplain longS (by simp) hsign
    · exact hplain kelvinSign (by simp) hsign
  unfold IsNameCharUpToCase isIdentifierChar
  rw [or_iff_left hsigns, Bool.or_eq_false_iff, beq_eq_false_iff_ne,
    and_iff_left (hplain '$' (by simp)), Bool.not_eq_true]

/-- A dollar sign ends a name although it goes on with an identifier. -/
theorem isSeen_of_dollar {c : TableCreation name text} (hqualifier : c.qualifier = [])
    (hnext : c.behind.head? = some '$') : c.IsSeen ∧ ¬ c.IsDocumented := by
  constructor
  · refine ⟨hqualifier, ?_⟩
    intro d hd
    rw [hnext] at hd
    cases hd
    decide
  · intro h
    exact absurd (h '$' hnext) (by decide)

end TableCreation

end Text

namespace Pattern

variable {before s behind : List Char}

/-- A mark, or none, up to case. -/
def maybeMark (marks : List Char) : Pattern := maybe (.char true (.ranges false (marks.map only)))

theorem matchesBetween_maybeMark {marks : List Char} (hmarks : marks.all isCaseless = true) :
    MatchesBetween before (maybeMark marks) s behind ↔ IsMark marks s := by
  have hset : ∀ {c}, (CharSet.ranges false (marks.map only)).has true c = true ↔ c ∈ marks := by
    simp [CharSet.has, CharSet.any_rangeHas_only_upToCase hmarks]
  unfold maybeMark IsMark
  rw [matchesBetween_maybe, matchesBetween_charIn hset, or_comm]

theorem openingMarks_isCaseless : openingMarks.all isCaseless = true := by decide

theorem closingMarks_isCaseless : closingMarks.all isCaseless = true := by decide

theorem createTable_eq (name : String) : createTable name =
    seqAll (.wordBoundary :: (phrase ["create", "table"] ++
      [maybe (seqAll (phrase ["if", "not", "exists"])), maybeMark openingMarks,
        (literal name).ignoringCase, maybeMark closingMarks, wordEnd.ignoringCase])) := rfl

/-- **The pattern for tables occurs where a creation is seen**, and nowhere else. -/
theorem createTable_occursIn_iff {name : String} {text : List Char} :
    (createTable name).OccursIn text ↔ ∃ c : TableCreation name.toList text, c.IsSeen := by
  rw [occursIn_iff, createTable_eq]
  have hcreate : beginsWord "create".toList = true := by decide
  simp only [↓matchesAt_wordEnd, matchesAt_keywords hcreate, matchesAt_seqAll_cons,
    matchesBetween_maybe, matchesBetween_phrase, matchesBetween_maybeMark openingMarks_isCaseless,
    matchesBetween_maybeMark closingMarks_isCaseless, matchesBetween_ignoringCase_literal]
  constructor
  · rintro ⟨before, _, rfl, hbefore, keywords, _, rfl, hkeywords, clause, _, rfl, hclause,
      opening, _, rfl, hopening, word, _, rfl, hname, closing, behind, rfl, hclosing, hbehind⟩
    exact ⟨{
      before, keywords, clause, opening, word, closing, behind
      qualifier := []
      text_eq := rfl
      startsWord := hbefore
      isKeywords := hkeywords
      isClause := hclause.symm
      isQualifier := Or.inl rfl
      isOpening := hopening
      isName := hname
      isClosing := hclosing }, rfl, hbehind⟩
  · rintro ⟨c, hqualifier, hbehind⟩
    have htext := c.text_eq
    rw [hqualifier, List.nil_append] at htext
    exact ⟨c.before, _, htext, c.startsWord, c.keywords, _, rfl, c.isKeywords, c.clause, _, rfl,
      c.isClause.symm, c.opening, _, rfl, c.isOpening, c.word, _, rfl, c.isName, c.closing,
      c.behind, rfl, c.isClosing, hbehind⟩

end Pattern

end ContractAudit
