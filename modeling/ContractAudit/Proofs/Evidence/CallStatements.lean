import ContractAudit.Proofs.Evidence.Tokens
import ContractAudit.Proofs.Text.CallStatements

/-!
# Calls are no declarations

No pattern for a method occurs in a text of call statements, whatever the names and the arguments
are, keywords among them. There are two reasons. A bare head and a function value need a sign that no
call has (`declaringSigns`). The other heads have a word or a bracket in front of the name (`Closes`),
and what is between the two stays within a statement and ends in a blank (`StopsAtBlank`); in front
of a call there is nothing of the kind (`not_occursIn_of_closes`). The pattern for a call occurs in
the first line.
-/

namespace ContractAudit

open Text Pattern

variable {name : String} {text : List Char}

namespace Pattern

theorem mem_of_occursIn_lit {c : Char} (h : (lit c).OccursIn text) : c ∈ text := by
  obtain ⟨d, hd, hset⟩ := exists_mem_of_occursIn_char h
  rw [literal_has] at hset
  subst hset
  exact hd

/-! ## Signs -/

/-- Signs that some declarations need and no call has. -/
def declaringSigns : List Char := [':', '=', '\x7b']

/-- A bare head has a brace, an equals sign or a colon behind its parameters. -/
theorem exists_sign_of_bareMethod (h : (bareMethod name).OccursIn text) :
    ∃ c ∈ declaringSigns, c ∈ text := by
  obtain ⟨p, hp, hocc⟩ := exists_occursIn_of_oneOf (occursIn_part [_, _, _, _, _, _, _] [] h)
  simp only [List.mem_cons, List.not_mem_nil, or_false] at hp
  rcases hp with rfl | rfl | rfl
  · exact ⟨_, by decide, mem_of_occursIn_lit (occursIn_part [_] [] hocc)⟩
  · exact ⟨_, by decide, mem_of_occursIn_lit (c := '=') (occursIn_part [] [_] hocc)⟩
  · exact ⟨_, by decide, mem_of_occursIn_lit (occursIn_part [] [_, _] hocc)⟩

theorem exists_sign_of_functionValue (h : (functionValue name).OccursIn text) :
    ∃ c ∈ declaringSigns, c ∈ text := by
  obtain ⟨c, hc, hset⟩ := exists_mem_of_occursIn_char (occursIn_part [_, _, _] [_, _, _] h)
  have hsign : [':', '='].contains c = true := by
    rw [← CharSet.any_rangeHas_only]
    simpa [CharSet.has] using hset
  exact ⟨c, List.mem_append_left ['\x7b'] (List.contains_iff_mem.mp hsign), hc⟩

/-! ## Names and brackets -/

/-- In a text without type parameters every match is the name and a bracket, with blanks at most in
between. -/
def OpensBracket (name : String) (p : Pattern) : Prop :=
  ∀ before rest, '<' ∉ rest → MatchesAt before p rest → ∃ gap behind,
    rest = name.toList ++ (gap ++ '(' :: behind) ∧ ∀ c ∈ gap, isBlank c = true

theorem opensBracket_nameAndBracket (name : String) : OpensBracket name (nameAndBracket name) := by
  intro before rest hsign h
  unfold nameAndBracket at h
  rw [matchesAt_literal_cons] at h
  simp only [matchesAt_seqAll_cons, matchesBetween_blanks, matchesBetween_lit] at h
  obtain ⟨_, rfl, blanks, _, rfl, hblanks, t, _, rfl, ht, blanks', _, rfl, hblanks', _, behind, rfl,
    rfl, -⟩ := h
  have hnone : t = [] := by
    unfold typeParameters at ht
    rw [matchesBetween_maybe, matchesBetween_seqAll_cons] at ht
    rcases ht with ⟨_, u, rfl, hopen, -⟩ | hnone
    · rw [matchesBetween_lit] at hopen
      subst hopen
      exact absurd (by simp) hsign
    · exact hnone
  subst hnone
  exact ⟨blanks ++ blanks', behind, by simp, List.forall_mem_append.mpr ⟨hblanks, hblanks'⟩⟩

theorem opensBracket_seqAll (name : String) :
    OpensBracket name (seqAll [literal name, blanks, lit '(']) := by
  intro before rest _ h
  rw [matchesAt_literal_cons] at h
  simp only [matchesAt_seqAll_cons, matchesBetween_blanks, matchesBetween_lit] at h
  obtain ⟨_, rfl, gap, _, rfl, hgap, _, behind, rfl, rfl, -⟩ := h
  exact ⟨gap, behind, rfl, hgap⟩

/-! ## Words in front of a name -/

/-- A word ends, or a bracket does. -/
def closesWord (c : Char) : Bool := isNameChar c || c == ')'

theorem isBlank_of_closesWord {c : Char} (h : closesWord c = true) : isBlank c = false := by
  unfold closesWord at h
  rw [Bool.or_eq_true, beq_iff_eq] at h
  rcases h with hname | rfl
  · exact isBlank_of_isNameChar hname
  · decide

/-- Every match ends in a word or a closing bracket. -/
def Closes (p : Pattern) : Prop :=
  ∀ before s behind, MatchesBetween before p s behind → s.getLast?.any closesWord = true

/-- No match goes over the end of a statement, and what is not empty ends in a blank. -/
def StopsAtBlank (p : Pattern) : Prop :=
  ∀ before s behind, MatchesBetween before p s behind →
    ';' ∉ s ∧ ∀ d, s.getLast? = some d → isBlank d = true

theorem closes_literal {w : String} (hw : w.toList.getLast?.any closesWord = true) :
    Closes (literal w) := by
  intro before s behind h
  rw [matchesBetween_literal] at h
  rw [h]
  exact hw

theorem closes_oneOf {ps : List Pattern} (h : ∀ p ∈ ps, Closes p) : Closes (oneOf ps) := by
  intro before s behind hs
  obtain ⟨p, hp, hmatch⟩ := matchesBetween_oneOf.mp hs
  exact h p hp before s behind hmatch

theorem closes_anyOf {words : List String}
    (hwords : (words.all fun w => w.toList.getLast?.any closesWord) = true) :
    Closes (anyOf words) := by
  apply closes_oneOf
  intro p hp
  obtain ⟨w, hw, rfl⟩ := List.mem_map.mp hp
  exact closes_literal (List.all_eq_true.mp hwords w hw)

theorem closesWord_append {t u : List Char} (h : u.getLast?.any closesWord = true) :
    (t ++ u).getLast?.any closesWord = true := by
  rw [List.getLast?_append_of_ne_nil]
  · exact h
  · rintro rfl
    cases h

/-- The last part of a sequence closes it. -/
theorem Closes.concat {p : Pattern} (h : Closes p) (ps : List Pattern) :
    Closes (seqAll (ps ++ [p])) := by
  intro before s behind hs
  obtain ⟨t, u, rfl, -, hu⟩ := matchesBetween_seqAll_append.mp hs
  exact closesWord_append (h _ u behind hu)

theorem closes_bracket : Closes (lit ')') := closes_literal (w := ")") (by decide)

theorem closes_visibility : Closes (oneOf [literal "public", literal "private",
    literal "protected", literal "internal",
    seqAll [literal "pub", maybe (seqAll [lit '(', many (within [('a', 'z')]), lit ')'])]]) := by
  apply closes_oneOf
  simp only [List.forall_mem_cons, List.not_mem_nil, false_implies, implies_true, and_true]
  refine ⟨closes_literal (by decide), closes_literal (by decide), closes_literal (by decide),
    closes_literal (by decide), ?_⟩
  intro before s behind h
  obtain ⟨t, u, rfl, ht, hu⟩ := matchesBetween_seqAll_cons.mp h
  rcases matchesBetween_maybe.mp hu with hbracket | rfl
  · exact closesWord_append (closes_bracket.concat [_, _] _ u behind hbracket)
  · rw [List.append_nil]
    exact closes_literal (w := "pub") (by decide) _ t _ ht

theorem stopsAtBlank_blanks : StopsAtBlank blanks := by
  intro before s behind h
  rw [matchesBetween_blanks] at h
  exact ⟨fun hend => absurd (h ';' hend) (by decide), fun d hd => h d (List.mem_of_getLast? hd)⟩

theorem stopsAtBlank_gap : StopsAtBlank gap := by
  intro before s behind h
  rw [matchesBetween_gap] at h
  exact stopsAtBlank_blanks before s behind (matchesBetween_blanks.mpr h.2)

/-- Other words may stand between a word for visibility and the name. -/
theorem stopsAtBlank_words : StopsAtBlank (seqAll [gap,
    maybe (seqAll [
      .star (without [only '\n', only ';', only '=', only '(', only ')', only '\x7b', only '\x7d']),
      blank])]) := by
  intro before s behind h
  obtain ⟨t, u, rfl, ht, hu⟩ := matchesBetween_seqAll_cons.mp h
  obtain ⟨hend, hlast⟩ := stopsAtBlank_gap before t _ ht
  rcases matchesBetween_maybe.mp hu with hwords | rfl
  · simp only [matchesBetween_seqAll_cons] at hwords
    obtain ⟨v, _, rfl, hv, w, _, rfl, hw, hnil⟩ := hwords
    obtain ⟨b, rfl, hb⟩ := matchesBetween_char.mp hw
    rw [matchesBetween_seqAll_nil] at hnil
    subst hnil
    have hv' : ';' ∉ v := by
      intro hmem
      exact absurd (matchesBetween_star_char.mp hv ';' hmem) (by decide)
    have hb' : ';' ≠ b := by
      rintro rfl
      exact absurd hb (by decide)
    constructor
    · simp [hend, hv', hb']
    · intro d hd
      rw [List.append_nil, ← List.append_assoc, List.getLast?_concat, Option.some.injEq] at hd
      exact hd ▸ hb
  · rw [List.append_nil]
    exact ⟨hend, hlast⟩

end Pattern

/-! ## Texts of call statements -/

section

variable {name : PlainName} {first : CallStatement} {others : List CallStatement}

/-- **No head that is led up to by a word is in the text.** -/
theorem not_occursIn_of_closes (ps ms ts : List Pattern) (hps : Closes (seqAll ps))
    (hms : StopsAtBlank (seqAll ms)) (hts : OpensBracket name.text (seqAll ts)) :
    ¬ (seqAll (ps ++ (ms ++ ts))).OccursIn (callText name first others).toList := by
  intro h
  obtain ⟨before, _, htext, hmatch⟩ := Pattern.occursIn_iff.mp h
  obtain ⟨word, _, rfl, hword, hmatch⟩ := matchesAt_seqAll_append.mp hmatch
  obtain ⟨middle, rest, rfl, hmiddle, hmatch⟩ := matchesAt_seqAll_append.mp hmatch
  have hopen : '<' ∉ (callText name first others).toList := notMem_callText (by decide)
  rw [htext] at hopen
  simp only [List.mem_append, not_or] at hopen
  obtain ⟨gap, behind, rfl, hgap⟩ := hts _ rest hopen.2.2.2 hmatch
  obtain ⟨hend, hlast⟩ := hms _ middle _ hmiddle
  have hclosed := hps before word _ hword
  rw [Option.any_eq_true] at hclosed
  obtain ⟨d, hd, hcloses⟩ := hclosed
  unfold callText at htext
  rw [String.toList_ofList, ← List.append_assoc] at htext
  have hbefore : (before ++ word).getLast? = some d := by
    rw [List.getLast?_append, hd, Option.some_or]
  -- None of the three ends a word or a bracket.
  rcases CallStatement.last_of_bracket htext hgap hend hlast hbefore with rfl | rfl | hblank
  · exact absurd hcloses (by decide)
  · exact absurd hcloses (by decide)
  · rw [isBlank_of_closesWord hcloses] at hblank
    cases hblank

/-- Neither is a declaration that needs one of the signs. -/
theorem not_occursIn_of_sign {p : Pattern} (hp : ∀ {text : List Char}, p.OccursIn text →
    ∃ c ∈ declaringSigns, c ∈ text) : ¬ p.OccursIn (callText name first others).toList := by
  have hsigns : declaringSigns.all (!isCallChar ·) = true := by decide
  intro h
  obtain ⟨c, hc, hmem⟩ := hp h
  have hsign : isCallChar c = false := by simpa using List.all_eq_true.mp hsigns c hc
  exact notMem_callText hsign hmem

/-- **A call is no declaration**: no pattern for a method of the name occurs in a text of its
calls. -/
theorem Evidence.not_occursIn_callText {p : Pattern} (hp : p ∈ methodPatterns name.text) :
    ¬ p.OccursIn (callText name first others).toList := by
  simp only [methodPatterns, List.mem_cons, List.not_mem_nil, or_false] at hp
  rcases hp with rfl | rfl | rfl | rfl | rfl
  · exact not_occursIn_of_closes [_, _] [_, _] [_] (closes_visibility.concat [.wordBoundary])
      stopsAtBlank_words (opensBracket_nameAndBracket name.text)
  · exact not_occursIn_of_closes [_, _] [_] [_]
      ((closes_anyOf (by decide)).concat [.wordBoundary]) stopsAtBlank_gap
      (opensBracket_nameAndBracket name.text)
  · exact not_occursIn_of_closes [_, _, _, _, _, _] [_] [_, _, _]
      (closes_bracket.concat [_, _, _, _, _]) stopsAtBlank_blanks (opensBracket_seqAll name.text)
  · exact not_occursIn_of_sign exists_sign_of_bareMethod
  · exact not_occursIn_of_sign exists_sign_of_functionValue

theorem Text.LeadsToCall.endsNoIdentifier {s : List Char} (h : LeadsToCall s) :
    EndsNoIdentifier s := by
  rw [← List.append_nil s] at h
  intro c hc
  rcases h.last_of_append (by simp) nofun hc with rfl | rfl | hblank
  · decide
  · decide
  · exact isIdentifierChar_of_isBlank hblank

/-- **A call is found**, in the first line already. -/
theorem Evidence.callOf_occursIn_callText :
    (callOf name.text).OccursIn (callText name first others).toList := by
  obtain ⟨behind, htext⟩ := exists_callText_eq name first others
  unfold callOf
  rw [htext, occursIn_identifierStart_iff]
  refine ⟨first.lead, _, rfl, first.leadsToCall.endsNoIdentifier, ?_⟩
  rw [matchesAt_literal_cons]
  refine ⟨'(' :: behind, rfl, ?_⟩
  rw [matchesAt_seqAll_cons]
  refine ⟨[], '(' :: behind, rfl, matchesBetween_blanks.mpr (by simp), ?_⟩
  exact ⟨['('], behind, rfl, matchesBetween_lit.mpr rfl⟩

end

end ContractAudit
