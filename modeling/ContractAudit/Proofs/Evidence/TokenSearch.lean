import ContractAudit.Audit.Nodes
import ContractAudit.Proofs.Evidence.Notation
import ContractAudit.Proofs.Evidence.Tokens
import ContractAudit.Proofs.Pattern.AsOneLine
import ContractAudit.Proofs.Text.OneLine

/-!
# Looking for tokens line by line

A token is written down with its name escaped, and what is read back is the pattern for the token
(`compile_token`). It may be looked for in a whole text, where every line has its ends, or line by
line, where each line is a text of its own. Both find the name exactly where it stands as a whole
identifier (`tokens_are_whole_identifiers`): a name on one line stands within a line, and the ends of
lines are no characters of identifiers.
-/

namespace ContractAudit

open Text Pattern

/-! ## The notation -/

theorem PatternNotation.compile_token (name : String) :
    PatternNotation.compile [.token name] = some [(Pattern.token name).laidOut] := by
  have hread : read (PatternNotation.token name).anyCase (PatternNotation.token name).text =
    some (Pattern.token name).laidOut := (reads_token name).read_eq
  simp only [PatternNotation.compile, List.mapM_cons, List.mapM_nil, hread]
  rfl

/-! ## Lines -/

namespace Text

/-- **A token of a text is a token of one of its lines**, if its name is on one line. -/
theorem hasToken_iff_exists_line {name s : List Char} (hne : name ≠ []) (hname : '\n' ∉ name) :
    HasToken name s ↔ ∃ l ∈ rawLines s, HasToken name l := by
  constructor
  · rintro ⟨before, behind, rfl, hbefore, hbehind⟩
    obtain ⟨above, start, rfl, habove, hstart⟩ := exists_atLineStart before
    obtain ⟨rest, below, rfl, hbelow, hrest⟩ := exists_atLineEnd behind
    refine ⟨start ++ (name ++ rest), mem_rawLines_of_isLineBlock ?_ ?_ ?_, start, rest, rfl, ?_, ?_⟩
    · exact ⟨above, below, by simp, habove, hbelow⟩
    · simp only [List.mem_append, not_or]
      exact ⟨hstart, hname, hrest⟩
    · simp [hne]
    · intro c hc
      apply hbefore c
      rw [List.getLast?_append, hc, Option.some_or]
    · intro c hc
      apply hbehind c
      rw [List.head?_append, hc, Option.some_or]
  · -- Back from a line to the text goes through the pattern, which no block of lines misleads.
    rintro ⟨l, hl, h⟩
    have hmatch : (token (String.ofList name)).OccursIn l := by
      rw [token_occursIn_iff, String.toList_ofList]
      exact h
    have hocc := hmatch.of_isLineBlock (isLineBlock_of_mem_rawLines hl)
    rwa [token_occursIn_iff, String.toList_ofList] at hocc

end Text

/-- To look through the lines as texts of their own is to look within lines. -/
theorem Pattern.exists_line_occursAsOneLine_iff {p : Pattern} {s : List Char} (h : ReturnFree s) :
    (∃ l ∈ Text.lines s, p.OccursAsOneLine l) ↔ ∃ l ∈ rawLines s, p.OccursIn l := by
  rw [lines_of_returnFree h]
  refine exists_congr fun l => and_congr_right fun hl => ?_
  exact occursAsOneLine_iff (newline_notMem_of_mem_rawLines hl)

theorem SourceFile.namesSchema_iff {f : SourceFile} {name : String} (h : ReturnFree f.text.toList) :
    f.namesSchema name = true ↔ ∃ l ∈ rawLines f.text.toList, (Pattern.token name).OccursIn l := by
  unfold namesSchema
  rw [List.any_eq_true, lines_of_returnFree h]
  simp only [Pattern.found_iff]

/-! ## The search -/

/-- **Tokens are whole identifiers.** Any name can be written down as a token. Looked for in a text
without carriage returns, in its lines taken one by one, or as a schema, a name that is not empty and
on one line is found exactly if it stands there as a whole identifier. -/
theorem tokens_are_whole_identifiers {name : String} {f : SourceFile} (hne : name ≠ "")
    (hname : IsOneLine name) (hfile : ReturnFree f.text.toList) :
    ∃ p, PatternNotation.compile [.token name] = some [p] ∧
      (p.OccursIn f.text.toList ↔ HasToken name.toList f.text.toList) ∧
      ((∃ l ∈ Text.lines f.text.toList, p.OccursAsOneLine l) ↔
        HasToken name.toList f.text.toList) ∧
      (f.namesSchema name = true ↔ HasToken name.toList f.text.toList) := by
  have hname' : name.toList ≠ [] := by simpa using hne
  refine ⟨(Pattern.token name).laidOut, PatternNotation.compile_token name, ?_, ?_, ?_⟩
  · rw [occursIn_laidOut, token_occursIn_iff]
  · rw [exists_line_occursAsOneLine_iff hfile, hasToken_iff_exists_line hname' hname]
    simp only [occursIn_laidOut, token_occursIn_iff]
  · rw [SourceFile.namesSchema_iff hfile, hasToken_iff_exists_line hname' hname]
    simp only [token_occursIn_iff]

/-- Signs that mean something in the notation are found as they stand, here at the end of a line. -/
theorem signs_are_found_as_they_stand :
    let f : SourceFile := ⟨"a.ts", none, "(a.b)?c\nuse (a.b)?\n"⟩
    "(a.b)?" ≠ "" ∧ IsOneLine "(a.b)?" ∧ ReturnFree f.text.toList ∧
      HasToken "(a.b)?".toList f.text.toList ∧ f.namesSchema "(a.b)?" = true := by
  intro f
  have hfile : ReturnFree f.text.toList := by
    unfold ReturnFree
    decide +kernel
  have hname : IsOneLine "(a.b)?" := by
    unfold IsOneLine
    decide +kernel
  have hne : "(a.b)?" ≠ "" := by decide
  have htoken : HasToken "(a.b)?".toList f.text.toList := by
    refine ⟨"(a.b)?c\nuse ".toList, ['\n'], by decide +kernel, ?_, ?_⟩
    · rintro c ⟨⟩
      decide
    · rintro c ⟨⟩
      decide
  obtain ⟨p, -, -, -, hschema⟩ := tokens_are_whole_identifiers hne hname hfile
  exact ⟨hne, hname, hfile, htoken, hschema.mpr htoken⟩

end ContractAudit
