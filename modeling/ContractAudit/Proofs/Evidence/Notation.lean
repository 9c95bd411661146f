import ContractAudit.Audit.Edges
import ContractAudit.Evidence.Notation
import ContractAudit.Proofs.Pattern.Notation

/-!
# Every name can be looked for

Each family that edges look for is written down with the name escaped. Whatever the name is, what is
written is the notation of patterns (`compile_notations`), and they occur where the patterns of the
family do. So a verdict on an edge is never that its pattern is invalid (`evidence_eq_verdict`).

The fixed texts around the names are read first, piece by piece as the patterns are built.
-/

namespace ContractAudit

namespace Pattern

/-! ## Common pieces -/

theorem readsPart_notIdentifier : ReadsPart "[^A-Za-z0-9_$]".toList notIdentifier := fun _ _ => rfl

theorem readsPart_wordCharacter : ReadsPart "[A-Za-z0-9_]".toList (within wordRanges) :=
  fun _ _ => rfl

theorem readsPart_identifierCharacter :
    ReadsPart "[A-Za-z0-9_$]".toList (within identifierRanges) := fun _ _ => rfl

theorem readsPart_lowerCase : ReadsPart "[a-z]".toList (within [('a', 'z')]) := fun _ _ => rfl

theorem readsPart_blank : ReadsPart "\\s".toList blank := fun _ _ => rfl

theorem reads_quote : Reads "[\"'`]".toList [quote] :=
  ReadsPart.reads (p := quote) (fun _ _ => rfl) rfl

/-- A mark that may open a quoted table. -/
theorem reads_openingMark :
    Reads "[`\"\\[]?".toList [maybe (within [only '\x60', only '"', only '['])] := by
  have hset : ReadsPart "[`\"\\[]".toList (within [only '\x60', only '"', only '[']) :=
    fun _ _ => rfl
  exact hset.maybe (p := within [only '\x60', only '"', only '['])

theorem reads_wordBoundary : Reads "\\b".toList [.wordBoundary] :=
  ReadsPart.reads (p := .wordBoundary) (fun _ _ => rfl) rfl

theorem reads_lineStart : Reads ['^'] [.lineStart] :=
  ReadsPart.reads (p := .lineStart) (fun _ _ => rfl) rfl

theorem reads_lineEnd : Reads ['$'] [.lineEnd] :=
  ReadsPart.reads (p := .lineEnd) (fun _ _ => rfl) rfl

theorem reads_blanks : Reads "\\s*".toList [blanks] := ReadsPart.star (p := blank) readsPart_blank

theorem reads_gap : Reads "\\s+".toList [gap] := readsPart_blank.many rfl

theorem reads_identifierStart : Reads "(?:^|[^A-Za-z0-9_$])".toList [identifierStart] :=
  reads_oneOf (.cons reads_lineStart (.cons (readsPart_notIdentifier.reads rfl) .nil))

theorem reads_identifierEnd : Reads "(?:[^A-Za-z0-9_$]|$)".toList [identifierEnd] :=
  reads_oneOf (.cons (readsPart_notIdentifier.reads rfl) (.cons reads_lineEnd .nil))

theorem reads_callEnd : Reads "\\s*\\(".toList [blanks, lit '('] :=
  reads_blanks.append (reads_backslash '(' rfl)

theorem reads_quoted (name : String) :
    Reads ("[\"'`]".toList ++ (escape name.toList ++ "[\"'`]".toList)) [quoted name] :=
  (reads_quote.append ((reads_escape name).append reads_quote)).inOne

theorem reads_token (name : String) : Reads (PatternNotation.token name).text [token name] :=
  (reads_identifierStart.append ((reads_escape name).append reads_identifierEnd)).inOne

/-! ## Validation -/

theorem reads_validatingMethods :
    Reads ("\\s*\\.\\s*(?:parse|safeParse|parseAsync|safeParseAsync|validate|validateSync|" ++
      "validateAsync|check|assert|decode|is)\\s*\\(").toList
      [blanks, lit '.', blanks, anyOf ["parse", "safeParse", "parseAsync", "safeParseAsync",
        "validate", "validateSync", "validateAsync", "check", "assert", "decode", "is"], blanks,
        lit '('] := by
  have hwords := reads_anyOf "parse" "safeParse" ["parseAsync", "safeParseAsync", "validate",
    "validateSync", "validateAsync", "check", "assert", "decode", "is"] (by decide)
  have h := reads_blanks.append ((reads_backslash '.' rfl).append
    (reads_blanks.append (hwords.append reads_callEnd)))
  exact h.ofList_append (by cbv)

theorem reads_validatingFunctions :
    Reads "\\b(?:validate|parse|check|assert)[A-Za-z0-9_]*\\s*\\(\\s*".toList
      [.wordBoundary, anyOf ["validate", "parse", "check", "assert"], .star (within wordRanges),
        blanks, lit '(', blanks] := by
  have hwords := reads_anyOf "validate" "parse" ["check", "assert"] (by decide)
  have h := reads_wordBoundary.append (hwords.append
    ((readsPart_wordCharacter.star (p := within wordRanges)).append (reads_callEnd.append reads_blanks)))
  exact h.ofList (by cbv)

/-! ## Access to a table -/

/-- Two words with a gap between them. -/
theorem reads_twoWords (v w : String) (hv : v.toList.all Char.isAlphanum = true)
    (hw : w.toList.all Char.isAlphanum = true) :
    Reads (v.toList ++ ("\\s+".toList ++ w.toList)) [seqAll [literal v, gap, literal w]] :=
  ((reads_word v hv).append (reads_gap.append (reads_word w hw))).inOne

theorem reads_insertInto :
    Reads "insert\\s+(?:or\\s+[a-z]+\\s+)?into".toList
      [seqAll [literal "insert", gap,
        maybe (seqAll [literal "or", gap, many (within [('a', 'z')]), gap]), literal "into"]] := by
  have hor := reads_maybe_group ((reads_word "or" (by decide)).append
    (reads_gap.append ((readsPart_lowerCase.many rfl).append reads_gap)))
  have h := (reads_word "insert" (by decide)).append (reads_gap.append
    (hor.append (reads_word "into" (by decide))))
  exact h.inOne.ofList (by cbv)

theorem reads_accessWords :
    Reads ("\\b(?:insert\\s+(?:or\\s+[a-z]+\\s+)?into|update|delete\\s+from|" ++
      "replace\\s+into|merge\\s+into|upsert\\s+into|from|join|into)\\s+[`\"\\[]?").toList
      [.wordBoundary,
        oneOf [
          seqAll [literal "insert", gap,
            maybe (seqAll [literal "or", gap, many (within [('a', 'z')]), gap]), literal "into"],
          literal "update",
          seqAll [literal "delete", gap, literal "from"],
          seqAll [literal "replace", gap, literal "into"],
          seqAll [literal "merge", gap, literal "into"],
          seqAll [literal "upsert", gap, literal "into"],
          literal "from", literal "join", literal "into"],
        gap, maybe (within [only '\x60', only '"', only '['])] := by
  have hwords := reads_oneOf (.cons reads_insertInto (.cons (reads_word "update" (by decide))
    (.cons (reads_twoWords "delete" "from" (by decide) (by decide))
    (.cons (reads_twoWords "replace" "into" (by decide) (by decide))
    (.cons (reads_twoWords "merge" "into" (by decide) (by decide))
    (.cons (reads_twoWords "upsert" "into" (by decide) (by decide))
    (.cons (reads_word "from" (by decide)) (.cons (reads_word "join" (by decide))
    (.cons (reads_word "into" (by decide)) .nil)))))))))
  have h := reads_wordBoundary.append (hwords.append (reads_gap.append reads_openingMark))
  exact h.ofList_append (by cbv)

theorem reads_accessEnd :
    Reads "[`\"\\]]?(?:[^A-Za-z0-9_]|$)".toList
      [maybe (within [only '\x60', only '"', only ']']), wordEnd] := by
  have hset : ReadsPart "[`\"\\]]".toList (within [only '\x60', only '"', only ']']) :=
    fun _ _ => rfl
  have hother : ReadsPart "[^A-Za-z0-9_]".toList (without wordRanges) := fun _ _ => rfl
  have hend : Reads "(?:[^A-Za-z0-9_]|$)".toList [wordEnd] :=
    reads_oneOf (.cons (hother.reads rfl) (.cons reads_lineEnd .nil))
  exact (hset.maybe (p := within [only '\x60', only '"', only ']'])).append hend

theorem reads_tableInString (table : String) :
    Reads ("[\"'`](?:[^\"'`\\n]*[^A-Za-z0-9_\"'`\\n])?".toList ++
        (escape table.toList ++ "(?:[^A-Za-z0-9_\"'`\\n][^\"'`\\n]*)?[\"'`]".toList))
      [quote,
        maybe (seqAll [.star (without (quoteRanges ++ [only '\n'])),
          without (wordRanges ++ quoteRanges ++ [only '\n'])]),
        literal table,
        maybe (seqAll [without (wordRanges ++ quoteRanges ++ [only '\n']),
          .star (without (quoteRanges ++ [only '\n']))]),
        quote] := by
  have hinside : ReadsPart "[^\"'`\\n]".toList (without (quoteRanges ++ [only '\n'])) :=
    fun _ _ => rfl
  have hmore := hinside.star (p := without (quoteRanges ++ [only '\n']))
  have hedge : Reads "[^A-Za-z0-9_\"'`\\n]".toList
      [without (wordRanges ++ quoteRanges ++ [only '\n'])] :=
    ReadsPart.reads (p := without (wordRanges ++ quoteRanges ++ [only '\n'])) (fun _ _ => rfl) rfl
  have hfront := reads_quote.append (reads_maybe_group (hmore.append hedge))
  have hbehind := (reads_maybe_group (hedge.append hmore)).append reads_quote
  exact (hfront.ofList (by cbv)).append
    ((reads_escape table).append (hbehind.ofList (by cbv)))

end Pattern

/-! ## Families -/

open Pattern

namespace EdgeFamily

/-- **Every name compiles in every family**, to the patterns of the family, laid out. -/
theorem compile_notations (family : EdgeFamily) :
    PatternNotation.compile family.notations = some (family.patterns.map laidOut) := by
  unfold PatternNotation.compile
  cases family with
  | call method =>
      have hread := reads_identifierStart.append ((reads_escape method).append reads_callEnd)
      simp only [notations, List.mapM_cons, List.mapM_nil, hread.read_eq]
      rfl
  | literal event =>
      simp only [notations, List.mapM_cons, List.mapM_nil, (reads_quoted event).read_eq]
      rfl
  | validation schema =>
      have hmethod := reads_identifierStart.append
        ((reads_escape schema).append reads_validatingMethods)
      have hfunction := reads_validatingFunctions.append
        ((reads_escape schema).append reads_identifierEnd)
      simp only [notations, List.mapM_cons, List.mapM_nil, hmethod.read_eq, hfunction.read_eq]
      rfl
  | access table =>
      have hstatement := reads_accessWords.append ((reads_escape table).append reads_accessEnd)
      simp only [notations, List.mapM_cons, List.mapM_nil, hstatement.read_anyCase_eq,
        (reads_tableInString table).read_eq]
      rfl

end EdgeFamily

namespace Evidence

/-- Laid out or not, patterns are found in the same texts. -/
theorem anyFound_map_laidOut (ps : List Pattern) (text : String) :
    anyFound (ps.map laidOut) text = anyFound ps text := by
  unfold anyFound
  rw [List.any_map]
  congr 1
  funext p
  rw [Bool.eq_iff_iff]
  exact found_iff.trans (occursIn_laidOut.trans found_iff.symm)

end Evidence

/-- **A verdict on an edge is never that its pattern is invalid.** -/
theorem SourceFile.evidence_eq_verdict (f : SourceFile) (fault : String) (family : EdgeFamily)
    (found : String) (otherwise : Status × String) :
    f.evidence fault family found otherwise = f.verdict family.patterns found otherwise := by
  unfold evidence verdict
  rw [family.compile_notations]
  dsimp only
  rw [Evidence.anyFound_map_laidOut]

end ContractAudit
