import ContractAudit.Audit.Nodes
import ContractAudit.Proofs.Evidence.TokenSearch

/-!
# Every node can be looked for

The families that nodes look for are written down with the names escaped, as those of edges are.
Whatever the names are, what is written is the notation of patterns
(`NodeFamily.compile_notations`), and they occur where the patterns of the family do. So a node never
fails for an invalid pattern, and no schema or foreign key is missed for one (`checks_as_written`).
-/

namespace ContractAudit

namespace Pattern

/-! ## Types -/

theorem reads_typeKeywords :
    Reads ("\\b(?:type|interface|enum|struct|class|trait|record|typedef|protocol|union|" ++
      "object)\\s+").toList
      [.wordBoundary, anyOf ["type", "interface", "enum", "struct", "class", "trait", "record",
        "typedef", "protocol", "union", "object"], gap] := by
  have hwords := reads_anyOf "type" "interface" ["enum", "struct", "class", "trait", "record",
    "typedef", "protocol", "union", "object"] (by decide)
  exact (reads_wordBoundary.append (hwords.append reads_gap)).ofList_append (by cbv)

theorem reads_variableKeywords :
    Reads "\\b(?:const|let|var|val|final)\\s+".toList
      [.wordBoundary, anyOf ["const", "let", "var", "val", "final"], gap] := by
  have hwords := reads_anyOf "const" "let" ["var", "val", "final"] (by decide)
  exact (reads_wordBoundary.append (hwords.append reads_gap)).ofList (by cbv)

/-- A type behind a colon, or none. -/
theorem reads_maybeType : Reads "(?::[^=\\n]+)?".toList
    [maybe (seqAll [lit ':', many (without [only '=', only '\n'])])] := by
  have hset : ReadsPart "[^=\\n]".toList (without [only '=', only '\n']) := fun _ _ => rfl
  exact (reads_maybe_group ((reads_plain [':'] rfl).append (hset.many rfl))).ofList (by cbv)

theorem reads_variableEnd :
    Reads "[A-Za-z0-9_$]*\\s*(?::[^=\\n]+)?=".toList
      [.star (within identifierRanges), blanks,
        maybe (seqAll [lit ':', many (without [only '=', only '\n'])]), lit '='] := by
  have h := (readsPart_identifierCharacter.star (p := within identifierRanges)).append
    (reads_blanks.append (reads_maybeType.append (reads_plain ['='] rfl)))
  exact h.ofList (by cbv)

theorem reads_lineIndentation : Reads "^[ \\t]*".toList [.lineStart, indentation] := by
  have hset : ReadsPart "[ \\t]".toList (within [only ' ', only '\t']) := fun _ _ => rfl
  exact reads_lineStart.append (hset.star (p := within [only ' ', only '\t']))

theorem reads_assignmentEnd :
    Reads "[A-Za-z0-9_]*\\s*=[^=]".toList
      [.star (within wordRanges), blanks, lit '=', without [only '=']] := by
  have hother : ReadsPart "[^=]".toList (without [only '=']) := fun _ _ => rfl
  have h := (readsPart_wordCharacter.star (p := within wordRanges)).append
    (reads_blanks.append ((reads_plain ['='] rfl).append
      (hother.reads (q := without [only '=']) rfl)))
  exact h.ofList (by cbv)

/-! ## Methods -/

/-- The bracket that opens the parameters, perhaps behind type parameters. -/
theorem reads_bracket : Reads "\\s*(?:<[^>\\n]*>)?\\s*\\(".toList
    [blanks, typeParameters, blanks, lit '('] := by
  have hset : ReadsPart "[^>\\n]".toList (without [only '>', only '\n']) := fun _ _ => rfl
  have hparameters := reads_maybe_group ((reads_plain ['<'] rfl).append
    ((hset.star (p := without [only '>', only '\n'])).append (reads_plain ['>'] rfl)))
  have h := reads_blanks.append (hparameters.append reads_callEnd)
  exact h.ofList (by cbv)

theorem reads_nameAndBracket (name : String) :
    Reads (escape name.toList ++ "\\s*(?:<[^>\\n]*>)?\\s*\\(".toList) [nameAndBracket name] :=
  ((reads_escape name).append reads_bracket).inOne

theorem reads_visibility :
    Reads ("\\b(?:public|private|protected|internal|pub(?:\\([a-z]+\\))?)\\s+" ++
      "(?:[^\\n;=()\x7b\x7d]*?\\s)?").toList
      [.wordBoundary,
        oneOf [literal "public", literal "private", literal "protected", literal "internal",
          seqAll [literal "pub", maybe (seqAll [lit '(', many (within [('a', 'z')]), lit ')'])]],
        gap,
        maybe (seqAll [
          .star (without [only '\n', only ';', only '=', only '(', only ')', only '\x7b',
            only '\x7d']),
          blank])] := by
  have hpub := (reads_word "pub" (by decide)).append (reads_maybe_group
    ((reads_backslash '(' rfl).append ((readsPart_lowerCase.many rfl).append (reads_backslash ')' rfl))))
  have hwords := reads_oneOf (.cons (reads_word "public" (by decide))
    (.cons (reads_word "private" (by decide)) (.cons (reads_word "protected" (by decide))
    (.cons (reads_word "internal" (by decide)) (.cons hpub.inOne .nil)))))
  have hset : ReadsPart "[^\\n;=()\x7b\x7d]".toList
      (without [only '\n', only ';', only '=', only '(', only ')', only '\x7b', only '\x7d']) :=
    fun _ _ => rfl
  have hresult := reads_maybe_group ((hset.starFew (p := without [only '\n', only ';', only '=',
    only '(', only ')', only '\x7b', only '\x7d'])).append (readsPart_blank.reads (q := blank) rfl))
  have h := reads_wordBoundary.append (hwords.append (reads_gap.append hresult))
  exact h.ofList_append (by cbv)

theorem reads_methodKeywords :
    Reads "\\b(?:fn|def|func|function|fun|sub|method)\\s+".toList
      [.wordBoundary, anyOf ["fn", "def", "func", "function", "fun", "sub", "method"], gap] := by
  have hwords := reads_anyOf "fn" "def" ["func", "function", "fun", "sub", "method"]
    (by decide)
  exact (reads_wordBoundary.append (hwords.append reads_gap)).ofList (by cbv)

theorem reads_receiver :
    Reads "\\bfunc\\s*\\([^)\\n]*\\)\\s*".toList
      [.wordBoundary, literal "func", blanks, lit '(', .star (without [only ')', only '\n']),
        lit ')', blanks] := by
  have hset : ReadsPart "[^)\\n]".toList (without [only ')', only '\n']) := fun _ _ => rfl
  have h := reads_wordBoundary.append ((reads_word "func" (by decide)).append
    (reads_callEnd.append ((hset.star (p := without [only ')', only '\n'])).append
    ((reads_backslash ')' rfl).append reads_blanks))))
  exact h.ofList (by cbv)

theorem reads_modifiers :
    Reads ("^[ \\t]*(?:(?:static|async|override|get|set|abstract|virtual|final|" ++
      "synchronized)\\s+)*").toList
      [.lineStart, indentation,
        .star (seqAll [
          anyOf ["static", "async", "override", "get", "set", "abstract", "virtual", "final",
            "synchronized"], gap])] := by
  have hwords := reads_anyOf "static" "async" ["override", "get", "set", "abstract", "virtual",
    "final", "synchronized"] (by decide)
  have hmodifier := (hwords.append reads_gap).inOne
  have hmodifiers := ReadsPart.star (readsPart_group (.cons hmodifier .nil) (List.cons_ne_nil _ _))
  exact (reads_lineIndentation.append hmodifiers).ofList_append (by cbv)

/-- The parameters, and the bracket that closes them. -/
theorem reads_parameters :
    Reads "[^)]*\\)\\s*".toList [.star (without [only ')']), lit ')', blanks] := by
  have hset : ReadsPart "[^)]".toList (without [only ')']) := fun _ _ => rfl
  exact (hset.star (p := without [only ')'])).append ((reads_backslash ')' rfl).append reads_blanks)

theorem reads_arrow : Reads ['=', '>'] [literal "=>"] := (reads_plain ['=', '>'] rfl).inOne

theorem reads_bodyOrType :
    Reads "(?:(?::[^\x7b\\n;]*)?\\\x7b|=>|:[^\x7b\\n;]+;)".toList
      [oneOf [
        seqAll [maybe (seqAll [lit ':', .star (without [only '\x7b', only '\n', only ';'])]),
          lit '\x7b'],
        literal "=>",
        seqAll [lit ':', many (without [only '\x7b', only '\n', only ';']), lit ';']]] := by
  have hset : ReadsPart "[^\x7b\\n;]".toList (without [only '\x7b', only '\n', only ';']) :=
    fun _ _ => rfl
  have hreturned := reads_maybe_group ((reads_plain [':'] rfl).append
    (hset.star (p := without [only '\x7b', only '\n', only ';'])))
  have hbody := hreturned.append (reads_backslash '\x7b' rfl)
  have htype := (reads_plain [':'] rfl).append ((hset.many rfl).append (reads_plain [';'] rfl))
  have h := reads_oneOf (.cons hbody.inOne (.cons reads_arrow (.cons htype.inOne .nil)))
  exact h.ofList (by cbv)

/-- A method's head from its name on. -/
theorem reads_bareMethodEnd (name : String) :
    Reads (escape name.toList ++ ("\\s*(?:<[^>\\n]*>)?\\s*\\([^)]*\\)\\s*" ++
        "(?:(?::[^\x7b\\n;]*)?\\\x7b|=>|:[^\x7b\\n;]+;)").toList)
      [nameAndBracket name, .star (without [only ')']), lit ')', blanks,
        oneOf [
          seqAll [maybe (seqAll [lit ':', .star (without [only '\x7b', only '\n', only ';'])]),
            lit '\x7b'],
          literal "=>",
          seqAll [lit ':', many (without [only '\x7b', only '\n', only ';']), lit ';']]] := by
  have hcut : "\\s*(?:<[^>\\n]*>)?\\s*\\([^)]*\\)\\s*".toList =
      "\\s*(?:<[^>\\n]*>)?\\s*\\(".toList ++ "[^)]*\\)\\s*".toList := by cbv
  have h := (reads_nameAndBracket name).append (reads_parameters.append reads_bodyOrType)
  refine h.of_text_eq ?_
  rw [String.toList_append, hcut]
  simp only [List.append_assoc]

theorem reads_functionValueEnd :
    Reads ("\\s*[:=]\\s*(?:async\\s+)?(?:function\\b|" ++
      "\\([^)]*\\)\\s*(?::[^=\\n]+)?=>|[A-Za-z0-9_$]+\\s*=>)").toList
      [blanks, within [only ':', only '='], blanks, maybe (seqAll [literal "async", gap]),
        oneOf [
          seqAll [literal "function", .wordBoundary],
          seqAll [lit '(', .star (without [only ')']), lit ')', blanks,
            maybe (seqAll [lit ':', many (without [only '=', only '\n'])]), literal "=>"],
          seqAll [many (within identifierRanges), blanks, literal "=>"]]] := by
  have hsign : ReadsPart "[:=]".toList (within [only ':', only '=']) := fun _ _ => rfl
  have hasync := reads_maybe_group ((reads_word "async" (by decide)).append reads_gap)
  have hkeyword := (reads_word "function" (by decide)).append reads_wordBoundary
  have harrow := (reads_backslash '(' rfl).append (reads_parameters.append (reads_maybeType.append
    reads_arrow))
  have hshort := (readsPart_identifierCharacter.many rfl).append (reads_blanks.append reads_arrow)
  have hvalue := reads_oneOf (.cons hkeyword.inOne (.cons harrow.inOne (.cons hshort.inOne .nil)))
  have h := reads_blanks.append ((hsign.reads (q := within [only ':', only '=']) rfl).append
    (reads_blanks.append (hasync.append hvalue)))
  exact h.ofList_append (by cbv)

/-! ## Tables -/

theorem reads_createTable :
    Reads "\\bcreate\\s+table\\s+(?:if\\s+not\\s+exists\\s+)?[`\"\\[]?".toList
      [.wordBoundary, literal "create", gap, literal "table", gap,
        maybe (seqAll [literal "if", gap, literal "not", gap, literal "exists", gap]),
        maybe (within [only '\x60', only '"', only '['])] := by
  have hcreate := (reads_word "create" (by decide)).append (reads_gap.append
    ((reads_word "table" (by decide)).append reads_gap))
  have hclause := reads_maybe_group ((reads_word "if" (by decide)).append (reads_gap.append
    ((reads_word "not" (by decide)).append (reads_gap.append
    ((reads_word "exists" (by decide)).append reads_gap)))))
  have h := reads_wordBoundary.append (hcreate.append (hclause.append reads_openingMark))
  exact h.ofList (by cbv)

/-! ## Routes -/

/-- A word that is read up to case, between other texts. -/
theorem Reads.aroundCaseGroup {front behind : List Char} {ps qs : List Pattern}
    (hfront : Reads front ps) (word : String) (hbehind : Reads behind qs) :
    Reads (front ++ (['(', '?', 'i', ':'] ++ (escape word.toList ++ (')' :: behind))))
      (ps ++ ((literal word).ignoringCase :: qs)) := by
  have h := hfront.append ((reads_caseGroup (reads_escape word)).append hbehind)
  exact h.of_text_eq (by simp [caseGroupNotation])

theorem reads_routerCall (verb path : String) :
    Reads ("\\.(?i:".toList ++ (escape verb.toList ++ (")\\s*\\(\\s*[\"'`]".toList ++
        (escape path.toList ++ "[\"'`]".toList))))
      [routerCall verb path] :=
  ((reads_backslash '.' rfl).aroundCaseGroup verb
    (reads_callEnd.append (reads_blanks.append (reads_quoted path)))).inOne

theorem reads_annotatedRoute (verb path : String) :
    Reads ("@(?i:".toList ++ (escape verb.toList ++
        (")(?:Mapping)?\\s*\\(\\s*(?:(?:value|path)\\s*=\\s*)?[\"'`]".toList ++
          (escape path.toList ++ "[\"'`]".toList))))
      [ routeAnnotation verb path] := by
  have hmapping := reads_maybe_group (reads_word "Mapping" (by decide))
  have hname := reads_maybe_group ((reads_anyOf "value" "path" [] (by decide)).append
    (reads_blanks.append ((reads_plain ['='] rfl).append reads_blanks)))
  exact ((reads_plain ['@'] rfl).aroundCaseGroup verb (hmapping.append (reads_callEnd.append
    (reads_blanks.append (hname.append (reads_quoted path)))))).inOne

theorem reads_lineRest : Reads "[^\\n]*?".toList [.star (without [only '\n'])] := by
  have hset : ReadsPart "[^\\n]".toList (without [only '\n']) := fun _ _ => rfl
  exact hset.starFew (p := without [only '\n'])

theorem reads_methodThenPath (verb path : String) :
    Reads ("\\b(?i:".toList ++ (escape verb.toList ++ (")\\b[^\\n]*?[\"'`]".toList ++
        (escape path.toList ++ "[\"'`]".toList))))
      [methodThenPath verb path] :=
  (reads_wordBoundary.aroundCaseGroup verb
    (reads_wordBoundary.append (reads_lineRest.append (reads_quoted path)))).inOne

theorem reads_pathThenMethod (verb path : String) :
    Reads ("[\"'`]".toList ++ (escape path.toList ++ ("[\"'`][^\\n]*?\\b(?i:".toList ++
        (escape verb.toList ++ ")\\b".toList))))
      [pathThenMethod verb path] := by
  have h := ((reads_quoted path).append (reads_lineRest.append reads_wordBoundary)).aroundCaseGroup
    verb reads_wordBoundary
  exact h.inOne.of_text_eq (by simp)

end Pattern

/-! ## Families -/

open Pattern

/-- **Every name compiles in every family**, to the patterns of the family, laid out. -/
theorem NodeFamily.compile_notations (family : NodeFamily) :
    PatternNotation.compile family.notations = some (family.patterns.map laidOut) := by
  unfold PatternNotation.compile
  cases family with
  | type name =>
      have hdeclaration := reads_typeKeywords.append
        ((reads_escape name).append reads_identifierEnd)
      have hvariable := reads_variableKeywords.append
        ((reads_escape name).append reads_variableEnd)
      have hassignment := reads_lineIndentation.append
        ((reads_escape name).append reads_assignmentEnd)
      simp only [notations, List.mapM_cons, List.mapM_nil, hdeclaration.read_eq,
        hvariable.read_eq, hassignment.read_eq]
      rfl
  | method name =>
      have hvisible := reads_visibility.append (reads_nameAndBracket name)
      have hkeyword := reads_methodKeywords.append (reads_nameAndBracket name)
      have hreceiver := reads_receiver.append ((reads_escape name).append reads_callEnd)
      have hbare := reads_modifiers.append (reads_bareMethodEnd name)
      have hvalue := reads_identifierStart.append
        ((reads_escape name).append reads_functionValueEnd)
      simp only [notations, List.mapM_cons, List.mapM_nil, hvisible.read_eq, hkeyword.read_eq,
        hreceiver.read_eq, hbare.read_eq, hvalue.read_eq]
      rfl
  | table name =>
      have hcreate := reads_createTable.append ((reads_escape name).append reads_accessEnd)
      simp only [notations, List.mapM_cons, List.mapM_nil, hcreate.read_anyCase_eq]
      rfl
  | endpoint verb path =>
      simp only [notations, List.mapM_cons, List.mapM_nil, (reads_routerCall verb path).read_eq,
        (reads_annotatedRoute verb path).read_eq, (reads_methodThenPath verb path).read_eq,
        (reads_pathThenMethod verb path).read_eq]
      rfl
  | event name =>
      have hquoted := (reads_quoted name).read_eq
      have htoken : read (PatternNotation.token name).anyCase (PatternNotation.token name).text = _ :=
        (reads_token name).read_eq
      simp only [notations, PatternNotation.event, EdgeFamily.notations, List.cons_append,
        List.nil_append, List.mapM_cons, List.mapM_nil, hquoted, htoken]
      rfl
  | reference target =>
      simp only [notations, List.mapM_cons, List.mapM_nil, (reads_token target).read_anyCase_eq]
      rfl

/-! ## Checks -/

namespace SourceFile

variable (f : SourceFile)

theorem locate_map_laidOut (ps : List Pattern) (radius : Nat) :
    f.locate (ps.map laidOut) radius = f.locate ps radius := by
  unfold locate
  exact congrArg (f.locateWith radius) (funext (Evidence.anyFound_map_laidOut ps))

theorem writtenExistence_eq (fault id what : String) (family : NodeFamily) (radius : Nat) :
    f.writtenExistence fault id what family radius =
      f.existence id what (f.locate family.patterns radius) := by
  unfold writtenExistence
  rw [family.compile_notations]
  dsimp only
  rw [f.locate_map_laidOut]

theorem writtenSchema_eq (schema : String) : f.writtenSchema schema = f.namesSchema schema := by
  have hline : ∀ line, [(Pattern.token schema).laidOut].any (·.found line) =
      (Pattern.token schema).found line := by
    intro line
    rw [List.any_cons, List.any_nil, Bool.or_false, Bool.eq_iff_iff]
    exact found_iff.trans (occursIn_laidOut.trans found_iff.symm)
  unfold writtenSchema namesSchema
  rw [PatternNotation.compile_token]
  exact congrArg (Text.lines f.text.toList).any (funext hline)

theorem writtenReference_eq (target : String) : f.writtenReference target =
    Evidence.anyFound (Evidence.tableReferencePatterns target) f.text := by
  unfold writtenReference
  rw [(NodeFamily.reference target).compile_notations]
  exact Evidence.anyFound_map_laidOut _ _

/-- **The checks of a node are those that are written**: by kind, for the schema it declares and for
the tables its foreign keys refer to. Nothing is ever said of an invalid pattern. -/
theorem checks_as_written (fault id : String) :
    (∀ name, f.writtenExistence fault id ("type `" ++ name ++ "`") (.type name)
      Evidence.typeRadius = f.typeExistence id name) ∧
    (∀ name, f.writtenExistence fault id ("method `" ++ name ++ "`") (.method name)
      Evidence.methodRadius = f.methodExistence id name) ∧
    (∀ name, f.writtenExistence fault id ("CREATE TABLE `" ++ name ++ "`") (.table name)
      Evidence.defaultRadius = f.tableExistence id name) ∧
    (∀ name, f.writtenExistence fault id ("event `" ++ name ++ "`") (.event name)
      Evidence.defaultRadius = f.eventExistence id name) ∧
    (∀ name verb, (Route.ofIdentifier name).path ≠ "" →
      (Route.ofIdentifier name).method = some verb →
      f.writtenExistence fault id
        ("route `" ++ Route.upperCase verb ++ " " ++ (Route.ofIdentifier name).path ++ "`")
        (.endpoint verb (Route.ofIdentifier name).path) Evidence.endpointRadius =
          f.endpointExistence id name) ∧
    (∀ schema, f.writtenSchema schema = f.namesSchema schema) ∧
    ∀ target, f.writtenReference target =
      Evidence.anyFound (Evidence.tableReferencePatterns target) f.text := by
  refine ⟨fun name => f.writtenExistence_eq .., fun name => f.writtenExistence_eq ..,
    fun name => f.writtenExistence_eq .., fun name => f.writtenExistence_eq .., ?endpoint,
    f.writtenSchema_eq, f.writtenReference_eq⟩
  case endpoint =>
    intro name verb hpath hverb
    rw [f.writtenExistence_eq]
    unfold endpointExistence
    simp [hpath, hverb, NodeFamily.patterns]

end SourceFile

end ContractAudit
