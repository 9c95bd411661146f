import ContractAudit.Document.Names
import ContractAudit.Evidence.ForeignKey
import ContractAudit.Evidence.SourceFile
import ContractAudit.Proofs.Pattern.Neighbours
import ContractAudit.Proofs.Text.Trimming

/-!
# Evidence and added lines

Evidence in a block of lines is evidence in the text (`Evidence.anyFound_of_isLineBlock`), for every
family and every name. Evidence survives added lines too, if the patterns are open-ended
(`Evidence.anyFound_of_addsLines`). Most families are, whatever the name, since they name no end of
a line. The others ask for the end of a line only behind the name, so they are open-ended for names
that do not end in a line feed (`EndsOnLine`), and names are trimmed (`endsOnLine_trim`).
-/

namespace ContractAudit

namespace Text

/-! ## Trimmed names -/

/-- The text has a last character, and it is no line feed. -/
def EndsOnLine (s : List Char) : Prop := ∃ c, s.getLast? = some c ∧ c ≠ '\n'

theorem endsOnLine_trimRight {s : List Char} (h : trimRight s ≠ []) : EndsOnLine (trimRight s) := by
  have hlast := List.getLast?_eq_some_getLast h
  refine ⟨_, hlast, ?_⟩
  intro hfeed
  have hfilled := isBlank_of_getLast?_trimRight hlast
  rw [hfeed] at hfilled
  exact absurd hfilled (by decide)

/-- No blank ends a trimmed text, a line feed least of all. -/
theorem endsOnLine_ofList_trimBoth {s : List Char} (h : String.ofList (trimBoth s) ≠ "") :
    EndsOnLine (String.ofList (trimBoth s)).toList := by
  rw [String.toList_ofList]
  apply endsOnLine_trimRight
  intro hempty
  apply h
  unfold trimBoth
  rw [hempty]

theorem endsOnLine_trim {s : String} (h : trim s ≠ "") : EndsOnLine (trim s).toList :=
  endsOnLine_ofList_trimBoth h

theorem endsOnLine_nonBlank? {s t : String} (h : nonBlank? s = some t) : EndsOnLine t.toList := by
  obtain ⟨hne, rfl⟩ := nonBlank?_eq_some_iff.mp h
  exact endsOnLine_trim hne

end Text

/-- A method's name is part of the identifier, so the identifier is not blank either. -/
theorem NodeId.name_ne_empty_of_methodName {id : NodeId} (h : id.methodName ≠ "") :
    id.name ≠ "" := by
  unfold NodeId.methodName at h
  unfold NodeId.name
  intro hname
  apply h
  split
  · rename_i first last hcut
    obtain ⟨c, -, -, hsplit⟩ := Text.cutLast_eq_some hcut
    rw [Text.trim_eq_empty_iff] at hname ⊢
    intro d hd
    rw [String.toList_ofList] at hd
    apply hname
    rw [hsplit]
    simp [hd]
  · exact hname

theorem ForeignKey.endsOnLine_target {entry : String} (h : ForeignKey.target entry ≠ "") :
    Text.EndsOnLine (ForeignKey.target entry).toList :=
  Text.endsOnLine_ofList_trimBoth h

namespace Pattern

open Text

/-! ## Literal texts -/

/-- The characters one after the other, perhaps up to case. -/
def chars (anyCase : Bool) (cs : List Char) : Pattern :=
  seqAll (cs.map fun c => .char anyCase (.literal c))

theorem ignoringCase_chars (i : Bool) : ∀ cs, (chars i cs).ignoringCase = chars true cs
  | [] => rfl
  | [_] => rfl
  | c :: d :: cs => by
      show Pattern.seq _ (chars i (d :: cs)).ignoringCase = _
      rw [ignoringCase_chars i (d :: cs)]
      rfl

theorem ignoringCase_literal (s : String) :
    (literal s).ignoringCase = chars true s.toList := ignoringCase_chars false s.toList

/-- Behind a text that does not end in a line feed there is none. -/
theorem leavesBreak_chars (i : Bool) : ∀ {cs : List Char}, EndsOnLine cs → ∀ b,
    (chars i cs).leavesBreak b = false
  | [], ⟨_, hc, _⟩, _ => by simp at hc
  | [d], ⟨c, hc, hne⟩, _ => by
      rw [List.getLast?_singleton, Option.some.injEq] at hc
      subst hc
      show (CharSet.literal d).has i '\n' = false
      -- Up to case it takes that no other character folds to the line feed.
      cases i with
      | false => simpa [CharSet.has] using hne
      | true =>
          have hfold : foldCase '\n' = '\n' := by decide
          simpa [CharSet.has, hfold] using foldCase_ne_newline hne
  | _ :: d :: cs, ⟨c, hc, hne⟩, _ => by
      rw [List.getLast?_cons_cons] at hc
      exact leavesBreak_chars i ⟨c, hc, hne⟩ _

theorem leavesBreak_literal {s : String} (h : EndsOnLine s.toList) (b : Bool) :
    (literal s).leavesBreak b = false := leavesBreak_chars false h b

/-! ## Patterns that name no end of a line -/

/-- Whether `lineEnd` is no part of the pattern. -/
def namesNoLineEnd : Pattern → Bool
  | .lineEnd => false
  | .seq p q => p.namesNoLineEnd && q.namesNoLineEnd
  | .alt p q => p.namesNoLineEnd && q.namesNoLineEnd
  | .star p => p.namesNoLineEnd
  | _ => true

theorem isOpenEnded_of_namesNoLineEnd {p : Pattern} (h : p.namesNoLineEnd = true) (b : Bool) :
    p.isOpenEnded b = true := by
  induction p generalizing b with
  | lineEnd => cases h
  | seq p q ihp ihq | alt p q ihp ihq =>
      simp only [namesNoLineEnd, Bool.and_eq_true] at h
      unfold isOpenEnded
      rw [ihp h.1, ihq h.2]
      rfl
  | star p ih => exact ih h true
  | _ => rfl

@[simp] theorem namesNoLineEnd_ignoringCase (p : Pattern) :
    p.ignoringCase.namesNoLineEnd = p.namesNoLineEnd := by
  induction p with
  | seq p q ihp ihq | alt p q ihp ihq =>
      unfold ignoringCase namesNoLineEnd
      rw [ihp, ihq]
  | star p ih => exact ih
  | _ => rfl

@[simp] theorem namesNoLineEnd_seqAll : ∀ ps, (seqAll ps).namesNoLineEnd = ps.all namesNoLineEnd
  | [] => rfl
  | [p] => by simp [seqAll]
  | p :: q :: ps => by
      rw [List.all_cons, ← namesNoLineEnd_seqAll (q :: ps)]
      rfl

@[simp] theorem namesNoLineEnd_oneOf : ∀ ps, (oneOf ps).namesNoLineEnd = ps.all namesNoLineEnd
  | [] => rfl
  | [p] => by simp [oneOf]
  | p :: q :: ps => by
      rw [List.all_cons, ← namesNoLineEnd_oneOf (q :: ps)]
      rfl

@[simp] theorem namesNoLineEnd_star (p : Pattern) :
    (star p).namesNoLineEnd = p.namesNoLineEnd := rfl

@[simp] theorem namesNoLineEnd_maybe (p : Pattern) :
    (maybe p).namesNoLineEnd = p.namesNoLineEnd := Bool.and_true _

@[simp] theorem namesNoLineEnd_many (p : Pattern) :
    (many p).namesNoLineEnd = p.namesNoLineEnd := Bool.and_self _

@[simp] theorem namesNoLineEnd_literal (s : String) : (literal s).namesNoLineEnd = true := by
  unfold literal
  rw [namesNoLineEnd_seqAll, List.all_map, List.all_eq_true]
  intro c _
  rfl

@[simp] theorem namesNoLineEnd_anyOf (words : List String) :
    (anyOf words).namesNoLineEnd = true := by
  simp [anyOf]

@[simp] theorem namesNoLineEnd_lit (c : Char) : (lit c).namesNoLineEnd = true := rfl

@[simp] theorem namesNoLineEnd_within (rs : List (Char × Char)) :
    (within rs).namesNoLineEnd = true := rfl

@[simp] theorem namesNoLineEnd_without (rs : List (Char × Char)) :
    (without rs).namesNoLineEnd = true := rfl

@[simp] theorem namesNoLineEnd_wordBoundary : wordBoundary.namesNoLineEnd = true := rfl

@[simp] theorem namesNoLineEnd_lineStart : lineStart.namesNoLineEnd = true := rfl

@[simp] theorem namesNoLineEnd_blank : blank.namesNoLineEnd = true := rfl

@[simp] theorem namesNoLineEnd_blanks : blanks.namesNoLineEnd = true := rfl

@[simp] theorem namesNoLineEnd_gap : gap.namesNoLineEnd = true := rfl

@[simp] theorem namesNoLineEnd_identifierStart : identifierStart.namesNoLineEnd = true := rfl

@[simp] theorem namesNoLineEnd_nameAndBracket (name : String) :
    (nameAndBracket name).namesNoLineEnd = true := by
  simp [nameAndBracket, typeParameters]

@[simp] theorem namesNoLineEnd_quoted (name : String) : (quoted name).namesNoLineEnd = true := by
  simp [quoted, quote]

/-! ## Names at the ends of lines

Behind these names no line feed stands, so the end of a line there is one in any longer text. -/

theorem ignoringCase_seqAll : ∀ ps, (seqAll ps).ignoringCase = seqAll (ps.map ignoringCase)
  | [] => rfl
  | [_] => rfl
  | p :: q :: ps => by
      show Pattern.seq p.ignoringCase (seqAll (q :: ps)).ignoringCase = _
      rw [ignoringCase_seqAll (q :: ps)]
      rfl

/-- Only the last parts of a sequence matter if those before name no end of a line. -/
theorem isOpenEnded_seqAll_append : ∀ before after : List Pattern,
    before.all namesNoLineEnd = true → (∀ b, (seqAll after).isOpenEnded b = true) →
      ∀ b, (seqAll (before ++ after)).isOpenEnded b = true
  | [], _, _, hafter, b => hafter b
  | [p], [], hbefore, _, b => by
      rw [List.all_cons, Bool.and_eq_true] at hbefore
      exact isOpenEnded_of_namesNoLineEnd hbefore.1 b
  | [p], q :: after, hbefore, hafter, b => by
      rw [List.all_cons, Bool.and_eq_true] at hbefore
      show (p.isOpenEnded b && (seqAll (q :: after)).isOpenEnded (p.leavesBreak b)) = true
      rw [isOpenEnded_of_namesNoLineEnd hbefore.1, hafter]
      rfl
  | p :: q :: before, after, hbefore, hafter, b => by
      rw [List.all_cons, Bool.and_eq_true] at hbefore
      show (p.isOpenEnded b &&
        (seqAll (q :: before ++ after)).isOpenEnded (p.leavesBreak b)) = true
      rw [isOpenEnded_of_namesNoLineEnd hbefore.1,
        isOpenEnded_seqAll_append (q :: before) after hbefore.2 hafter]
      rfl

section

variable {name : String} (h : EndsOnLine name.toList)
include h

theorem isOpenEnded_identifier (b : Bool) :
    (seqAll [literal name, identifierEnd]).isOpenEnded b = true := by
  show ((literal name).isOpenEnded b && identifierEnd.isOpenEnded ((literal name).leavesBreak b)) =
    true
  rw [isOpenEnded_of_namesNoLineEnd (by simp), leavesBreak_literal h]
  rfl

theorem isOpenEnded_token : (token name).isOpenEnded true = true :=
  isOpenEnded_seqAll_append [_] [_, _] (by simp) (isOpenEnded_identifier h) true

theorem isOpenEnded_typeDeclaration : (typeDeclaration name).isOpenEnded true = true :=
  isOpenEnded_seqAll_append [_, _, _] [_, _] (by simp) (isOpenEnded_identifier h) true

theorem isOpenEnded_validatingFunction : (validatingFunction name).isOpenEnded true = true :=
  isOpenEnded_seqAll_append [_, _, _, _, _, _] [_, _] (by simp) (isOpenEnded_identifier h) true

theorem isOpenEnded_ignoringCase_token : (token name).ignoringCase.isOpenEnded true = true := by
  have hname : ∀ b, (seqAll [(literal name).ignoringCase, identifierEnd.ignoringCase]).isOpenEnded
      b = true := by
    intro b
    show ((literal name).ignoringCase.isOpenEnded b &&
      identifierEnd.ignoringCase.isOpenEnded ((literal name).ignoringCase.leavesBreak b)) = true
    rw [isOpenEnded_of_namesNoLineEnd (by simp), ignoringCase_literal, leavesBreak_chars true h]
    rfl
  unfold token
  rw [ignoringCase_seqAll]
  exact isOpenEnded_seqAll_append [_] [_, _] (by simp) hname true

/-- A quote character between the name of a table and its end is no line feed either. -/
theorem isOpenEnded_tableName (closing : Pattern) (hclosing : closing.leavesBreak false = false)
    (hends : closing.namesNoLineEnd = true) (b : Bool) :
    (seqAll [(literal name).ignoringCase, closing, wordEnd.ignoringCase]).isOpenEnded b = true := by
  show ((literal name).ignoringCase.isOpenEnded b &&
    (closing.isOpenEnded ((literal name).ignoringCase.leavesBreak b) &&
      wordEnd.ignoringCase.isOpenEnded
        (closing.leavesBreak ((literal name).ignoringCase.leavesBreak b)))) = true
  rw [isOpenEnded_of_namesNoLineEnd (by simp), isOpenEnded_of_namesNoLineEnd hends,
    ignoringCase_literal, leavesBreak_chars true h, hclosing]
  rfl

theorem isOpenEnded_createTable : (createTable name).isOpenEnded true = true := by
  unfold createTable
  rw [ignoringCase_seqAll]
  exact isOpenEnded_seqAll_append [_, _, _, _, _, _, _] [_, _, _] (by simp)
    (isOpenEnded_tableName h _ (by decide) (by simp)) true

theorem isOpenEnded_tableStatement : (tableStatement name).isOpenEnded true = true := by
  unfold tableStatement
  rw [ignoringCase_seqAll]
  exact isOpenEnded_seqAll_append [_, _, _, _] [_, _, _] (by simp)
    (isOpenEnded_tableName h _ (by decide) (by simp)) true

end

end Pattern

/-! ## Families -/

namespace Evidence

open Pattern

/-- No pattern of the family can lose its match to text behind a final line feed. -/
def OpenEnded (ps : List Pattern) : Prop := ∀ p ∈ ps, p.isOpenEnded true = true

theorem openEnded_of_namesNoLineEnd {ps : List Pattern} (h : ps.all namesNoLineEnd = true) :
    OpenEnded ps := fun _ hp => isOpenEnded_of_namesNoLineEnd (List.all_eq_true.mp h _ hp) true

theorem openEnded_methodPatterns (name : String) : OpenEnded (methodPatterns name) := by
  apply openEnded_of_namesNoLineEnd
  simp [methodPatterns, visibleMethod, keywordMethod, receiverMethod, bareMethod, functionValue,
    indentation]

theorem openEnded_endpointPatterns (method path : String) :
    OpenEnded (endpointPatterns method path) := by
  apply openEnded_of_namesNoLineEnd
  simp [endpointPatterns, routerCall, routeAnnotation, methodThenPath, pathThenMethod, quotedPath]

theorem openEnded_callPatterns (name : String) : OpenEnded (callPatterns name) := by
  apply openEnded_of_namesNoLineEnd
  simp [callPatterns, callOf]

theorem openEnded_quotedLiteralPatterns (name : String) :
    OpenEnded (quotedLiteralPatterns name) := by
  apply openEnded_of_namesNoLineEnd
  simp [quotedLiteralPatterns]

section

variable {name : String} (h : Text.EndsOnLine name.toList)
include h

theorem openEnded_typePatterns : OpenEnded (typePatterns name) := by
  have hothers : OpenEnded [typeVariable name, typeAssignment name] := by
    apply openEnded_of_namesNoLineEnd
    simp [typeVariable, typeAssignment, indentation]
  intro p hp
  rcases List.mem_cons.mp hp with rfl | hp
  · exact isOpenEnded_typeDeclaration h
  · exact hothers p hp

theorem openEnded_eventPatterns : OpenEnded (eventPatterns name) := by
  intro p hp
  rcases List.mem_cons.mp hp with rfl | hp
  · exact openEnded_quotedLiteralPatterns name _ List.mem_cons_self
  · rw [List.mem_singleton] at hp
    subst hp
    exact isOpenEnded_token h

theorem openEnded_tablePatterns : OpenEnded (tablePatterns name) := by
  intro p hp
  rw [tablePatterns, List.mem_singleton] at hp
  subst hp
  exact isOpenEnded_createTable h

theorem openEnded_tableReferencePatterns : OpenEnded (tableReferencePatterns name) := by
  intro p hp
  rw [tableReferencePatterns, List.mem_singleton] at hp
  subst hp
  exact isOpenEnded_ignoringCase_token h

theorem openEnded_validationPatterns : OpenEnded (validationPatterns name) := by
  have hmethod : OpenEnded [validatingMethod name] := by
    apply openEnded_of_namesNoLineEnd
    simp [validatingMethod]
  intro p hp
  rcases List.mem_cons.mp hp with rfl | hp
  · exact hmethod _ List.mem_cons_self
  · rw [List.mem_singleton] at hp
    subst hp
    exact isOpenEnded_validatingFunction h

theorem openEnded_tableAccessPatterns : OpenEnded (tableAccessPatterns name) := by
  have hstring : OpenEnded [tableInString name] := by
    apply openEnded_of_namesNoLineEnd
    simp [tableInString, quote]
  intro p hp
  rcases List.mem_cons.mp hp with rfl | hp
  · exact isOpenEnded_tableStatement h
  · exact hstring p hp

end

/-! ## Evidence in parts of texts -/

variable {ps : List Pattern} {s t : String}

theorem anyFound_iff : anyFound ps s = true ↔ ∃ p ∈ ps, p.OccursIn s.toList := by
  unfold anyFound
  rw [List.any_eq_true]
  simp only [found_iff]

/-- Evidence in a block of lines is evidence in the text. -/
theorem anyFound_of_isLineBlock (h : anyFound ps s = true)
    (hb : Text.IsLineBlock s.toList t.toList) : anyFound ps t = true := by
  obtain ⟨p, hp, hocc⟩ := anyFound_iff.mp h
  exact anyFound_iff.mpr ⟨p, hp, hocc.of_isLineBlock hb⟩

/-- Added lines take no evidence away. -/
theorem anyFound_of_addsLines (hopen : OpenEnded ps) (h : anyFound ps s = true)
    (hadds : Text.AddsLines s.toList t.toList) : anyFound ps t = true := by
  obtain ⟨p, hp, hocc⟩ := anyFound_iff.mp h
  exact anyFound_iff.mpr ⟨p, hp, hocc.of_addsLines hadds (hopen p hp)⟩

end Evidence

/-! ## Plain texts -/

namespace Text

theorem contains_of_infix {s t needle : String} (h : contains s needle = true)
    (hst : s.toList <:+: t.toList) : contains t needle = true := by
  unfold contains at h ⊢
  rw [occursIn_iff] at h ⊢
  exact h.trans hst

theorem IsLineBlock.infix {w s : List Char} (h : IsLineBlock w s) : w <:+: s := by
  obtain ⟨before, behind, rfl, -⟩ := h
  exact ⟨before, behind, rfl⟩

end Text

/-! ## Whatever is looked for -/

namespace Evidence

/-- What looks for something in texts and finds in a text whatever it finds in a block of lines. -/
def Blockwise (has : String → Bool) : Prop :=
  ∀ w s : String, Text.IsLineBlock w.toList s.toList → has w = true → has s = true

theorem blockwise_anyFound (ps : List Pattern) : Blockwise (anyFound ps) :=
  fun _ _ hblock h => anyFound_of_isLineBlock h hblock

theorem blockwise_contains (needle : String) : Blockwise (Text.contains · needle) :=
  fun _ _ hblock h => Text.contains_of_infix h hblock.infix

end Evidence

end ContractAudit
