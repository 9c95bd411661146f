import ContractAudit.Pattern.Reading
import ContractAudit.Proofs.Pattern.Pieces
import Mathlib.Data.List.Forall2

/-!
# Reading a notation piece by piece

The reader lays the parts of a pattern out in turn, while patterns are built from sequences within
sequences. Laying a pattern out does not change what it matches (`occursIn_laidOut`). To read a
pattern up to case is to read it and then ignore case (`read_anyCase`), so below the reader looks at
characters as they stand.

A text is read as some patterns (`Reads`) if from whatever the reader has before, it only adds their
parts. Texts so read can be put one behind the other (`Reads.append`), between brackets
(`readsPart_group`, `reads_caseGroup`) and in front of a repetition sign. An escaped name is read as
the name, whatever characters it holds (`reads_escape`), and so it never spoils the notation around
it.
-/

namespace ContractAudit

namespace Pattern

/-! ## Laying out a pattern -/

/-- The parts of a pattern in turn, with no sequence among them. -/
def parts : Pattern → List Pattern
  | .empty => []
  | .seq p q => p.parts ++ q.parts
  | .alt p q => [.alt (seqAll p.parts) (seqAll q.parts)]
  | .star p => [.star (seqAll p.parts)]
  | p => [p]

def laidOut (p : Pattern) : Pattern := seqAll p.parts

/-- Patterns that match the same everywhere may be put for each other in a repetition. -/
theorem Matches.star_congr {p q : Pattern} {l r : Option Char} {s : List Char}
    (hpq : ∀ {l r s}, Matches l p s r → Matches l q s r) (h : Matches l (.star p) s r) :
    Matches l (.star q) s r := by
  generalize hx : Pattern.star p = x at h
  induction h with
  | starNil => exact .starNil
  | starCons hp _ _ ih =>
      cases hx
      exact .starCons (hpq hp) (ih rfl)
  | _ => cases hx

theorem matches_laidOut {p : Pattern} {l r : Option Char} {s : List Char} :
    Matches l p.laidOut s r ↔ Matches l p s r := by
  unfold laidOut
  induction p generalizing l r s with
  | seq p q ihp ihq =>
      -- A neighbour is the edge of a text of one character at most.
      have hedge : ∀ x : Option Char, x.toList.getLast? = x ∧ x.toList.head? = x := by
        intro x
        cases x <;> exact ⟨rfl, rfl⟩
      have hcut : MatchesBetween l.toList (seqAll (p.parts ++ q.parts)) s r.toList ↔ _ :=
        matchesBetween_seqAll_append
      unfold MatchesBetween at hcut
      simp only [List.head?_append, List.getLast?_append, (hedge l).1, (hedge r).2, ihp, ihq]
        at hcut
      rw [matches_seq]
      exact hcut
  | alt p q ihp ihq =>
      constructor
      · intro h
        cases h with
        | altLeft h => exact .altLeft (ihp.mp h)
        | altRight h => exact .altRight (ihq.mp h)
      · intro h
        cases h with
        | altLeft h => exact .altLeft (ihp.mpr h)
        | altRight h => exact .altRight (ihq.mpr h)
  | star p ih => exact ⟨Matches.star_congr ih.mp, Matches.star_congr ih.mpr⟩
  | _ => exact Iff.rfl

/-- **Laying out a pattern does not change where it occurs.** -/
theorem occursIn_laidOut {p : Pattern} {text : List Char} :
    p.laidOut.OccursIn text ↔ p.OccursIn text := by
  unfold OccursIn
  simp only [matches_laidOut]

/-- The sequence that a laid out pattern is has the parts laid out. -/
theorem sequenceParts_laidOut (p : Pattern) : p.laidOut.sequenceParts = p.parts := by
  have hsettled : ∀ q ∈ p.parts, q.sequenceParts = [q] := by
    induction p with
    | empty => nofun
    | seq p q ihp ihq => exact List.forall_mem_append.mpr ⟨ihp, ihq⟩
    | _ => exact List.forall_mem_singleton.mpr rfl
  unfold laidOut
  generalize p.parts = ps at hsettled
  induction ps with
  | nil => rfl
  | cons q qs ih =>
      obtain ⟨hq, hqs⟩ := List.forall_mem_cons.mp hsettled
      cases qs with
      | nil => exact hq
      | cons r rs =>
          show q.sequenceParts ++ (seqAll (r :: rs)).sequenceParts = _
          rw [hq, ih hqs]
          rfl

theorem parts_seqAll (ps : List Pattern) : (seqAll ps).parts = ps.flatMap parts := by
  induction ps with
  | nil => rfl
  | cons p ps ih =>
      cases ps with
      | nil => simp [seqAll]
      | cons q ps =>
          show p.parts ++ (seqAll (q :: ps)).parts = _
          rw [ih]
          rfl

/-- Alternatives are laid out one by one. -/
theorem parts_oneOf (p q : Pattern) (ps : List Pattern) :
    (oneOf (p :: q :: ps)).parts = [oneOf ((p :: q :: ps).map laidOut)] := by
  induction ps generalizing p q with
  | nil => rfl
  | cons r ps ih =>
      show [Pattern.alt p.laidOut (seqAll (oneOf (q :: r :: ps)).parts)] = _
      rw [ih]
      rfl

/-! ## Reading up to case -/

theorem ignoringCase_oneOf {ps : List Pattern} (hne : ps ≠ []) :
    (oneOf ps).ignoringCase = oneOf (ps.map ignoringCase) := by
  induction ps with
  | nil => exact absurd rfl hne
  | cons p ps ih =>
      cases ps with
      | nil => rfl
      | cons q ps => exact congrArg (Pattern.alt p.ignoringCase) (ih (List.cons_ne_nil q ps))

theorem sequenceParts_ignoringCase (p : Pattern) :
    p.ignoringCase.sequenceParts = p.sequenceParts.map ignoringCase := by
  induction p with
  | seq p q ihp ihq =>
      show p.ignoringCase.sequenceParts ++ q.ignoringCase.sequenceParts =
        (p.sequenceParts ++ q.sequenceParts).map _
      rw [ihp, ihq, List.map_append]
  | _ => rfl

theorem parts_ignoringCase (p : Pattern) : p.ignoringCase.parts = p.parts.map ignoringCase := by
  induction p with
  | seq p q ihp ihq =>
      show p.ignoringCase.parts ++ q.ignoringCase.parts = (p.parts ++ q.parts).map _
      rw [ihp, ihq, List.map_append]
  | alt p q ihp ihq =>
      show [Pattern.alt (seqAll p.ignoringCase.parts) (seqAll q.ignoringCase.parts)] =
        [.alt (seqAll p.parts).ignoringCase (seqAll q.parts).ignoringCase]
      rw [ihp, ihq, ignoringCase_seqAll, ignoringCase_seqAll]
  | star p ih =>
      show [Pattern.star (seqAll p.ignoringCase.parts)] = [.star (seqAll p.parts).ignoringCase]
      rw [ih, ignoringCase_seqAll]
  | _ => rfl

theorem laidOut_ignoringCase (p : Pattern) : p.ignoringCase.laidOut = p.laidOut.ignoringCase := by
  unfold laidOut
  rw [parts_ignoringCase, ignoringCase_seqAll]

namespace Group

def ignoringCase (g : Group) : Group :=
  { g with
    alternatives := g.alternatives.map Pattern.ignoringCase
    earlier := g.earlier.map Pattern.ignoringCase
    last := g.last.map Pattern.ignoringCase }

theorem parts_ignoringCase (g : Group) :
    g.ignoringCase.parts = g.parts.map Pattern.ignoringCase := by
  unfold parts ignoringCase
  cases g.last <;> simp [sequenceParts_ignoringCase]

theorem push_ignoringCase (g : Group) (p : Pattern) :
    g.ignoringCase.push p.ignoringCase = (g.push p).ignoringCase := by
  unfold push
  rw [parts_ignoringCase]
  rfl

theorem nextAlternative_ignoringCase (g : Group) :
    g.ignoringCase.nextAlternative = g.nextAlternative.ignoringCase := by
  unfold nextAlternative
  rw [parts_ignoringCase, ← ignoringCase_seqAll]
  simp [ignoringCase]

/-- A group that is read up to case ignores case already. -/
theorem pattern_ignoringCase (g : Group) :
    g.ignoringCase.pattern = g.pattern.ignoringCase := by
  have halternatives : oneOf (g.ignoringCase.alternatives ++ [seqAll g.ignoringCase.parts]) =
      (oneOf (g.alternatives ++ [seqAll g.parts])).ignoringCase := by
    rw [parts_ignoringCase, ← ignoringCase_seqAll, ignoringCase_oneOf (by simp)]
    simp [ignoringCase]
  unfold pattern
  rw [halternatives]
  show (if g.anyCase then _ else _) = _
  split
  · rfl
  · rfl

/-- What a repetition sign puts in place must not depend on case itself. -/
theorem repeated?_ignoringCase (g : Group) {parts : Pattern → List Pattern}
    (hparts : ∀ p, parts p.ignoringCase = (parts p).map Pattern.ignoringCase) :
    g.ignoringCase.repeated? parts = (g.repeated? parts).map ignoringCase := by
  unfold repeated?
  cases hlast : g.last with
  | none => simp [ignoringCase, hlast]
  | some p => simp [ignoringCase, hlast, hparts]

theorem questioned?_ignoringCase (g : Group) :
    g.ignoringCase.questioned? = g.questioned?.map ignoringCase := by
  unfold questioned?
  show (if g.repeats then _ else _) = _
  split
  · rfl
  · exact g.repeated?_ignoringCase fun _ => rfl

end Group

namespace Reader

def ignoringCase (r : Reader) : Reader where
  begun := r.begun
  group := r.group.ignoringCase
  around := r.around.map Group.ignoringCase

variable (r : Reader)

theorem push_ignoringCase (p : Pattern) :
    r.ignoringCase.push p.ignoringCase = (r.push p).ignoringCase := by
  unfold push
  simp only [ignoringCase, Group.push_ignoringCase]

theorem closeGroup?_ignoringCase :
    r.ignoringCase.closeGroup? = r.closeGroup?.map ignoringCase := by
  unfold closeGroup?
  cases haround : r.around with
  | nil => simp [ignoringCase, haround]
  | cons g gs =>
      simp [ignoringCase, haround, Group.pattern_ignoringCase, Group.push_ignoringCase]

theorem repeated?_ignoringCase {parts : Pattern → List Pattern}
    (hparts : ∀ p, parts p.ignoringCase = (parts p).map Pattern.ignoringCase) :
    r.ignoringCase.repeated? parts = (r.repeated? parts).map ignoringCase := by
  unfold repeated?
  show (r.group.ignoringCase.repeated? parts).map _ = _
  rw [Group.repeated?_ignoringCase r.group hparts, Option.map_map, Option.map_map]
  rfl

theorem special?_ignoringCase (c : Char) :
    r.ignoringCase.special? c = (r.special? c).map ignoringCase := by
  unfold special?
  split
  · rfl
  · rfl
  · exact r.closeGroup?_ignoringCase
  · exact congrArg (fun g => some (Reader.mk r.begun g (r.around.map Group.ignoringCase)))
      (Group.nextAlternative_ignoringCase r.group)
  · exact r.repeated?_ignoringCase fun _ => rfl
  · exact r.repeated?_ignoringCase fun _ => rfl
  · show (r.group.ignoringCase.questioned?).map _ = _
    rw [r.group.questioned?_ignoringCase, Option.map_map, Option.map_map]
    rfl
  · rfl
  · exact congrArg some (r.push_ignoringCase .lineStart)
  · exact congrArg some (r.push_ignoringCase .lineEnd)
  · rfl

theorem inSet?_ignoringCase (set : SetReading) (c : Char) :
    r.ignoringCase.inSet? true set c = (r.inSet? false set c).map ignoringCase := by
  unfold inSet?
  split
  · rw [Option.map_map]
    exact congrArg (set.close?.map ·) (funext fun s => r.push_ignoringCase (.char false s))
  · rfl
  · rw [Option.map_map]
    rfl
  · rfl
  · rfl
  · rfl
  · rfl
  · rw [Option.map_map]
    rfl

theorem escaped?_anyCase (c : Char) :
    escaped? true c = (escaped? false c).map Pattern.ignoringCase := by
  unfold escaped?
  split_ifs <;> rfl

theorem step_ignoringCase (c : Char) :
    step true r.ignoringCase c = (step false r c).map ignoringCase := by
  obtain ⟨begun, group, around⟩ := r
  unfold step
  cases begun with
  | nothing =>
      dsimp only [ignoringCase]
      split_ifs
      · exact special?_ignoringCase ⟨.nothing, group, around⟩ c
      · exact congrArg some (push_ignoringCase ⟨.nothing, group, around⟩ (lit c))
  | escape =>
      dsimp only [ignoringCase]
      rw [escaped?_anyCase, Option.map_map, Option.map_map]
      exact congrArg ((escaped? false c).map ·)
        (funext (push_ignoringCase ⟨.escape, group, around⟩))
  | bracket =>
      dsimp only [ignoringCase]
      split_ifs <;> rfl
  | bracketAndQuestion =>
      dsimp only [ignoringCase]
      split_ifs <;> rfl
  | caseFlag =>
      dsimp only [ignoringCase]
      split_ifs <;> rfl
  | set =>
      dsimp only [ignoringCase]
      split_ifs
      · rfl
      · exact inSet?_ignoringCase ⟨.set, group, around⟩ {} c
  | members set => exact inSet?_ignoringCase ⟨.members set, group, around⟩ set c
  | memberEscape set =>
      dsimp only [ignoringCase]
      rw [Option.map_map]
      rfl

theorem foldlM_step_ignoringCase (text : List Char) :
    text.foldlM (step true) r.ignoringCase = (text.foldlM (step false) r).map ignoringCase := by
  induction text generalizing r with
  | nil => rfl
  | cons c cs ih =>
      show (step true r.ignoringCase c).bind _ = ((step false r c).bind _).map _
      rw [step_ignoringCase]
      cases step false r c with
      | none => rfl
      | some r' => exact ih r'

theorem finish?_ignoringCase :
    r.ignoringCase.finish? = r.finish?.map Pattern.ignoringCase := by
  obtain ⟨begun, group, around⟩ := r
  cases begun <;> cases around <;> first
    | rfl
    | exact congrArg some (Group.pattern_ignoringCase group)

end Reader

/-- **To read up to case is to read and then ignore case.** -/
theorem read_anyCase (text : List Char) : read true text = (read false text).map ignoringCase := by
  unfold read
  have hrun := Reader.foldlM_step_ignoringCase {} text
  rw [show Reader.ignoringCase {} = {} from rfl] at hrun
  rw [hrun]
  cases text.foldlM (Reader.step false) {} with
  | none => rfl
  | some r => exact r.finish?_ignoringCase

/-! ## Texts that are read -/

section

variable {text text' : List Char}

/-- From any group the reader takes the text for the next part. -/
def ReadsPart (text : List Char) (p : Pattern) : Prop :=
  ∀ g around, text.foldlM (Reader.step false) ⟨.nothing, g, around⟩ =
    some ⟨.nothing, g.push p, around⟩

/-- The group after reading goes on with the parts of the patterns. -/
structure Group.GoesOn (g g' : Group) (ps : List Pattern) : Prop where
  anyCase : g'.anyCase = g.anyCase
  alternatives : g'.alternatives = g.alternatives
  parts : g'.parts = g.parts ++ ps.flatMap Pattern.parts

/-- From any group the reader takes the text for the parts of the patterns. -/
def Reads (text : List Char) (ps : List Pattern) : Prop :=
  ∀ g around, ∃ g' : Group,
    text.foldlM (Reader.step false) ⟨.nothing, g, around⟩ = some ⟨.nothing, g', around⟩ ∧
    g.GoesOn g' ps

theorem Reads.nil : Reads [] [] := fun g _ => ⟨g, rfl, rfl, rfl, (List.append_nil _).symm⟩

theorem Reads.append {ps qs : List Pattern} (h : Reads text ps) (h' : Reads text' qs) :
    Reads (text ++ text') (ps ++ qs) := by
  intro g around
  obtain ⟨g₁, hread₁, hcase₁, halt₁, hparts₁⟩ := h g around
  obtain ⟨g₂, hread₂, hcase₂, halt₂, hparts₂⟩ := h' g₁ around
  refine ⟨g₂, ?_, hcase₂.trans hcase₁, halt₂.trans halt₁, ?_⟩
  · rw [List.foldlM_append, hread₁]
    exact hread₂
  · rw [hparts₂, hparts₁, List.flatMap_append, List.append_assoc]

theorem Reads.of_text_eq {ps : List Pattern} (h : Reads text ps) (htext : text' = text) :
    Reads text' ps := htext ▸ h

/-- A fixed text is read by its characters. -/
theorem Reads.ofList {cs : List Char} {ps : List Pattern} (h : Reads text ps) (htext : cs = text) :
    Reads (String.ofList cs).toList ps := h.of_text_eq (String.toList_ofList.trans htext)

theorem Reads.ofList_append {cs ds : List Char} {ps : List Pattern} (h : Reads text ps)
    (htext : cs ++ ds = text) : Reads (String.ofList cs ++ String.ofList ds).toList ps :=
  h.of_text_eq (by simp only [String.toList_append, String.toList_ofList, htext])

theorem Reads.of_parts_eq {ps qs : List Pattern} (h : Reads text ps)
    (hparts : ps.flatMap parts = qs.flatMap parts) : Reads text qs := by
  intro g around
  obtain ⟨g', hread, hcase, halt, hg'⟩ := h g around
  exact ⟨g', hread, hcase, halt, hparts ▸ hg'⟩

theorem Reads.inOne {ps : List Pattern} (h : Reads text ps) : Reads text [seqAll ps] :=
  h.of_parts_eq (by rw [List.flatMap_singleton, parts_seqAll])

namespace ReadsPart

/-- A part that is laid out already is read as itself. -/
theorem reads {p q : Pattern} (h : ReadsPart text p) (hq : q.parts = p.sequenceParts) :
    Reads text [q] := by
  intro g around
  refine ⟨g.push p, h g around, rfl, rfl, ?_⟩
  show g.parts ++ (p.sequenceParts ++ []) = _
  rw [List.append_nil, List.flatMap_singleton, hq]

/-- Behind a part that a repetition sign replaces, nothing is left to repeat. -/
theorem foldlM_repeated {p : Pattern} (h : ReadsPart text p) (sign : Char)
    (parts : Pattern → List Pattern)
    (hsign : ∀ g around, Reader.step false ⟨.nothing, Group.push g p, around⟩ sign =
      ((g.push p).repeated? parts).map fun g' => ⟨.nothing, g', around⟩)
    (g : Group) (around : List Group) :
    (text ++ [sign]).foldlM (Reader.step false) ⟨.nothing, g, around⟩ =
      some ⟨.nothing,
        { g with earlier := g.parts ++ parts p, last := none, repeats := true }, around⟩ := by
  rw [List.foldlM_append, h g around]
  show (Reader.step false ⟨.nothing, g.push p, around⟩ sign).bind _ = _
  rw [hsign]
  rfl

theorem repeated {p q : Pattern} (h : ReadsPart text p) (sign : Char)
    (parts : Pattern → List Pattern)
    (hsign : ∀ g around, Reader.step false ⟨.nothing, Group.push g p, around⟩ sign =
      ((g.push p).repeated? parts).map fun g' => ⟨.nothing, g', around⟩)
    (hq : q.parts = parts p) : Reads (text ++ [sign]) [q] := by
  intro g around
  refine ⟨_, h.foldlM_repeated sign parts hsign g around, rfl, rfl, ?_⟩
  show (g.parts ++ parts p) ++ [] = _
  rw [List.append_nil, List.flatMap_singleton, hq]

theorem maybe {p : Pattern} (h : ReadsPart text p.laidOut) : Reads (text ++ ['?']) [maybe p] :=
  h.repeated '?' (fun p => [Pattern.maybe p]) (fun _ _ => rfl) rfl

theorem star {p : Pattern} (h : ReadsPart text p.laidOut) : Reads (text ++ ['*']) [.star p] :=
  h.repeated '*' (fun p => [.star p]) (fun _ _ => rfl) rfl

/-- Few repetitions before many are the same repetitions. -/
theorem starFew {p : Pattern} (h : ReadsPart text p.laidOut) :
    Reads (text ++ ['*', '?']) [.star p] := by
  intro g around
  have hstar := h.foldlM_repeated '*' (fun p => [.star p]) (fun _ _ => rfl) g around
  refine ⟨{ g with earlier := g.parts ++ [.star p.laidOut], last := none, repeats := false },
    ?_, rfl, rfl, List.append_nil _⟩
  rw [← List.singleton_append, ← List.append_assoc, List.foldlM_append, hstar]
  rfl

theorem many {p : Pattern} (h : ReadsPart text p) (hp : p.parts = [p]) :
    Reads (text ++ ['+']) [many p] := by
  refine h.repeated '+' (fun p => [p, .star p]) (fun _ _ => rfl) ?_
  show p.parts ++ [.star (Pattern.seqAll p.parts)] = [p, .star p]
  rw [hp]
  rfl

end ReadsPart

/-! ## Names -/

/-- A character of an escaped text is read as itself. -/
theorem readsPart_escape (c : Char) : ReadsPart (escape [c]) (lit c) := by
  intro g around
  unfold escape
  rw [List.flatMap_singleton]
  by_cases hc : isSpecial c = true
  · -- The backslash is read first, and then the special character.
    have hescaped : escaped? false c = some (lit c) := by
      unfold escaped?
      rw [if_pos hc]
      rfl
    rw [if_pos hc]
    show (Reader.step false ⟨.escape, g, around⟩ c).bind _ = _
    unfold Reader.step
    rw [hescaped]
    rfl
  · rw [if_neg hc]
    show (Reader.step false ⟨.nothing, g, around⟩ c).bind _ = _
    unfold Reader.step
    rw [if_neg hc]
    rfl

theorem reads_escape_map_lit (cs : List Char) : Reads (escape cs) (cs.map lit) := by
  induction cs with
  | nil => exact Reads.nil
  | cons c cs ih =>
      have hcons : escape (c :: cs) = escape [c] ++ escape cs := by
        unfold escape
        rw [List.flatMap_cons, List.flatMap_singleton]
      rw [hcons]
      exact ((readsPart_escape c).reads rfl).append ih

/-- **An escaped text is read as the text**, whatever its characters are. -/
theorem reads_escape (s : String) : Reads (escape s.toList) [literal s] :=
  (reads_escape_map_lit s.toList).inOne

/-- The special characters one by one, as a list that can be searched. -/
def specialCharacters : List Char :=
  ['\\', '.', '+', '*', '?', '(', ')', '|', '[', ']', '\x7b', '\x7d', '^', '$', '#', '&', '-', '~']

theorem isSpecial_eq_contains (c : Char) : isSpecial c = specialCharacters.contains c :=
  congrArg (List.contains · c) String.toList_ofList

theorem reads_backslash (c : Char) (hc : specialCharacters.contains c = true) :
    Reads ['\\', c] [lit c] := by
  have h := reads_escape_map_lit [c]
  unfold escape at h
  rwa [List.flatMap_singleton, isSpecial_eq_contains, if_pos hc] at h

/-- Characters that are not special need no escape. -/
theorem reads_plain (cs : List Char) (hcs : cs.all (!specialCharacters.contains ·) = true) :
    Reads cs (cs.map lit) := by
  have h : escape cs = cs := by
    induction cs with
    | nil => rfl
    | cons c cs ih =>
        rw [List.all_cons, Bool.and_eq_true, Bool.not_eq_true'] at hcs
        unfold escape at ih ⊢
        rw [List.flatMap_cons, isSpecial_eq_contains, hcs.1, ih hcs.2]
        rfl
  have hread := reads_escape_map_lit cs
  rwa [h] at hread

/-- Letters and digits are not special. -/
theorem reads_word (w : String) (hw : w.toList.all Char.isAlphanum = true) :
    Reads w.toList [literal w] := by
  have hspecial : specialCharacters.all (!·.isAlphanum) = true := by decide
  refine (reads_plain w.toList (List.all_eq_true.mpr fun c hc => ?_)).inOne
  by_contra hsign
  rw [Bool.not_eq_true', Bool.not_eq_false, List.contains_iff_mem] at hsign
  have hletter := List.all_eq_true.mp hw c hc
  have hother := List.all_eq_true.mp hspecial c hsign
  rw [hletter] at hother
  cases hother

/-! ## Groups -/

/-- The texts of alternatives with bars between them. -/
def barred : List (List Char) → List Char
  | [] => []
  | [t] => t
  | t :: ts => t ++ '|' :: barred ts

/-- The notation of a group. -/
def groupNotation (texts : List (List Char)) : List Char :=
  ['(', '?', ':'] ++ (barred texts ++ [')'])

/-- The notation of a group that is read up to case. -/
def caseGroupNotation (text : List Char) : List Char := ['(', '?', 'i', ':'] ++ (text ++ [')'])

/-- Alternatives are read one after the other, behind those that are complete. -/
theorem reads_barred {texts : List (List Char)} {ps : List Pattern}
    (h : List.Forall₂ (fun t p => Reads t [p]) texts ps) (hne : ps ≠ []) (anyCase : Bool)
    (done : List Pattern) (around : List Group) : ∃ g : Group,
      (barred texts).foldlM (Reader.step false)
          ⟨.nothing, { anyCase, alternatives := done }, around⟩ = some ⟨.nothing, g, around⟩ ∧
      g.pattern =
        if anyCase then (oneOf (done ++ ps.map laidOut)).ignoringCase
        else oneOf (done ++ ps.map laidOut) := by
  induction h generalizing done with
  | nil => exact absurd rfl hne
  | @cons t p texts ps hp hps ih =>
      obtain ⟨g, hread, hcase, halt, hparts⟩ := hp { anyCase, alternatives := done } around
      rw [List.flatMap_singleton] at hparts
      cases hps with
      | nil =>
          refine ⟨g, hread, ?_⟩
          unfold Group.pattern
          rw [hcase, halt, hparts]
          rfl
      | cons hq hqs =>
          -- The bar completes what was read and leaves nothing of the next alternative yet.
          have hbar : g.nextAlternative = { anyCase, alternatives := done ++ [p.laidOut] } := by
            unfold Group.nextAlternative
            rw [hcase, halt, hparts]
            rfl
          obtain ⟨g', hread', hpattern⟩ := ih (by simp) (done ++ [p.laidOut])
          refine ⟨g', ?_, ?_⟩
          · show (t ++ '|' :: barred _).foldlM _ _ = _
            rw [List.foldlM_append, hread]
            show (barred _).foldlM (Reader.step false) ⟨.nothing, g.nextAlternative, around⟩ = _
            rw [hbar]
            exact hread'
          · rw [hpattern, List.append_assoc]
            rfl

/-- A group is one part: its alternatives, each laid out. -/
theorem readsPart_group {texts : List (List Char)} {ps : List Pattern}
    (h : List.Forall₂ (fun t p => Reads t [p]) texts ps) (hne : ps ≠ []) :
    ReadsPart (groupNotation texts) (oneOf (ps.map laidOut)) := by
  intro g around
  obtain ⟨g', hread, hpattern⟩ := reads_barred h hne false [] (g :: around)
  unfold groupNotation
  rw [List.foldlM_append]
  show (barred texts ++ [')']).foldlM (Reader.step false) ⟨.nothing, {}, g :: around⟩ = _
  rw [List.foldlM_append, hread]
  show some (⟨.nothing, g.push g'.pattern, around⟩ : Reader) = _
  rw [hpattern]
  rfl

/-- A group that is read up to case is a sequence that ignores case. -/
theorem reads_caseGroup {p : Pattern} (h : Reads text [p]) :
    Reads (caseGroupNotation text) [p.ignoringCase] := by
  have hpart : ReadsPart (caseGroupNotation text) p.ignoringCase.laidOut := by
    intro g around
    obtain ⟨g', hread, hpattern⟩ :=
      reads_barred (.cons h .nil) (List.cons_ne_nil p _) true [] (g :: around)
    unfold caseGroupNotation
    rw [List.foldlM_append]
    show (barred [text] ++ [')']).foldlM (Reader.step false)
      ⟨.nothing, { anyCase := true }, g :: around⟩ = _
    rw [List.foldlM_append, hread, laidOut_ignoringCase]
    show some (⟨.nothing, g.push g'.pattern, around⟩ : Reader) = _
    rw [hpattern]
    rfl
  exact hpart.reads (sequenceParts_laidOut _).symm

theorem reads_oneOf {texts : List (List Char)} {p q : Pattern} {ps : List Pattern}
    (h : List.Forall₂ (fun t p => Reads t [p]) texts (p :: q :: ps)) :
    Reads (groupNotation texts) [oneOf (p :: q :: ps)] :=
  (readsPart_group h (List.cons_ne_nil p _)).reads (parts_oneOf p q ps)

/-- A group with a question mark behind it is optional as a whole. -/
theorem reads_maybe_group {ps : List Pattern} (h : Reads text ps) :
    Reads (groupNotation [text] ++ ['?']) [maybe (seqAll ps)] :=
  ReadsPart.maybe (readsPart_group (.cons h.inOne .nil) (by simp))

/-- Words with bars between them are any one of the words. -/
theorem reads_anyOf (v w : String) (words : List String)
    (h : (v :: w :: words).all (·.toList.all Char.isAlphanum) = true) :
    Reads (groupNotation ((v :: w :: words).map String.toList)) [anyOf (v :: w :: words)] := by
  have hall : ∀ ws : List String, ws.all (·.toList.all Char.isAlphanum) = true →
      List.Forall₂ (fun t p => Reads t [p]) (ws.map String.toList) (ws.map literal) := by
    intro ws hws
    rw [List.forall₂_map_left_iff, List.forall₂_map_right_iff, List.forall₂_same]
    intro u hu
    exact reads_word u (List.all_eq_true.mp hws u hu)
  exact reads_oneOf (hall _ h)

/-! ## Whole notations -/

/-- **A text that is read from any group on is the notation of a pattern**, laid out. -/
theorem Reads.read_eq {ps : List Pattern} (h : Reads text ps) :
    read false text = some (seqAll ps).laidOut := by
  obtain ⟨g, hread, hcase, halt, hparts⟩ := h {} []
  unfold read
  rw [show ({} : Reader) = ⟨.nothing, {}, []⟩ from rfl, hread]
  show some g.pattern = _
  unfold Group.pattern laidOut
  rw [hcase, halt, hparts, parts_seqAll]
  rfl

theorem Reads.read_anyCase_eq {ps : List Pattern} (h : Reads text ps) :
    read true text = some (ignoringCase (seqAll ps)).laidOut := by
  rw [read_anyCase, h.read_eq, laidOut_ignoringCase]
  rfl

end

end Pattern

end ContractAudit
