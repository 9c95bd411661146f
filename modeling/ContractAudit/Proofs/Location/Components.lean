import ContractAudit.FileTree
import ContractAudit.Proofs.Text.OneLine
import Mathlib.Data.List.TakeWhile

/-!
# Components of paths

The operations on paths work on their texts. Here they are told by components: a slash parts them
(`bodyComponents_append`), slack has none (`bodyComponents_dropSlack`, `bodyComponents_dropSlackEnd`),
a relative path adds its own to those of the path that it is joined to (`components_join`), and what
is left behind the first components of a path has the others (`bodyComponents_behind`,
`components_behind_zero`). In a file tree the components decide what a path leads to, if it leads
anywhere (`FileSystem.find_unique`): slack behind a file leads nowhere, all other slack stays where
it is.
-/

namespace ContractAudit

namespace FilePath

variable {s t : List Char}

/-! ## Behind the first component -/

@[simp] theorem bodyComponents_nil : bodyComponents [] = [] := rfl

@[simp] theorem bodyComponents_dot : bodyComponents ['.'] = [] := rfl

theorem bodyComponents_append (s t : List Char) :
    bodyComponents (s ++ '/' :: t) = bodyComponents s ++ bodyComponents t := by
  unfold bodyComponents
  rw [Text.splitAtEach_append, List.filterMap_append]

@[simp] theorem bodyComponents_slash_cons (s : List Char) :
    bodyComponents ('/' :: s) = bodyComponents s := bodyComponents_append [] s

@[simp] theorem bodyComponents_dot_cons (s : List Char) :
    bodyComponents ('.' :: '/' :: s) = bodyComponents s := bodyComponents_append ['.'] s

theorem bodyComponents_of_notMem (h : '/' ∉ s) :
    bodyComponents s = (pieceComponent? s).toList := by
  unfold bodyComponents
  rw [Text.splitAtEach_of_notMem h]
  cases hs : pieceComponent? s <;> simp [hs]

/-! ## Slack -/

theorem bodyComponents_dropSlack (s : List Char) :
    bodyComponents (dropSlack s) = bodyComponents s := by
  fun_induction dropSlack s with
  | case1 rest ih => rw [ih, bodyComponents_slash_cons]
  | case2 rest ih => rw [ih, bodyComponents_dot_cons]
  | case3 => rfl
  | case4 rest => rfl

/-- Slack at the end is slack read backwards. -/
theorem bodyComponents_reverse_dropSlack (s : List Char) :
    bodyComponents (dropSlack s).reverse = bodyComponents s.reverse := by
  fun_induction dropSlack s with
  | case1 rest ih =>
      rw [ih, List.reverse_cons, bodyComponents_append, bodyComponents_nil, List.append_nil]
  | case2 rest ih =>
      have hreverse : ('.' :: '/' :: rest).reverse = rest.reverse ++ '/' :: ['.'] := by simp
      rw [ih, hreverse, bodyComponents_append, bodyComponents_dot, List.append_nil]
  | case3 => rfl
  | case4 rest => rfl

theorem bodyComponents_dropSlackEnd (s : List Char) :
    bodyComponents (dropSlackEnd s) = bodyComponents s := by
  rw [dropSlackEnd, bodyComponents_reverse_dropSlack, List.reverse_reverse]

theorem dropSlack_dropSlack (s : List Char) : dropSlack (dropSlack s) = dropSlack s := by
  fun_induction dropSlack s with
  | case1 rest ih => exact ih
  | case2 rest ih => exact ih
  | case3 => rfl
  | case4 rest hslash hdot hlone => exact dropSlack.eq_4 rest hslash hdot hlone

theorem dropSlackEnd_prefix (s : List Char) : dropSlackEnd s <+: s := by
  unfold dropSlackEnd
  rw [← List.reverse_suffix, List.reverse_reverse]
  exact dropSlack_suffix s.reverse

/-- A text without slack in front does not get shorter. -/
theorem not_slack_of_dropSlack_eq (h : dropSlack s = s) :
    (∀ rest, s ≠ '/' :: rest) ∧ (∀ rest, s ≠ '.' :: '/' :: rest) ∧ s ≠ ['.'] := by
  refine ⟨?_, ?_, ?_⟩
  · rintro rest rfl
    have hlength := (dropSlack_suffix rest).length_le
    rw [dropSlack] at h
    rw [h, List.length_cons] at hlength
    omega
  · rintro rest rfl
    have hlength := (dropSlack_suffix rest).length_le
    rw [dropSlack] at h
    rw [h, List.length_cons, List.length_cons] at hlength
    omega
  · rintro rfl
    cases h

/-- A text ends at its first slash, or goes on with it. -/
theorem dropWhile_slash_cases (s : List Char) :
    s.dropWhile (· != '/') = [] ∨ ∃ rest, s.dropWhile (· != '/') = '/' :: rest := by
  cases hd : s.dropWhile (· != '/') with
  | nil => exact Or.inl rfl
  | cons c rest =>
      have hc := List.head?_dropWhile_not (· != '/') s
      rw [hd] at hc
      obtain rfl : c = '/' := by simpa using hc
      exact Or.inr ⟨rest, rfl⟩

/-- A piece that is no slack is the only component of itself. -/
theorem exists_bodyComponents_eq_singleton {word : List Char} (hfree : '/' ∉ word)
    (hne : word ≠ []) (hdot : word ≠ ['.']) : ∃ c, bodyComponents word = [c] := by
  rw [bodyComponents_of_notMem hfree]
  unfold pieceComponent?
  rw [if_neg (not_or.mpr ⟨hne, hdot⟩)]
  split
  · exact ⟨_, rfl⟩
  · exact ⟨_, rfl⟩

/-- Without slack in front, what stands before the first slash is a component. -/
theorem bodyComponents_eq_cons (h : dropSlack s = s) (hne : s ≠ []) :
    ∃ c, bodyComponents s = c :: bodyComponents (s.dropWhile (· != '/')) := by
  obtain ⟨hslash, hdot, hlone⟩ := not_slack_of_dropSlack_eq h
  have hsplit := List.takeWhile_append_dropWhile (p := (· != '/')) (l := s)
  have hfree : '/' ∉ s.takeWhile (· != '/') := by
    intro hmem
    simpa using List.mem_takeWhile_imp hmem
  have hbehind := dropWhile_slash_cases s
  generalize s.takeWhile (· != '/') = word at hsplit hfree
  generalize s.dropWhile (· != '/') = behind at hsplit hbehind ⊢
  -- Were the word slack, it would be slack in front of the text.
  have hword : word ≠ [] ∧ word ≠ ['.'] := by
    rcases hbehind with rfl | ⟨rest, rfl⟩
    · rw [List.append_nil] at hsplit
      exact hsplit ▸ ⟨hne, hlone⟩
    · constructor
      · rintro rfl
        exact hslash rest hsplit.symm
      · rintro rfl
        exact hdot rest hsplit.symm
  obtain ⟨c, hcomponents⟩ := exists_bodyComponents_eq_singleton hfree hword.1 hword.2
  refine ⟨c, ?_⟩
  rcases hbehind with rfl | ⟨rest, rfl⟩
  · rw [← hsplit, List.append_nil, hcomponents, bodyComponents_nil]
  · rw [← hsplit, bodyComponents_append, hcomponents, bodyComponents_slash_cons,
      List.singleton_append]

theorem bodyComponents_dropComponent (s : List Char) :
    bodyComponents (dropComponent s) = (bodyComponents s).tail := by
  unfold dropComponent
  rw [← bodyComponents_dropSlack s]
  by_cases hne : dropSlack s = []
  · rw [hne]
    rfl
  · obtain ⟨c, hc⟩ := bodyComponents_eq_cons (dropSlack_dropSlack s) hne
    rw [hc, List.tail_cons]

theorem bodyComponents_repeat (n : Nat) (s : List Char) :
    bodyComponents (Nat.repeat dropComponent n s) = (bodyComponents s).drop n := by
  induction n with
  | zero => rfl
  | succ n ih =>
      show bodyComponents (dropComponent (Nat.repeat dropComponent n s)) = _
      rw [bodyComponents_dropComponent, ih, List.tail_drop]

/-! ## All components -/

/-- The components of a text. -/
def componentsIn (s : List Char) : List PathComponent :=
  (splitLead s).1 ++ bodyComponents (splitLead s).2.2

theorem components_eq (p : FilePath) : p.components = componentsIn p.text.toList := rfl

/-- A text begins with the root, or with a single dot, or it has no slack in front. -/
theorem splitLead_cases (s : List Char) :
    (∃ body, s = '/' :: body ∧ splitLead s = ([.root], ['/'], body)) ∨
    (s = ['.'] ∧ splitLead s = ([.current], ['.'], [])) ∨
    (∃ body, s = '.' :: '/' :: body ∧ splitLead s = ([.current], ['.'], '/' :: body)) ∨
    (dropSlack s = s ∧ splitLead s = ([], [], s)) := by
  fun_cases splitLead s with
  | case1 body => exact .inl ⟨body, rfl, rfl⟩
  | case2 => exact .inr (.inl ⟨rfl, rfl⟩)
  | case3 body => exact .inr (.inr (.inl ⟨body, rfl, rfl⟩))
  | case4 body hslash hlone hdot =>
      exact .inr (.inr (.inr ⟨dropSlack.eq_4 s hslash hdot hlone, rfl⟩))

theorem length_splitLead_le (s : List Char) : (splitLead s).1.length ≤ 1 := by
  rcases splitLead_cases s with ⟨_, _, h⟩ | ⟨_, h⟩ | ⟨_, _, h⟩ | ⟨_, h⟩ <;> simp [h]

theorem componentsIn_eq_nil_iff : componentsIn s = [] ↔ s = [] := by
  refine ⟨fun h => ?_, fun h => h ▸ rfl⟩
  unfold componentsIn at h
  rcases splitLead_cases s with ⟨_, _, hs⟩ | ⟨_, hs⟩ | ⟨_, _, hs⟩ | ⟨hslack, hs⟩
  iterate 3
    rw [hs] at h
    cases h
  by_contra hne
  obtain ⟨c, hc⟩ := bodyComponents_eq_cons hslack hne
  rw [hs, List.nil_append, hc] at h
  cases h

theorem components_eq_nil_iff {p : FilePath} : p.components = [] ↔ p.text = "" := by
  rw [components_eq, componentsIn_eq_nil_iff, String.toList_eq_nil_iff]

/-- A slash behind a text does not change how it begins. -/
theorem splitLead_append (hne : s ≠ []) (t : List Char) : splitLead (s ++ '/' :: t) =
    ((splitLead s).1, (splitLead s).2.1, (splitLead s).2.2 ++ '/' :: t) := by
  rcases splitLead_cases s with ⟨body, rfl, -⟩ | ⟨rfl, -⟩ | ⟨body, rfl, -⟩ | ⟨hslack, hs⟩
  iterate 3 rfl
  obtain ⟨hslash, hdot, hlone⟩ := not_slack_of_dropSlack_eq hslack
  obtain ⟨c, rest, rfl⟩ := List.exists_cons_of_ne_nil hne
  rw [hs]
  rcases splitLead_cases (c :: rest ++ '/' :: t) with ⟨body, h, -⟩ | ⟨h, -⟩ | ⟨body, h, -⟩ | ⟨-, h⟩
  · obtain ⟨rfl, -⟩ := List.cons.inj h
    exact absurd rfl (hslash rest)
  · simp at h
  · obtain ⟨rfl, hrest⟩ := List.cons.inj h
    cases rest with
    | nil => exact absurd rfl hlone
    | cons d rest =>
        obtain ⟨rfl, -⟩ := List.cons.inj hrest
        exact absurd rfl (hdot rest)
  · exact h

theorem componentsIn_append (hne : s ≠ []) (t : List Char) :
    componentsIn (s ++ '/' :: t) = componentsIn s ++ bodyComponents t := by
  unfold componentsIn
  rw [splitLead_append hne, bodyComponents_append, List.append_assoc]

/-- A text that ends in a slash is followed by the components of what stands behind it. -/
theorem componentsIn_append_of_slash (h : s.getLast? = some '/') (t : List Char) :
    componentsIn (s ++ t) = componentsIn s ++ bodyComponents t := by
  obtain ⟨front, rfl⟩ := List.getLast?_eq_some_iff.mp h
  rw [List.append_assoc, List.singleton_append]
  by_cases hne : front = []
  · subst hne
    rfl
  · rw [componentsIn_append hne, componentsIn_append hne, bodyComponents_nil, List.append_nil]

/-- The components behind the first can be read off all of them. -/
theorem bodyComponents_eq_filter (s : List Char) :
    bodyComponents s = (componentsIn s).filter fun c => c ≠ .root ∧ c ≠ .current := by
  have hbody : ∀ t, (bodyComponents t).filter (fun c => c ≠ .root ∧ c ≠ .current) =
      bodyComponents t := by
    intro t
    refine List.filter_eq_self.mpr fun c hc => ?_
    obtain ⟨piece, -, hpiece⟩ := List.mem_filterMap.mp hc
    unfold pieceComponent? at hpiece
    repeat' split at hpiece
    · cases hpiece
    iterate 2
      cases hpiece
      rfl
  unfold componentsIn
  rcases splitLead_cases s with ⟨body, rfl, h⟩ | ⟨rfl, h⟩ | ⟨body, rfl, h⟩ | ⟨-, h⟩
  · rw [h, List.filter_append, hbody, bodyComponents_slash_cons]
    rfl
  · rfl
  · rw [h, List.filter_append, hbody, bodyComponents_dot_cons, bodyComponents_slash_cons]
    rfl
  · rw [h, List.nil_append, hbody]

/-! ## Joining -/

variable {base p q : FilePath}

theorem bodyComponents_congr (h : p.components = q.components) :
    bodyComponents p.text.toList = bodyComponents q.text.toList := by
  rw [bodyComponents_eq_filter, bodyComponents_eq_filter, ← components_eq, ← components_eq, h]

theorem isAbsolute_iff : p.isAbsolute = true ↔ p.components.head? = some .root := by
  unfold isAbsolute
  rw [components_eq, beq_iff_eq]
  unfold componentsIn
  rcases splitLead_cases p.text.toList with ⟨body, hs, h⟩ | ⟨hs, h⟩ | ⟨body, hs, h⟩ | ⟨hslack, h⟩
  · rw [h, hs]
    exact iff_of_true rfl rfl
  · rw [h, hs]
    decide
  · rw [h, hs]
    exact iff_of_false (by simp) (by simp)
  · refine iff_of_false ?_ ?_
    · intro hhead
      obtain ⟨rest, hrest⟩ := List.head?_eq_some_iff.mp hhead
      exact (not_slack_of_dropSlack_eq hslack).1 rest hrest
    · rw [h, List.nil_append, bodyComponents_eq_filter]
      intro hhead
      have hmem := List.mem_of_mem_head? hhead
      simpa using (List.mem_filter.mp hmem).2

theorem isAbsolute_of_notMem {name : String} (h : '/' ∉ name.toList) :
    (⟨name⟩ : FilePath).isAbsolute = false :=
  beq_eq_false_iff_ne.mpr fun hhead => h (List.mem_of_mem_head? hhead)

theorem join_of_isAbsolute (hp : p.isAbsolute = true) (base : FilePath) : base.join p = p := by
  unfold join
  rw [if_pos hp]

theorem join_of_empty (hbase : base.text = "") (p : FilePath) : base.join p = p := by
  unfold join
  rw [hbase]
  simp

/-- **A relative path adds its components** to those of a path that is not empty. -/
theorem components_join (hbase : base.text ≠ "") (hp : p.isAbsolute = false) :
    (base.join p).components = base.components ++ bodyComponents p.text.toList := by
  have hne : base.text.toList ≠ [] := fun h => hbase (String.toList_eq_nil_iff.mp h)
  have hempty : base.text.isEmpty = false := by simpa using hbase
  unfold join
  rw [hp, hempty, if_neg Bool.false_ne_true, Bool.false_or, components_eq base]
  split
  · rename_i hslash
    rw [components_eq, String.toList_append]
    exact componentsIn_append_of_slash (beq_iff_eq.mp hslash) _
  · rw [components_eq, String.toList_append, String.toList_append, List.append_assoc]
    exact componentsIn_append hne _

/-- A slash comes between, unless it is there already or there is nothing in front of it. -/
theorem text_join (hp : p.isAbsolute = false) (base : FilePath) : (base.join p).text =
    base.text ++ (if base.text.isEmpty || base.text.toList.getLast? == some '/' then "" else "/") ++
      p.text := by
  unfold join
  rw [hp, if_neg Bool.false_ne_true]
  split
  · rw [String.append_empty]
  · rfl

theorem isAbsolute_join (base p : FilePath) :
    (base.join p).isAbsolute = (base.isAbsolute || p.isAbsolute) := by
  cases hp : p.isAbsolute with
  | true => rw [join_of_isAbsolute hp, hp, Bool.or_true]
  | false =>
      by_cases hbase : base.text = ""
      · rw [join_of_empty hbase, hp]
        unfold isAbsolute
        rw [hbase]
        rfl
      · have hne : base.components ≠ [] := mt components_eq_nil_iff.mp hbase
        rw [Bool.or_false, Bool.eq_iff_iff, isAbsolute_iff, isAbsolute_iff, components_join hbase hp,
          List.head?_append_of_ne_nil _ hne]

theorem text_join_ne_empty (hp : p.text ≠ "") (base : FilePath) : (base.join p).text ≠ "" := by
  cases hroot : p.isAbsolute with
  | true => rwa [join_of_isAbsolute hroot]
  | false =>
      rw [text_join hroot]
      simp [hp]

/-- Paths may be joined from either end. -/
theorem join_join (hq : q.text ≠ "") (hp : p.isAbsolute = false) (base : FilePath) :
    base.join (q.join p) = (base.join q).join p := by
  cases hroot : q.isAbsolute with
  | true =>
      rw [join_of_isAbsolute hroot, join_of_isAbsolute]
      rw [isAbsolute_join, hroot, Bool.true_or]
  | false =>
      have hrelative : (q.join p).isAbsolute = false := by
        rw [isAbsolute_join, hroot, hp]
        rfl
      have hne : q.text.toList ≠ [] := fun h => hq (String.toList_eq_nil_iff.mp h)
      -- The texts in front of the relative path end alike.
      have hempty : ∀ before : String, (before ++ q.text).isEmpty = false := by simp [hq]
      have hempty' : q.text.isEmpty = false := by simpa using hq
      have hlast : ∀ before : String,
          (before ++ q.text).toList.getLast? = q.text.toList.getLast? := by
        intro before
        rw [String.toList_append, List.getLast?_append_of_ne_nil _ hne]
      have htext : (base.join (q.join p)).text = ((base.join q).join p).text := by
        rw [text_join hrelative, text_join hp, text_join hp, text_join hroot, hempty, hlast,
          hempty']
        simp only [String.append_assoc]
      exact congrArg FilePath.mk htext

/-- What is joined to a path lies below it, unless it is absolute. -/
theorem components_prefix_join (h : (base.join p).isAbsolute = false) :
    base.components <+: (base.join p).components := by
  by_cases hbase : base.text = ""
  · rw [components_eq_nil_iff.mpr hbase]
    exact List.nil_prefix
  · rw [isAbsolute_join, Bool.or_eq_false_iff] at h
    rw [components_join hbase h.2]
    exact List.prefix_append _ _

theorem components_join_congr (base : FilePath) (h : p.components = q.components) :
    (base.join p).components = (base.join q).components := by
  have habsolute : p.isAbsolute = q.isAbsolute := by
    rw [Bool.eq_iff_iff, isAbsolute_iff, isAbsolute_iff, h]
  cases hq : q.isAbsolute with
  | true => rw [join_of_isAbsolute (habsolute.trans hq), join_of_isAbsolute hq, h]
  | false =>
      by_cases hbase : base.text = ""
      · rw [join_of_empty hbase, join_of_empty hbase, h]
      · rw [components_join hbase (habsolute.trans hq), components_join hbase hq,
          bodyComponents_congr h]

/-! ## What is left of a path -/

/-- Behind the first components of a path are the others. -/
theorem bodyComponents_behind (p : FilePath) (n : Nat) :
    bodyComponents (p.behind (n + 1)).text.toList = p.components.drop (n + 1) := by
  have hlead : (splitLead p.text.toList).1.drop (n + 1) = [] := by
    have hlength := length_splitLead_le p.text.toList
    exact List.drop_of_length_le (by omega)
  unfold behind
  rw [components_eq]
  unfold componentsIn
  dsimp only
  rw [String.toList_ofList, bodyComponents_dropSlackEnd, bodyComponents_dropSlack,
    bodyComponents_repeat, List.drop_append, hlead, List.nil_append]

theorem isAbsolute_behind (p : FilePath) (n : Nat) : (p.behind (n + 1)).isAbsolute = false := by
  unfold behind isAbsolute
  dsimp only
  rw [String.toList_ofList]
  generalize Nat.repeat dropComponent _ _ = rest
  rw [beq_eq_false_iff_ne]
  intro hhead
  obtain ⟨more, hmore⟩ := List.head?_eq_some_iff.mp hhead
  obtain ⟨slack, hslack⟩ := dropSlackEnd_prefix (dropSlack rest)
  rw [hmore, List.cons_append] at hslack
  exact (not_slack_of_dropSlack_eq (dropSlack_dropSlack rest)).1 _ hslack.symm

/-- Without slack in front there is none once the slack at the end is gone. -/
theorem splitLead_dropSlackEnd (h : dropSlack s = s) :
    splitLead (dropSlackEnd s) = ([], [], dropSlackEnd s) := by
  have hfront := dropSlackEnd_prefix s
  obtain ⟨hslash, hdot, -⟩ := not_slack_of_dropSlack_eq h
  rcases splitLead_cases (dropSlackEnd s) with ⟨rest, hs, -⟩ | ⟨hs, -⟩ | ⟨rest, hs, -⟩ | ⟨-, hs⟩
  · obtain ⟨more, rfl⟩ := hs ▸ hfront
    exact absurd rfl (hslash _)
  · -- A lone dot is slack read backwards, too.
    have hlone := (not_slack_of_dropSlack_eq (dropSlack_dropSlack s.reverse)).2.2
    exact absurd (List.reverse_eq_iff.mp hs) hlone
  · obtain ⟨more, rfl⟩ := hs ▸ hfront
    exact absurd rfl (hdot _)
  · exact hs

/-- Only the slack at the end is gone if all components are left. -/
theorem components_behind_zero (p : FilePath) : (p.behind 0).components = p.components := by
  unfold behind
  rw [components_eq, components_eq p]
  dsimp only
  rw [String.toList_ofList]
  generalize p.text.toList = s
  rcases splitLead_cases s with ⟨body, -, h⟩ | ⟨-, h⟩ | ⟨body, -, h⟩ | ⟨hslack, h⟩
  · unfold componentsIn
    rw [h]
    show [PathComponent.root] ++ bodyComponents (dropSlackEnd body) = _
    rw [bodyComponents_dropSlackEnd]
  · unfold componentsIn
    rw [h]
    rfl
  · -- The slash behind the dot may be all that there is.
    have hsame := bodyComponents_dropSlackEnd ('/' :: body)
    have hfront := dropSlackEnd_prefix ('/' :: body)
    unfold componentsIn
    rw [h]
    dsimp only
    rw [← hsame]
    generalize dropSlackEnd ('/' :: body) = rest at hfront
    cases rest with
    | nil => rfl
    | cons c rest =>
        obtain ⟨rfl, -⟩ := List.cons_prefix_cons.mp hfront
        rfl
  · rw [h, List.nil_append]
    unfold componentsIn
    rw [splitLead_dropSlackEnd hslack, h, bodyComponents_dropSlackEnd]

end FilePath

/-! ## In a file tree -/

/-- The piece of a text that a component is written as. -/
def PathComponent.piece : PathComponent → String
  | .root | .current => ""
  | .parent => ".."
  | .name n => String.ofList n

namespace FileSystem

/-- Pieces that contribute no component. -/
def isSlack (piece : String) : Bool := piece == "" || piece == "."

theorem eq_of_step_slack {p p' : FileTree.Place} {piece : String} (hpiece : isSlack piece = true)
    (h : p.step piece = .ok p') : p' = p := by
  have hslack : piece = "" ∨ piece = "." := by simpa [isSlack] using hpiece
  unfold FileTree.Place.step at h
  split at h
  · cases h
  · rw [if_pos hslack] at h
    cases h
    rfl

/-- A walk that leads somewhere leads there without its slack. -/
theorem foldlM_step_filter {p p' : FileTree.Place} {pieces : List String}
    (h : pieces.foldlM FileTree.Place.step p = .ok p') :
    (pieces.filter (!isSlack ·)).foldlM FileTree.Place.step p = .ok p' := by
  induction pieces generalizing p with
  | nil => exact h
  | cons piece pieces ih =>
      rw [List.foldlM_cons] at h
      cases hstep : p.step piece with
      | error fault =>
          rw [hstep] at h
          cases h
      | ok next =>
          rw [hstep] at h
          have hrest := ih h
          cases hpiece : isSlack piece with
          | true =>
              obtain rfl := eq_of_step_slack hpiece hstep
              rwa [List.filter_cons_of_neg (by simp [hpiece])]
          | false =>
              rw [List.filter_cons_of_pos (by simp [hpiece]), List.foldlM_cons, hstep]
              exact hrest

theorem isSlack_ofList (piece : List Char) :
    isSlack (String.ofList piece) = (FilePath.pieceComponent? piece).isNone := by
  by_cases h : piece = [] ∨ piece = ['.']
  · rcases h with rfl | rfl <;> decide
  · have hslack : isSlack (String.ofList piece) = false := by
      have hdot : String.ofList piece = "." ↔ piece = ['.'] := String.ofList_inj
      simpa [isSlack, hdot] using h
    unfold FilePath.pieceComponent?
    rw [hslack, if_neg h]
    split <;> rfl

theorem piece_of_pieceComponent? {piece : List Char} {c : PathComponent}
    (h : FilePath.pieceComponent? piece = some c) : c.piece = String.ofList piece := by
  unfold FilePath.pieceComponent? at h
  repeat' split at h
  · cases h
  · rename_i hparent
    cases h
    rw [hparent]
    rfl
  · cases h
    rfl

/-- Without slack, the pieces of a path are its components behind the first. -/
theorem pieces_filter (p : FilePath) : (pieces p).filter (!isSlack ·) =
    (FilePath.bodyComponents p.text.toList).map PathComponent.piece := by
  unfold pieces FilePath.bodyComponents
  induction Text.splitAtEach '/' p.text.toList with
  | nil => rfl
  | cons piece rest ih =>
      rw [List.map_cons, List.filterMap_cons, List.filter_cons, isSlack_ofList, ih]
      cases hpiece : FilePath.pieceComponent? piece with
      | none => rfl
      | some c => simp [piece_of_pieceComponent? hpiece]

/-- A path that is fit for the system leads to where its pieces lead from the root. -/
theorem find_eq_ok_iff {fs : FileSystem} {p : FilePath} {t : FileTree} : fs.find p = .ok t ↔
    '\x00' ∉ p.text.toList ∧ p.text ≠ "" ∧ p.text.utf8ByteSize ≤ FileTree.maxPathBytes ∧
      ∃ place, (pieces (fs.workingDirectory.join p)).foldlM FileTree.Place.step ⟨fs.tree, []⟩ =
        .ok place ∧ place.here = t := by
  unfold find
  simp only [bind, Except.bind, throw, throwThe, MonadExceptOf.throw, pure, Except.pure]
  repeat' split
  · rename_i hnul
    exact iff_of_false nofun fun h => h.1 (by simpa using hnul)
  · rename_i hempty
    exact iff_of_false nofun fun h => h.2.1 (by simpa using hempty)
  · rename_i hlong
    exact iff_of_false nofun fun h => absurd hlong (Nat.not_lt.mpr h.2.2.1)
  · rename_i fault hwalk
    refine iff_of_false nofun ?_
    rintro ⟨-, -, -, place, hplace, -⟩
    rw [hwalk] at hplace
    cases hplace
  · rename_i hnul hempty hlong _ place hwalk
    constructor
    · rintro ⟨⟩
      exact ⟨by simpa using hnul, by simpa using hempty, Nat.not_lt.mp hlong, place, hwalk, rfl⟩
    · rintro ⟨-, -, -, place', hplace, rfl⟩
      rw [hwalk] at hplace
      cases hplace
      rfl

/-- A name behind a path is its last piece. It takes the place of the empty piece behind a slash. -/
theorem pieces_join {q : FilePath} {name : String} (hq : q.text ≠ "") (hname : '/' ∉ name.toList) :
    pieces (q.join ⟨name⟩) = pieces q ++ [name] ∨
      ∃ front, pieces q = front ++ [""] ∧ pieces (q.join ⟨name⟩) = front ++ [name] := by
  have hrelative := FilePath.isAbsolute_of_notMem hname
  have hpieces : ∀ s : List Char, (Text.splitAtEach '/' (s ++ '/' :: name.toList)).map String.ofList =
      (Text.splitAtEach '/' s).map String.ofList ++ [name] := by
    intro s
    rw [Text.splitAtEach_append, Text.splitAtEach_of_notMem hname, List.map_append, List.map_singleton,
      String.ofList_toList]
  have hempty : q.text.isEmpty = false := by simpa using hq
  unfold pieces
  rw [FilePath.text_join hrelative, hempty, Bool.false_or]
  split
  · rename_i hslash
    obtain ⟨front, hfront⟩ := List.getLast?_eq_some_iff.mp (beq_iff_eq.mp hslash)
    refine .inr ⟨(Text.splitAtEach '/' front).map String.ofList, ?_, ?_⟩
    · rw [hfront, Text.splitAtEach_append, List.map_append]
      rfl
    · rw [String.append_empty, String.toList_append, hfront, List.append_assoc, List.singleton_append,
        hpieces]
  · left
    rw [String.toList_append, String.toList_append, List.append_assoc]
    exact hpieces _

/-- A walk to a path goes on to a name behind it. -/
theorem foldlM_step_join {p p' : FileTree.Place} {q : FilePath} {name : String} (hq : q.text ≠ "")
    (hname : '/' ∉ name.toList) (h : (pieces q).foldlM FileTree.Place.step p = .ok p') :
    (pieces (q.join ⟨name⟩)).foldlM FileTree.Place.step p = p'.step name := by
  have hlast : ∀ (front : List String) (piece : String),
      (front ++ [piece]).foldlM FileTree.Place.step p =
        front.foldlM FileTree.Place.step p >>= (·.step piece) := by
    intro front piece
    rw [List.foldlM_append]
    simp only [List.foldlM_cons, List.foldlM_nil, bind_pure]
  rcases pieces_join hq hname with hjoin | ⟨front, hfront, hjoin⟩
  · rw [hjoin, hlast, h]
    rfl
  · -- Behind a slash the walk has come to its end before the empty piece.
    rw [hfront, hlast] at h
    rw [hjoin, hlast]
    cases hwalk : front.foldlM FileTree.Place.step p with
    | error fault =>
        rw [hwalk] at h
        cases h
    | ok next =>
        rw [hwalk] at h
        obtain rfl := eq_of_step_slack rfl h
        rfl

/-- **The components of a path decide what it leads to**, if it leads anywhere. -/
theorem find_unique {fs : FileSystem} {p q : FilePath} {t u : FileTree}
    (h : p.components = q.components) (hp : fs.find p = .ok t) (hq : fs.find q = .ok u) : t = u := by
  obtain ⟨-, -, -, place, hplace, rfl⟩ := find_eq_ok_iff.mp hp
  obtain ⟨-, -, -, place', hplace', rfl⟩ := find_eq_ok_iff.mp hq
  have hwalk := foldlM_step_filter hplace
  have hwalk' := foldlM_step_filter hplace'
  have hsame := FilePath.bodyComponents_congr (FilePath.components_join_congr fs.workingDirectory h)
  rw [pieces_filter, hsame, ← pieces_filter, hwalk'] at hwalk
  cases hwalk
  rfl

end FileSystem

end ContractAudit
