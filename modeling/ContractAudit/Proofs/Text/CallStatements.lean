import ContractAudit.Proofs.Text.CaseVariants
import ContractAudit.Proofs.Text.LineBlocks

/-!
# Call statements

A call statement is an indented line such as `repo.create(input);`. In a text of nothing but calls
of one name, brackets open straight behind that name only, and what leads up to the name is a dot,
or blanks that go back to the end of another statement or to the start of the text
(`CallStatement.exists_leadsToCall`). This is shown line by line. It leaves no room in front of the
name for another word (`CallStatement.last_of_bracket`).
-/

namespace ContractAudit.Text

/-! ## Statements -/

/-- A letter or an underscore, and behind it letters, digits and underscores. -/
def isPlainName : List Char → Bool
  | [] => false
  | c :: cs => (c.isAlpha || c == '_') && cs.all isNameChar

structure PlainName where
  text : String
  plain : isPlainName text.toList = true

def PlainName.chars (name : PlainName) : List Char := name.text.toList

/-- A call on a line of its own. The name that is called is left open. -/
structure CallStatement where
  indentation : List Char := []
  receiver : Option PlainName := none
  arguments : List Char := []
  indents : indentation.all (fun c => c == ' ' || c == '\t') = true := by decide
  separates : arguments.all (fun c => isNameChar c || c == ',' || c == ' ') = true := by decide

namespace CallStatement

/-- The receiver with its dot, if there is one. -/
def qualifier (c : CallStatement) : List Char :=
  match c.receiver with
  | some receiver => receiver.chars ++ ['.']
  | none => []

/-- What leads up to the name. -/
def lead (c : CallStatement) : List Char := c.indentation ++ c.qualifier

def chars (c : CallStatement) (name : PlainName) : List Char :=
  c.lead ++ (name.chars ++ '(' :: (c.arguments ++ [')', ';']))

end CallStatement

/-- One or more calls of the name, each on its line. -/
def callText (name : PlainName) (first : CallStatement) (others : List CallStatement) : String :=
  String.ofList (joinLines ((first :: others).map (·.chars name)))

/-! ## Characters -/

variable {name : PlainName} {c : CallStatement} {cs : List CallStatement} {d : Char}

/-- The characters that call statements are made of. -/
def isCallChar (d : Char) : Bool := isNameChar d || " \t\n.,();".toList.contains d

theorem isCallChar_of_isNameChar (h : isNameChar d = true) : isCallChar d = true := by
  unfold isCallChar
  rw [h, Bool.true_or]

theorem isCallChar_of_sign {signs : List Char} (hsigns : signs.all isCallChar = true)
    (h : isNameChar d = true ∨ d ∈ signs) : isCallChar d = true := by
  rcases h with hname | hsign
  · exact isCallChar_of_isNameChar hname
  · exact List.all_eq_true.mp hsigns d hsign

theorem PlainName.isNameChar_of_mem (h : d ∈ name.chars) : isNameChar d = true := by
  have hplain := name.plain
  unfold chars at h
  cases hchars : name.text.toList with
  | nil =>
      rw [hchars] at h
      cases h
  | cons c cs =>
      rw [hchars] at h hplain
      simp only [isPlainName, Bool.and_eq_true, List.all_eq_true] at hplain
      rcases List.mem_cons.mp h with rfl | hmem
      · have hfirst := hplain.1
        unfold isNameChar Char.isAlphanum
        rw [Bool.or_right_comm, hfirst, Bool.true_or]
      · exact hplain.2 d hmem

theorem PlainName.chars_ne_nil (name : PlainName) : name.chars ≠ [] := by
  intro h
  have hplain := name.plain
  unfold chars at h
  rw [h] at hplain
  cases hplain

namespace CallStatement

theorem mem_indentation (h : d ∈ c.indentation) : d ∈ [' ', '\t'] := by
  simpa using List.all_eq_true.mp c.indents d h

theorem mem_lead (h : d ∈ c.lead) : isNameChar d = true ∨ d ∈ [' ', '\t', '.'] := by
  unfold lead qualifier at h
  rcases List.mem_append.mp h with hblank | hqualifier
  · right
    exact List.mem_append_left ['.'] (mem_indentation hblank)
  · cases hr : c.receiver with
    | none =>
        rw [hr] at hqualifier
        cases hqualifier
    | some receiver =>
        rw [hr] at hqualifier
        rcases List.mem_append.mp hqualifier with hname | hdot
        · exact Or.inl (PlainName.isNameChar_of_mem hname)
        · exact Or.inr (List.mem_append_right [' ', '\t'] hdot)

theorem mem_arguments (h : d ∈ c.arguments) : isNameChar d = true ∨ d ∈ [',', ' '] := by
  simpa [or_assoc] using List.all_eq_true.mp c.separates d h

theorem isCallChar_of_mem (h : d ∈ c.chars name) : isCallChar d = true := by
  unfold chars at h
  simp only [List.mem_append, List.mem_cons, List.not_mem_nil, or_false] at h
  rcases h with hlead | hname | rfl | harguments | rfl | rfl
  · exact isCallChar_of_sign (by decide) (mem_lead hlead)
  · exact isCallChar_of_isNameChar (PlainName.isNameChar_of_mem hname)
  · decide
  · exact isCallChar_of_sign (by decide) (mem_arguments harguments)
  · decide
  · decide

end CallStatement

/-! ## Brackets that open -/

/-- A call may follow: the text ends in a dot, or in blanks behind the end of a statement or at the
start. -/
def LeadsToCall (s : List Char) : Prop :=
  s.getLast? = some '.' ∨ ∃ done blanks, s = done ++ blanks ∧ (∀ d ∈ blanks, isBlank d = true) ∧
    ∀ d, done.getLast? = some d → d = ';'

theorem CallStatement.leadsToCall (c : CallStatement) : LeadsToCall c.lead := by
  unfold lead qualifier
  cases c.receiver with
  | none =>
      have hmarks : [' ', '\t'].all isBlank = true := by decide
      exact Or.inr ⟨[], c.indentation, List.append_nil _,
        fun d hd => List.all_eq_true.mp hmarks d (mem_indentation hd), nofun⟩
  | some receiver => exact Or.inl (by simp)

/-- Another statement may stand on the line above. -/
theorem LeadsToCall.below {s line : List Char} (h : LeadsToCall s)
    (hline : line.getLast? = some ';') : LeadsToCall (line ++ '\n' :: s) := by
  rcases h with hdot | ⟨done, blanks, rfl, hblanks, hdone⟩
  · left
    rw [List.getLast?_append_cons, List.getLast?_cons, hdot]
    rfl
  · right
    by_cases hnil : done = []
    · -- The blanks go on with the line feed.
      refine ⟨line, '\n' :: blanks, by rw [hnil, List.nil_append], ?_, ?_⟩
      · exact List.forall_mem_cons.mpr ⟨by decide, hblanks⟩
      · intro d hd
        exact (Option.some.inj (hline.symm.trans hd)).symm
    · refine ⟨line ++ '\n' :: done, blanks, by simp, hblanks, ?_⟩
      intro d hd
      rw [List.getLast?_append_cons, List.getLast?_cons_of_ne_nil hnil] at hd
      exact hdone d hd

namespace CallStatement

theorem getLast?_chars (c : CallStatement) (name : PlainName) :
    (c.chars name).getLast? = some ';' := by
  simp [chars, List.getLast?_append, List.getLast?_cons]

/-- In one statement only one bracket opens. -/
theorem eq_of_bracket {a b : List Char} (h : c.chars name = a ++ '(' :: b) :
    a = c.lead ++ name.chars := by
  have hfront : '(' ∉ c.lead ++ name.chars := by
    intro hmem
    rcases List.mem_append.mp hmem with hlead | hname
    · rcases mem_lead hlead with hbad | hbad <;> exact absurd hbad (by decide)
    · exact absurd (PlainName.isNameChar_of_mem hname) (by decide)
  have hback : '(' ∉ c.arguments ++ [')', ';'] := by
    intro hmem
    rcases List.mem_append.mp hmem with harguments | hend
    · rcases mem_arguments harguments with hbad | hbad <;> exact absurd hbad (by decide)
    · exact absurd hend (by decide)
  unfold chars at h
  rw [← List.append_assoc, List.append_cons_inj_of_notMem hfront hback] at h
  exact h.1.symm

theorem joinLines_chars (c c' : CallStatement) (cs : List CallStatement) :
    joinLines ((c :: c' :: cs).map (·.chars name)) =
      c.chars name ++ '\n' :: joinLines ((c' :: cs).map (·.chars name)) :=
  joinLines_cons (c.chars name) (by simp)

/-- **Brackets open behind the name only**, and what is in front of the name leads to a call. -/
theorem exists_leadsToCall {a b : List Char}
    (h : joinLines ((c :: cs).map (·.chars name)) = a ++ '(' :: b) :
    ∃ s, a = s ++ name.chars ∧ LeadsToCall s := by
  induction cs generalizing c a with
  | nil =>
      have hline := (joinLines_singleton (c.chars name)).symm.trans h
      exact ⟨c.lead, eq_of_bracket hline, c.leadsToCall⟩
  | cons c' cs ih =>
      rw [joinLines_chars] at h
      rcases List.append_eq_append_iff.mp h with ⟨t, rfl, hbelow⟩ | ⟨t, hline, hrest⟩
      · -- The bracket is below the first line.
        rcases List.cons_eq_append_iff.mp hbelow with ⟨-, hbad⟩ | ⟨t, rfl, hothers⟩
        · cases hbad
        · obtain ⟨s, rfl, hs⟩ := ih hothers
          exact ⟨c.chars name ++ '\n' :: s, by simp, hs.below (c.getLast?_chars name)⟩
      · -- The bracket is in the first line.
        rcases List.cons_eq_append_iff.mp hrest with ⟨-, hbad⟩ | ⟨t, rfl, -⟩
        · cases hbad
        · exact ⟨c.lead, eq_of_bracket hline, c.leadsToCall⟩

end CallStatement

/-- Behind a text that lets a call follow only through blanks, or with a last word in between that
itself ends in a blank, there is the end of a statement, a dot or a blank. -/
theorem LeadsToCall.last_of_append {front middle : List Char} (h : LeadsToCall (front ++ middle))
    (hend : ';' ∉ middle) (hlast : ∀ d, middle.getLast? = some d → isBlank d = true)
    (hd : front.getLast? = some d) : d = ';' ∨ d = '.' ∨ isBlank d = true := by
  rcases h with hdot | ⟨done, blanks, heq, hblanks, hdone⟩
  · rw [List.getLast?_append, Option.or_eq_some_iff] at hdot
    rcases hdot with hmiddle | ⟨-, hfront⟩
    · exact absurd (hlast _ hmiddle) (by decide)
    · exact Or.inr (Or.inl (Option.some.inj (hd.symm.trans hfront)))
  · rcases List.append_eq_append_iff.mp heq with ⟨t, rfl, rfl⟩ | ⟨t, rfl, rfl⟩
    · rcases List.eq_nil_or_concat' t with rfl | ⟨init, e, rfl⟩
      · rw [List.append_nil] at hdone
        exact Or.inl (hdone d hd)
      · -- A statement would end in the middle part.
        obtain rfl := hdone e (by simp)
        exact absurd (by simp) hend
    · rw [List.getLast?_append, Option.or_eq_some_iff] at hd
      rcases hd with hblank | ⟨-, hdone'⟩
      · have hmem := List.mem_append_left middle (List.mem_of_getLast? hblank)
        exact Or.inr (Or.inr (hblanks d hmem))
      · exact Or.inl (hdone d hdone')

/-! ## Texts of call statements -/

namespace CallStatement

theorem isCallChar_of_mem_joinLines (h : d ∈ joinLines ((c :: cs).map (·.chars name))) :
    isCallChar d = true := by
  induction cs generalizing c with
  | nil =>
      rw [List.map_singleton, joinLines_singleton] at h
      exact isCallChar_of_mem h
  | cons c' cs ih =>
      rw [joinLines_chars, List.mem_append, List.mem_cons] at h
      rcases h with hfirst | rfl | hothers
      · exact isCallChar_of_mem hfirst
      · decide
      · exact ih hothers

/-- **Nothing stands in front of a call.** Where the name is followed by blanks and a bracket, a
middle part in front of it that is no statement and ends in a blank, if it is not empty, goes back to
the end of a statement, to a dot or to a blank. -/
theorem last_of_bracket {front middle gap behind : List Char}
    (h : joinLines ((c :: cs).map (·.chars name)) =
      front ++ (middle ++ (name.chars ++ (gap ++ '(' :: behind))))
    (hgap : ∀ d ∈ gap, isBlank d = true) (hend : ';' ∉ middle)
    (hlast : ∀ d, middle.getLast? = some d → isBlank d = true) (hd : front.getLast? = some d) :
    d = ';' ∨ d = '.' ∨ isBlank d = true := by
  have hsplit : joinLines ((c :: cs).map (·.chars name)) =
      ((front ++ middle) ++ name.chars ++ gap) ++ '(' :: behind := by
    rw [h]
    simp
  obtain ⟨s, hs, hlead⟩ := exists_leadsToCall hsplit
  -- The bracket follows the name straight, so the gap is empty and the name can be cut off.
  rcases List.eq_nil_or_concat' gap with rfl | ⟨init, e, rfl⟩
  · rw [List.append_nil, List.append_left_inj] at hs
    exact LeadsToCall.last_of_append (hs ▸ hlead) hend hlast hd
  · have hblank : isBlank e = true := hgap e (by simp)
    have hlasts := congrArg List.getLast? hs
    rw [← List.append_assoc, List.getLast?_concat,
      List.getLast?_append_of_ne_nil s name.chars_ne_nil] at hlasts
    have hname := PlainName.isNameChar_of_mem (List.mem_of_getLast? hlasts.symm)
    rw [isBlank_of_isNameChar hname] at hblank
    cases hblank

end CallStatement

variable {first : CallStatement} {others : List CallStatement}

/-- No other sign is in a text of call statements. -/
theorem notMem_callText (hd : isCallChar d = false) :
    d ∉ (callText name first others).toList := by
  unfold callText
  rw [String.toList_ofList]
  intro h
  rw [CallStatement.isCallChar_of_mem_joinLines h] at hd
  cases hd

theorem returnFree_callText : ReturnFree (callText name first others).toList :=
  notMem_callText (by decide)

/-- A text of call statements begins with the first of them. -/
theorem exists_callText_eq (name : PlainName) (first : CallStatement)
    (others : List CallStatement) :
    ∃ behind, (callText name first others).toList =
      first.lead ++ (name.chars ++ '(' :: behind) := by
  unfold callText
  rw [String.toList_ofList]
  cases others with
  | nil => exact ⟨_, joinLines_singleton (first.chars name)⟩
  | cons c cs =>
      rw [CallStatement.joinLines_chars]
      exact ⟨first.arguments ++ [')', ';'] ++ '\n' :: joinLines ((c :: cs).map (·.chars name)), by
        simp [CallStatement.chars]⟩

end ContractAudit.Text
