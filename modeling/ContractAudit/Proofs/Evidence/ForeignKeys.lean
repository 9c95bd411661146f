import ContractAudit.Evidence.ForeignKey
import ContractAudit.Proofs.Text.Trimming

/-!
# Foreign keys

A foreign key is declared as columns, an arrow and a reference to a table, and often only as the
reference. The table is what stands behind the last arrow, up to the first dot, bracket or space,
and trimmed: in front of the arrow may stand anything, other arrows included, and behind the table
anything that ends a name and holds no further arrow (`foreign_keys_name_tables`).

What is read is a name of this kind for every entry, also for one that names no table, so reading it
once more gives the same name (`isReadName_target`, `IsReadName.target_eq`).
-/

namespace ContractAudit.ForeignKey

open Text

/-! ## Arrows -/

/-- An arrow stands in the text. -/
def HasArrow (s : List Char) : Prop := ['-', '>'] <:+: s

instance (s : List Char) : Decidable (HasArrow s) :=
  decidable_of_iff (occursIn ['-', '>'] s = true) occursIn_iff

/-- An arrow in two texts put together is in one of them, or each has a half of it. -/
theorem HasArrow.of_append {s t : List Char} (h : HasArrow (s ++ t)) :
    HasArrow s ∨ HasArrow t ∨ s.getLast? = some '-' ∧ t.head? = some '>' := by
  induction s with
  | nil => exact Or.inr (Or.inl h)
  | cons c s ih =>
      rw [List.cons_append] at h
      rcases List.infix_cons_iff.mp h with ⟨rest, hrest⟩ | hbehind
      · -- The arrow begins here; its other half is in the first text unless that ends here.
        simp only [List.cons_append, List.nil_append, List.cons.injEq] at hrest
        obtain ⟨rfl, hrest⟩ := hrest
        cases s with
        | nil =>
            obtain rfl : '>' :: rest = t := hrest
            exact Or.inr (Or.inr ⟨rfl, rfl⟩)
        | cons d s =>
            obtain ⟨rfl, -⟩ := List.cons.inj hrest
            exact Or.inl ⟨[], s, rfl⟩
      · rcases ih hbehind with hs | ht | ⟨hlast, hhead⟩
        · exact Or.inl (List.infix_cons hs)
        · exact Or.inr (Or.inl ht)
        · refine Or.inr (Or.inr ⟨?_, hhead⟩)
          rw [List.getLast?_cons, hlast]
          rfl

/-! ## References -/

/-- The table named in a text behind the arrow. -/
def tableIn (reference : List Char) : List Char :=
  trimBoth ((trimBoth reference).takeWhile (!endsName ·))

theorem tableIn_isInfix (reference : List Char) : tableIn reference <:+: reference :=
  (trimBoth_isInfix _).trans ((List.takeWhile_prefix _).isInfix.trans (trimBoth_isInfix _))

theorem targetChars_of_no_arrow {entry : List Char} (h : ¬ HasArrow entry) :
    targetChars entry = tableIn entry := by
  unfold targetChars
  rw [(cutLastAt_eq_none_iff (List.cons_ne_nil _ _)).mpr h]
  rfl

theorem targetChars_of_arrow (columns : List Char) {reference : List Char}
    (h : ¬ HasArrow reference) :
    targetChars (columns ++ (['-', '>'] ++ reference)) = tableIn reference := by
  have hlast : ¬ ['-', '>'] <:+: ['>'] ++ reference := by
    rw [List.singleton_append, List.infix_cons_iff, not_or]
    exact ⟨by simp, h⟩
  unfold targetChars
  rw [cutLastAt_append hlast]
  rfl

/-- Whatever stands in front of the last arrow, the table is named in a text without one. -/
theorem exists_reference (entry : List Char) : ∃ reference, reference <:+ entry ∧
    ¬ HasArrow reference ∧ targetChars entry = tableIn reference := by
  cases hcut : cutLastAt ['-', '>'] entry with
  | none =>
      have hnone := (cutLastAt_eq_none_iff (List.cons_ne_nil _ _)).mp hcut
      exact ⟨entry, List.suffix_refl _, hnone, targetChars_of_no_arrow hnone⟩
  | some cut =>
      obtain ⟨columns, reference⟩ := cut
      obtain ⟨rfl, hnone⟩ := cutLastAt_eq_some (List.cons_ne_nil _ _) hcut
      refine ⟨reference, List.suffix_append _ _, hnone, ?_⟩
      rw [List.append_assoc]
      exact targetChars_of_arrow columns hnone

theorem targetChars_isInfix (entry : List Char) : targetChars entry <:+: entry := by
  obtain ⟨reference, hsuffix, -, htarget⟩ := exists_reference entry
  rw [htarget]
  exact (tableIn_isInfix reference).trans hsuffix.isInfix

theorem endsName_iff {c : Char} : endsName c = true ↔ c = '.' ∨ c = '(' ∨ c = ' ' := by
  simp [endsName, or_assoc]

/-- No mark that ends a name is in the text exactly if the reader sees none in it. -/
theorem forall_endsName_eq_false_iff {s : List Char} : (∀ c ∈ s, endsName c = false) ↔
    '.' ∉ s ∧ '(' ∉ s ∧ ' ' ∉ s := by
  simp only [← Bool.not_eq_true, endsName_iff, not_or]
  constructor
  · intro h
    exact ⟨fun hc => (h _ hc).1 rfl, fun hc => (h _ hc).2.1 rfl, fun hc => (h _ hc).2.2 rfl⟩
  · rintro ⟨hdot, hbracket, hspace⟩ c hc
    exact ⟨fun e => hdot (e ▸ hc), fun e => hbracket (e ▸ hc), fun e => hspace (e ▸ hc)⟩

/-! ## Names that are there -/

/-- What can name a table: a word that holds neither an arrow nor a mark that ends a name. -/
structure IsTableName (table : String) : Prop where
  nonempty : table ≠ ""
  blankFree : BlankFree table.toList
  plain : '.' ∉ table.toList ∧ '(' ∉ table.toList
  noArrow : ¬ HasArrow table.toList

/-- What can stand behind the name of a table. -/
structure FollowsName (rest : String) : Prop where
  head : ∀ c ∈ rest.toList.head?, c = '.' ∨ c = '(' ∨ c = ' '
  noArrow : ¬ HasArrow rest.toList

theorem FollowsName.of_head {rest : String} (c : Char) (hhead : rest.toList.head? = some c)
    (hc : c = '.' ∨ c = '(' ∨ c = ' ') (hnone : ¬ HasArrow rest.toList) : FollowsName rest := by
  refine ⟨?_, hnone⟩
  rw [hhead]
  rintro d ⟨⟩
  exact hc

/-- A table is found behind any blanks and in front of anything that ends its name. -/
theorem tableIn_named {blanks name rest : List Char} (hblanks : ∀ c ∈ blanks, isBlank c = true)
    (hne : name ≠ []) (hfree : BlankFree name) (hplain : ∀ c ∈ name, endsName c = false)
    (hrest : ∀ c ∈ rest.head?, endsName c = true) :
    tableIn (blanks ++ (name ++ rest)) = name := by
  have hhead : ∀ c ∈ (name ++ rest).head?, isBlank c = false := by
    rw [List.head?_append_of_ne_nil _ hne]
    exact fun c hc => hfree c (List.mem_of_mem_head? hc)
  have htrim : trimBoth (blanks ++ (name ++ rest)) = name ++ trimRight rest := by
    rw [trimBoth_of_blanks_append hblanks, trimBoth, trimLeft_of_head hhead, trimRight_append hfree]
  -- Trimming shortens what follows the name and leaves where it begins.
  have hbehind : ∀ c, (trimRight rest).head? = some c → endsName c = true := by
    obtain ⟨tail, htail⟩ : trimRight rest <+: rest := trimRight_isPrefix rest
    intro c hc
    apply hrest
    rw [← htail, List.head?_append, hc, Option.some_or]
    rfl
  unfold tableIn
  rw [htrim, takeWhile_of_head (fun c hc => by simp [hplain c hc])
    fun c hc => by simp [hbehind c hc]]
  exact trimBoth_of_blankFree hfree

section

variable {table rest : String} {blanks : List Char} (ht : IsTableName table)
  (hr : FollowsName rest) (hblanks : ∀ c ∈ blanks, isBlank c = true)
include ht hr hblanks

theorem IsTableName.tableIn_eq :
    tableIn (blanks ++ (table.toList ++ rest.toList)) = table.toList := by
  have hspace : ' ' ∉ table.toList := fun hmem => absurd (ht.blankFree _ hmem) (by decide)
  apply tableIn_named hblanks (by simpa using ht.nonempty) ht.blankFree
  · exact forall_endsName_eq_false_iff.mpr ⟨ht.plain.1, ht.plain.2, hspace⟩
  · exact fun c hc => endsName_iff.mpr (hr.head c hc)

/-- No arrow comes about where blanks, a name and what follows it meet. -/
theorem IsTableName.not_hasArrow : ¬ HasArrow (blanks ++ (table.toList ++ rest.toList)) := by
  intro harrow
  have hdash : '-' ∉ blanks := fun hmem => absurd (hblanks _ hmem) (by decide)
  -- The first half of an arrow is in no blanks, and its second begins nothing behind a name.
  rcases harrow.of_append with hleft | hright | ⟨hlast, -⟩
  · exact hdash (hleft.subset (by simp))
  · rcases hright.of_append with hname | hrest | ⟨-, hhead⟩
    · exact ht.noArrow hname
    · exact hr.noArrow hrest
    · exact absurd (hr.head _ hhead) (by decide)
  · exact hdash (List.mem_of_getLast? hlast)

end

/-! ## Names that are read -/

/-- What is read as the name of a table: nothing is left in it that the reader cuts at or trims. -/
structure IsReadName (table : String) : Prop where
  plain : '.' ∉ table.toList ∧ '(' ∉ table.toList ∧ ' ' ∉ table.toList
  noArrow : ¬ HasArrow table.toList
  head : ∀ c ∈ table.toList.head?, isBlank c = false
  last : ∀ c ∈ table.toList.getLast?, isBlank c = false

theorem isReadName_target (entry : String) : IsReadName (target entry) := by
  obtain ⟨reference, -, hnone, htarget⟩ := exists_reference entry.toList
  have hlist : (target entry).toList = tableIn reference := by
    rw [target, String.toList_ofList, htarget]
  have hplain : ∀ c ∈ tableIn reference, endsName c = false := by
    intro c hc
    have hkept := List.mem_takeWhile_imp ((trimBoth_isInfix _).subset hc)
    simpa using hkept
  constructor
  case plain =>
    rw [hlist]
    exact forall_endsName_eq_false_iff.mp hplain
  case noArrow =>
    rw [hlist]
    exact fun harrow => hnone (List.IsInfix.trans harrow (tableIn_isInfix reference))
  case head =>
    rw [hlist]
    exact fun c hc => isBlank_of_head?_trimBoth hc
  case last =>
    rw [hlist]
    exact fun c hc => isBlank_of_getLast?_trimBoth hc

/-- In such a name the reader finds nothing to cut at and nothing to trim. -/
theorem IsReadName.target_eq {table : String} (h : IsReadName table) : target table = table := by
  have htrim : trimBoth table.toList = table.toList := trimBoth_of_ends h.head h.last
  have hcut : table.toList.takeWhile (!endsName ·) = table.toList := by
    rw [List.takeWhile_eq_self_iff]
    intro c hc
    simp [forall_endsName_eq_false_iff.mpr h.plain c hc]
  unfold target
  rw [targetChars_of_no_arrow h.noArrow, tableIn, htrim, hcut, htrim, String.ofList_toList]

/-! ## Entries -/

/-- **Foreign keys name tables**: the one behind the last arrow, and always a name that is read as
itself. -/
theorem foreign_keys_name_tables :
    (∀ columns blanks table rest : String, (∀ c ∈ blanks.toList, isBlank c = true) →
      IsTableName table → FollowsName rest →
        target (columns ++ "->" ++ blanks ++ table ++ rest) = table ∧
        target (blanks ++ table ++ rest) = table) ∧
    ∀ entry : String, IsReadName (target entry) ∧ target (target entry) = target entry := by
  constructor
  · intro columns blanks table rest hblanks ht hr
    have hnone := ht.not_hasArrow hr hblanks
    have hname := ht.tableIn_eq hr hblanks
    have harrow : (columns ++ "->" ++ blanks ++ table ++ rest).toList = columns.toList ++
        (['-', '>'] ++ (blanks.toList ++ (table.toList ++ rest.toList))) := by simp
    have hplain : (blanks ++ table ++ rest).toList =
        blanks.toList ++ (table.toList ++ rest.toList) := by simp
    constructor
    · rw [target, harrow, targetChars_of_arrow _ hnone, hname, String.ofList_toList]
    · rw [target, hplain, targetChars_of_no_arrow hnone, hname, String.ofList_toList]
  · intro entry
    have hread := isReadName_target entry
    exact ⟨hread, hread.target_eq⟩

/-- Other arrows in front, a wide blank behind the last one, and halves of arrows in the name. -/
theorem dashed_table_is_named :
    target "from -> to ->\u2003-ord>ers- (id), see x.y" = "-ord>ers-" ∧
      target "\t-ord>ers-.id" = "-ord>ers-" := by
  have htable : IsTableName "-ord>ers-" := by
    constructor <;> decide +kernel
  have hcolumns : "from -> to ->\u2003-ord>ers- (id), see x.y" =
      "from -> to " ++ "->" ++ "\u2003" ++ "-ord>ers-" ++ " (id), see x.y" := by decide +kernel
  have hdotted : "\t-ord>ers-.id" = "\t" ++ "-ord>ers-" ++ ".id" := by decide +kernel
  obtain ⟨hnamed, -⟩ := foreign_keys_name_tables
  constructor
  · rw [hcolumns]
    have hrest : FollowsName " (id), see x.y" :=
      FollowsName.of_head ' ' (by decide +kernel) (by decide) (by decide +kernel)
    exact (hnamed _ _ _ _ (List.all_eq_true.mp (by decide +kernel)) htable hrest).1
  · rw [hdotted]
    have hrest : FollowsName ".id" :=
      FollowsName.of_head '.' (by decide +kernel) (by decide) (by decide +kernel)
    exact (hnamed "" _ _ _ (List.all_eq_true.mp (by decide +kernel)) htable hrest).2

end ContractAudit.ForeignKey
