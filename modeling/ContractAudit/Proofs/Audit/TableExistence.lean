import ContractAudit.Proofs.Audit.Existence
import ContractAudit.Proofs.Evidence.TableCreation

/-!
# When a table exists

A table without a declared line exists if its file has a creation of it, and is missing otherwise.
The record follows the creations that the pattern sees (`table_existence`), and these are not quite
the documented ones: a table that is created in a schema is not seen, and one whose name goes on with
a dollar sign is (`table_in_schema_is_missed`).
-/

namespace ContractAudit

open Text

namespace Audit

/-- A declared table that is looked for, by its name, in the whole text of a file. -/
structure LooksForTable (a : Audit) (id name : String) (f : SourceFile) : Prop where
  declared : ∃ n, a.document.node? id = some n ∧ Document.kindOf id (some n) = .table ∧
    n.declaredLine = none ∧ a.source n = .ok f
  name_eq : (NodeId.ofString id).name = name
  name_ne : name ≠ ""

variable {a : Audit} {id name : String} {f : SourceFile}

theorem LooksForTable.existsWith_fail_iff (h : a.LooksForTable id name f) :
    a.report.ExistsWith id .fail ↔ ¬ ∃ c : TableCreation name.toList f.text.toList, c.IsSeen := by
  obtain ⟨n, hn, hkind, -, hf⟩ := h.declared
  rw [existsWith_iff hn (by rw [hkind]; rfl) hf, hkind,
    SourceFile.existsRecord_fail_iff (returnFree_source hf), ← Pattern.createTable_occursIn_iff]
  unfold SourceFile.hasEvidence
  dsimp only
  rw [h.name_eq, and_iff_right h.name_ne, Evidence.anyFound_iff]
  simp [Evidence.tablePatterns]

theorem LooksForTable.existsWith_pass_iff (h : a.LooksForTable id name f) :
    a.report.ExistsWith id .pass ↔ ∃ c : TableCreation name.toList f.text.toList, c.IsSeen := by
  obtain ⟨n, hn, hkind, hline, hf⟩ := h.declared
  rw [Audit.existsWith_pass_iff hn (by rw [hkind]; rfl) hline hf, h.existsWith_fail_iff, not_not]

end Audit

/-- **When a table exists.** The record passes exactly if the file has a creation that is seen, and
fails otherwise. Where every creation in the file is plain these are the documented creations. -/
theorem table_existence {a : Audit} {id name : String} {f : SourceFile}
    (h : a.LooksForTable id name f) :
    (a.report.ExistsWith id .pass ↔ ∃ c : TableCreation name.toList f.text.toList, c.IsSeen) ∧
    (a.report.ExistsWith id .fail ↔ ¬ ∃ c : TableCreation name.toList f.text.toList, c.IsSeen) ∧
    ((∀ c : TableCreation name.toList f.text.toList, c.IsPlain) →
      (a.report.ExistsWith id .pass ↔
        ∃ c : TableCreation name.toList f.text.toList, c.IsDocumented)) := by
  refine ⟨h.existsWith_pass_iff, h.existsWith_fail_iff, ?_⟩
  intro hplain
  rw [h.existsWith_pass_iff]
  exact exists_congr fun c => TableCreation.isSeen_iff_of_isPlain (hplain c)

/-- A map of one table, with the text of its file. -/
def oneTableIn (text : String) : Audit where
  sources := .ofList [(⟨"schema.sql"⟩, some text)]
  document := { nodes := .ofList [("table:tasks", { loc := some "schema.sql" })] }
  root := ⟨""⟩

theorem oneTableIn_looksForTable {text : String} (htext : withUniformLineEnds text = text) :
    (oneTableIn text).LooksForTable "table:tasks" "tasks" ⟨"schema.sql", none, text⟩ where
  declared := by
    let place := Location.resolve (Location.ofString "schema.sql") ⟨""⟩ ""
    have hcomponents : place.path.components = FilePath.components ⟨"schema.sql"⟩ := by decide
    have hshown : place.path.shown ⟨""⟩ = "schema.sql" := by decide +kernel
    have hline : place.line = none := by decide
    have hlookup : Sources.lookup [(⟨"schema.sql"⟩, some text)] place.path = some (some text) := by
      simp [Sources.lookup, hcomponents]
    refine ⟨{ loc := some "schema.sql" }, rfl, by decide, by decide,
      Audit.source_eq_ok_iff.mpr ⟨_, text, rfl, ?_, ?_⟩⟩
    · show (Sources.ofList [(⟨"schema.sql"⟩, some text)]).read place.path = _
      simp only [Sources.ofList, hlookup]
    · show _ = SourceFile.mk (place.path.shown ⟨""⟩) place.line (withUniformLineEnds text)
      rw [hshown, hline, htext]
  name_eq := by decide
  name_ne := by decide

/-- Case, the clause and a mark in front of the name make no difference. -/
theorem quoted_table_exists :
    let text := "create Table IF not EXISTS [Tasks(id int)"
    (oneTableIn text).LooksForTable "table:tasks" "tasks" ⟨"schema.sql", none, text⟩ ∧
      (oneTableIn text).report.ExistsWith "table:tasks" .pass := by
  intro text
  have h : (oneTableIn text).LooksForTable "table:tasks" "tasks" ⟨"schema.sql", none, text⟩ :=
    oneTableIn_looksForTable (by decide +kernel)
  refine ⟨h, (table_existence h).1.mpr ⟨{
    before := []
    keywords := "create Table ".toList
    clause := "IF not EXISTS ".toList
    qualifier := []
    opening := ['[']
    word := "Tasks".toList
    closing := []
    behind := "(id int)".toList
    text_eq := by decide +kernel
    startsWord := by rintro c ⟨⟩
    isKeywords := ⟨"create".toList, [' '], "Table ".toList, by decide +kernel, by decide +kernel, by decide +kernel,
      "Table".toList, [' '], [], by decide +kernel, by decide +kernel, by decide +kernel, rfl⟩
    isClause := Or.inr ⟨"IF".toList, [' '], "not EXISTS ".toList, by decide +kernel, by decide +kernel, by decide +kernel,
      "not".toList, [' '], "EXISTS ".toList, by decide +kernel, by decide +kernel, by decide +kernel,
      "EXISTS".toList, [' '], [], by decide +kernel, by decide +kernel, by decide +kernel, rfl⟩
    isQualifier := Or.inl rfl
    isOpening := Or.inr ⟨'[', by decide +kernel, rfl⟩
    isName := by decide +kernel
    isClosing := Or.inl rfl }, rfl, ?_⟩⟩
  exact endsName_cons.mpr (by decide +kernel)

/-- A statement that names the table in a schema. -/
def qualifiedStatement : String := "CREATE TABLE public.tasks (id int);"

/-- A statement that names a table with a dollar sign more. -/
def dollarStatement : String := "CREATE TABLE tasks$ (id int);"

/-- The name is in one place of the statement, with a dollar sign behind it. -/
theorem creation_in_dollarStatement (c : TableCreation "tasks".toList dollarStatement.toList) :
    c.qualifier = [] ∧ c.behind.head? = some '$' := by
  constructor
  · rcases c.isQualifier with hnone | ⟨schema, -, -, hschema⟩
    · exact hnone
    · have hdot : '.' ∈ dollarStatement.toList :=
        (congrArg ('.' ∈ ·) c.text_eq).mpr (by simp [hschema])
      exact absurd hdot (by decide +kernel)
  · have hplaces : ∀ n < dollarStatement.toList.length + 1,
        SameUpToCase ((dollarStatement.toList.drop n).take 5) "tasks".toList →
          dollarStatement.toList.drop (n + 5) = '$' :: " (id int);".toList := by decide +kernel
    have hlength : c.word.length = 5 := by simpa using congrArg List.length c.isName
    obtain ⟨front, hfront⟩ : ∃ front,
        dollarStatement.toList = front ++ (c.word ++ (c.closing ++ c.behind)) :=
      ⟨c.before ++ c.keywords ++ c.clause ++ c.qualifier ++ c.opening, c.text_eq.trans (by simp)⟩
    have hdrop : dollarStatement.toList.drop front.length = c.word ++ (c.closing ++ c.behind) :=
      (congrArg (List.drop front.length) hfront).trans List.drop_left
    have hfits : front.length < dollarStatement.toList.length + 1 := by
      have hsum := congrArg List.length hfront
      rw [List.length_append] at hsum
      omega
    have hrest : c.closing ++ c.behind = '$' :: " (id int);".toList := by
      rw [← hplaces front.length hfits ?_, ← List.drop_drop, hdrop, List.drop_left' hlength]
      rw [hdrop, List.take_left' hlength]
      exact c.isName
    rcases c.isClosing with hnone | ⟨mark, hmark, hclosing⟩
    · rw [hnone, List.nil_append] at hrest
      rw [hrest]
      rfl
    · rw [hclosing, List.singleton_append] at hrest
      obtain ⟨rfl, -⟩ := List.cons.inj hrest
      exact absurd hmark (by decide)

/-- A table that is created in a schema is reported missing, and one whose name only begins with the
name that is looked for is reported found if a dollar sign follows. -/
theorem table_in_schema_is_missed :
    (oneTableIn qualifiedStatement).LooksForTable "table:tasks" "tasks"
        ⟨"schema.sql", none, qualifiedStatement⟩ ∧
      (∃ c : TableCreation "tasks".toList qualifiedStatement.toList, c.IsDocumented) ∧
      (oneTableIn qualifiedStatement).report.ExistsWith "table:tasks" .fail ∧
    (oneTableIn dollarStatement).LooksForTable "table:tasks" "tasks"
        ⟨"schema.sql", none, dollarStatement⟩ ∧
      (∀ c : TableCreation "tasks".toList dollarStatement.toList, c.IsSeen ∧ ¬ c.IsDocumented) ∧
      (oneTableIn dollarStatement).report.ExistsWith "table:tasks" .pass := by
  refine ⟨oneTableIn_looksForTable (by decide +kernel), ⟨{
    before := []
    keywords := "CREATE TABLE ".toList
    clause := []
    qualifier := "public.".toList
    opening := []
    word := "tasks".toList
    closing := []
    behind := " (id int);".toList
    text_eq := by decide +kernel
    startsWord := by rintro c ⟨⟩
    isKeywords := ⟨"CREATE".toList, [' '], "TABLE ".toList, by decide +kernel, by decide +kernel, by decide +kernel,
      "TABLE".toList, [' '], [], by decide +kernel, by decide +kernel, by decide +kernel, rfl⟩
    isClause := Or.inl rfl
    isQualifier := Or.inr ⟨"public".toList, by decide +kernel, by decide +kernel, by decide +kernel⟩
    isOpening := Or.inl rfl
    isName := by decide +kernel
    isClosing := Or.inl rfl }, ?documented⟩, by decide +kernel,
    oneTableIn_looksForTable (by decide +kernel), ?dollar, by decide +kernel⟩
  case documented =>
    rintro c ⟨⟩
    decide
  case dollar =>
    intro c
    obtain ⟨hqualifier, hnext⟩ := creation_in_dollarStatement c
    exact TableCreation.isSeen_of_dollar hqualifier hnext

end ContractAudit
