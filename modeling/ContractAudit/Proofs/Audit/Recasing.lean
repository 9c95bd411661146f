import ContractAudit.Proofs.Audit.Existence
import ContractAudit.Proofs.Audit.LineEnds
import ContractAudit.Proofs.Pattern.Recasing

/-!
# The case of names of tables

All that is asked about a table ignores case: the pattern for its creation, the one for a reference
to it and the one for a statement on it. A second audit may find the files recased, and the map may
name the table and the tables it refers to in another case (`RecasedTable`). A window over a recased
file is the recased window, so evidence stands near, elsewhere or nowhere as before, and every
record of the table keeps its status (`table_names_ignore_case`).
-/

namespace ContractAudit

open Text

/-! ## Patterns for tables -/

namespace Pattern

variable {name name' : String} {text text' : List Char}

section

variable (hname : Recased name.toList name'.toList) (htext : Recased text text')
include hname htext

theorem createTable_found_recased :
    (createTable name').found text' = (createTable name).found text := by
  have hcase : (createTable name).ignoresCase = true := ignoresCase_ignoringCase _
  exact found_recased [_, _, _, _, _, _, _] [_, _] hcase hname htext

theorem token_found_recased :
    (token name').ignoringCase.found text' = (token name).ignoringCase.found text := by
  have hcase : (token name).ignoringCase.ignoresCase = true := ignoresCase_ignoringCase _
  exact found_recased [_] [_] hcase hname htext

theorem tableStatement_found_recased :
    (tableStatement name').found text' = (tableStatement name).found text := by
  have hcase : (tableStatement name).ignoresCase = true := ignoresCase_ignoringCase _
  exact found_recased [_, _, _, _] [_, _] hcase hname htext

end

end Pattern

namespace Evidence

variable {name name' : String} {text text' : String}

section

variable (hname : Recased name.toList name'.toList) (htext : Recased text.toList text'.toList)
include hname htext

theorem tablePatterns_recased :
    anyFound (tablePatterns name') text' = anyFound (tablePatterns name) text := by
  unfold anyFound tablePatterns
  rw [List.any_cons, List.any_cons, Pattern.createTable_found_recased hname htext]
  rfl

theorem tableReferencePatterns_recased :
    anyFound (tableReferencePatterns name') text' =
      anyFound (tableReferencePatterns name) text := by
  unfold anyFound tableReferencePatterns
  rw [List.any_cons, List.any_cons, Pattern.token_found_recased hname htext]
  rfl

end

end Evidence

/-! ## Records of tables -/

/-- The files have the same declared line, and their texts are recased. -/
structure SourceFile.RecasedTo (f f' : SourceFile) : Prop where
  line_eq : f'.line = f.line
  text : Recased f.text.toList f'.text.toList

namespace SourceFile

variable {f f' : SourceFile}

/-- What does not see the case of a text finds evidence in the same place. -/
theorem RecasedTo.locateWith (h : f.RecasedTo f') (radius : Nat) {has has' : String → Bool}
    (hhas : ∀ {s s' : String}, Recased s.toList s'.toList → has' s' = has s) :
    f'.locateWith radius has' = f.locateWith radius has := by
  unfold SourceFile.locateWith window
  rw [h.line_eq, hhas h.text]
  cases f.line with
  | none => rfl
  | some line =>
      dsimp only [Option.map_some]
      rw [hhas (recased_windowText h.text line radius)]

/-- The status of existence follows from the place alone. -/
theorem existence_status_eq (id id' what what' : String) (ev : Evidence) :
    (f'.existence id' what' ev).status = (f.existence id what ev).status := by
  cases ev <;> rfl

/-- A foreign key warns unless it names a table that the file mentions. -/
theorem foreignKeyRecord_status (f : SourceFile) (id entry : String) :
    (f.foreignKeyRecord id entry).status =
      if (ForeignKey.target entry).isEmpty then .warn
      else if Evidence.anyFound (Evidence.tableReferencePatterns (ForeignKey.target entry)) f.text
        then .pass else .warn := by
  unfold foreignKeyRecord
  dsimp only
  split
  · rfl
  · split <;> rfl

theorem RecasedTo.foreignKeyRecord_status_eq (h : f.RecasedTo f') (id id' : String)
    {entry entry' : String} (he : Recased entry.toList entry'.toList) :
    (f'.foreignKeyRecord id' entry').status = (f.foreignKeyRecord id entry).status := by
  have htarget := ForeignKey.recased_target he
  rw [foreignKeyRecord_status, foreignKeyRecord_status, htarget.isEmpty_eq,
    Evidence.tableReferencePatterns_recased htarget h.text]

end SourceFile

/-- What a record says of its subject, its message and place aside. -/
def CheckRecord.outcome (r : CheckRecord) : String × Status := (r.check, r.status)

/-- Two nodes are tables in the same place, and the names of the tables and the foreign keys are
recased. -/
structure RecasedTable (id id' : String) (n n' : NodeRecord) : Prop where
  isTable : Document.kindOf id (some n) = .table
  isTable' : Document.kindOf id' (some n') = .table
  identifier : Recased (NodeId.ofString id).identifier.toList
    (NodeId.ofString id').identifier.toList
  loc_eq : n'.loc = n.loc
  fk : List.Forall₂ (fun entry entry' => Recased entry.toList entry'.toList) n.fk n'.fk

namespace SourceFile

variable {f f' : SourceFile} {id id' : String} {n n' : NodeRecord}

theorem RecasedTo.tableExistence_outcome (h : f.RecasedTo f') (id id' : String)
    {name name' : String} (hname : Recased name.toList name'.toList) :
    (f'.tableExistence id' name').outcome = (f.tableExistence id name).outcome := by
  unfold tableExistence locate
  rw [h.locateWith Evidence.defaultRadius (Evidence.tablePatterns_recased hname)]
  exact Prod.ext rfl (existence_status_eq id id' _ _ _)

theorem RecasedTo.foreignKeyRecord_outcome (h : f.RecasedTo f') (id id' : String)
    {entry entry' : String} (he : Recased entry.toList entry'.toList) :
    (f'.foreignKeyRecord id' entry').outcome = (f.foreignKeyRecord id entry).outcome := by
  unfold CheckRecord.outcome
  rw [h.foreignKeyRecord_status_eq id id' he, (f'.foreignKeyRecord_isAbout id' entry').2,
    (f.foreignKeyRecord_isAbout id entry).2]

theorem RecasedTo.nodeRecords_outcome (h : f.RecasedTo f') (ht : RecasedTable id id' n n') :
    (f'.nodeRecords id' n' .table).map CheckRecord.outcome =
      (f.nodeRecords id n .table).map CheckRecord.outcome := by
  have hname : Recased (NodeId.ofString id).name.toList (NodeId.ofString id').name.toList :=
    recased_trim ht.identifier
  have hfk : (n'.fk.map (f'.foreignKeyRecord id')).map CheckRecord.outcome =
      (n.fk.map (f.foreignKeyRecord id)).map CheckRecord.outcome := by
    rw [List.map_map, List.map_map, ← List.forall₂_eq_eq_eq, List.forall₂_map_left_iff,
      List.forall₂_map_right_iff]
    exact ht.fk.flip.imp fun entry' entry he => h.foreignKeyRecord_outcome id id' he
  unfold nodeRecords
  dsimp only
  rw [hname.isEmpty_eq]
  split
  · rfl
  · rw [List.map_cons, List.map_cons, h.tableExistence_outcome id id' hname, hfk]

end SourceFile

/-! ## Recased sources -/

/-- Either reading gives a text and these are recased, or neither does. -/
inductive RecasedReading : Except String String → Except String String → Prop where
  | text {t t' : String} : Recased t.toList t'.toList → RecasedReading (.ok t) (.ok t')
  | fault (fault fault' : String) : RecasedReading (.error fault) (.error fault')

/-- The same files are there, and their texts are recased. -/
def Sources.RecasedTo (s s' : Sources) : Prop := ∀ p, RecasedReading (s.read p) (s'.read p)

theorem Sources.recasedTo_single (file : FilePath) {text text' : String}
    (h : Recased text.toList text'.toList) :
    (Sources.ofList [(file, some text)]).RecasedTo (.ofList [(file, some text')]) := by
  intro p
  rw [read_single, read_single]
  split
  · exact .text h
  · exact .fault _ _

namespace Audit

variable {a a' : Audit} {id id' : String} {n n' : NodeRecord}

/-- Either node has a source and these are recased, or neither has. -/
theorem SamePlaces.source_recased (h : a.SamePlaces a') (hs : a.sources.RecasedTo a'.sources)
    (hloc : n'.loc = n.loc) :
    (∃ f f', a.source n = .ok f ∧ a'.source n' = .ok f' ∧ f.RecasedTo f') ∨
      ∃ fault fault', a.source n = .error fault ∧ a'.source n' = .error fault' := by
  unfold Audit.source
  rw [hloc]
  cases n.loc with
  | none => exact Or.inr ⟨_, _, rfl, rfl⟩
  | some loc =>
      have hread := hs (a.resolve loc).path
      unfold Audit.sourceAt
      dsimp only
      rw [h.resolve_eq]
      generalize a.sources.read (a.resolve loc).path = reading at hread
      generalize a'.sources.read (a.resolve loc).path = reading' at hread
      cases hread with
      | text ht => exact Or.inl ⟨_, _, rfl, rfl, rfl, recased_withUniformLineEnds ht⟩
      | fault fault fault' => exact Or.inr ⟨_, _, rfl, rfl⟩

theorem SamePlaces.nodeBlock_outcome_recased (h : a.SamePlaces a')
    (hs : a.sources.RecasedTo a'.sources) (ht : RecasedTable id id' n n') :
    (a'.nodeBlock id' n').records.map CheckRecord.outcome =
      (a.nodeBlock id n).records.map CheckRecord.outcome := by
  have hk : (Document.kindOf id (some n)).isCustom = false := by rw [ht.isTable]; rfl
  have hk' : (Document.kindOf id' (some n')).isCustom = false := by rw [ht.isTable']; rfl
  rcases h.source_recased hs ht.loc_eq with ⟨f, f', hf, hf', hrecased⟩ | ⟨fault, fault', hf, hf'⟩
  · rw [nodeBlock_records_of_ok hk hf, nodeBlock_records_of_ok hk' hf', ht.isTable, ht.isTable']
    exact hrecased.nodeRecords_outcome ht
  · rw [nodeBlock_records_of_error hk hf, nodeBlock_records_of_error hk' hf']
    simp [CheckRecord.outcome]

end Audit

/-- **The case of names of tables is of no matter.** Neither the pattern for the creation of a
table, nor that for a reference, nor that for a statement tells a name or a text from a recasing of
it; and where files, identifiers and foreign keys are recased, the records of a table keep their
statuses. -/
theorem table_names_ignore_case :
    (∀ name name' text text' : String, Recased name.toList name'.toList →
      Recased text.toList text'.toList →
        Evidence.anyFound (Evidence.tablePatterns name') text' =
          Evidence.anyFound (Evidence.tablePatterns name) text ∧
        Evidence.anyFound (Evidence.tableReferencePatterns name') text' =
          Evidence.anyFound (Evidence.tableReferencePatterns name) text ∧
        (Pattern.tableStatement name').found text'.toList =
          (Pattern.tableStatement name).found text.toList) ∧
    (∀ (a a' : Audit) (id id' : String) (n n' : NodeRecord), a.SamePlaces a' →
      a.sources.RecasedTo a'.sources → a.document.node? id = some n →
      a'.document.node? id' = some n' → RecasedTable id id' n n' →
        (a'.report.recordsOf .nodes id').map CheckRecord.outcome =
          (a.report.recordsOf .nodes id).map CheckRecord.outcome) := by
  refine ⟨?_, ?_⟩
  · intro name name' text text' hname htext
    exact ⟨Evidence.tablePatterns_recased hname htext,
      Evidence.tableReferencePatterns_recased hname htext,
      Pattern.tableStatement_found_recased hname htext⟩
  · intro a a' id id' n n' h hs hn hn' ht
    rw [Audit.recordsOf_nodes, Audit.recordsOf_nodes, hn, hn', Option.map_some, Option.map_some,
      Option.getD_some, Option.getD_some]
    exact h.nodeBlock_outcome_recased hs ht

/-- A map of one table with a foreign key, and the text of its file. -/
def ownedTable (id entry text : String) : Audit where
  sources := .ofList [(⟨"schema.sql"⟩, some text)]
  document := { nodes := .ofList [(id, { loc := some "schema.sql:1", fk := [entry] })] }
  root := ⟨""⟩

/-- A Kelvin sign stands for a letter in the file, which is written in capitals later on, as are the
name of the table and its foreign key. -/
theorem capital_table_exists :
    let text := "create table tas\u212as (\n o references users)"
    let text' := "CREATE TABLE TAS\u212aS (\n O REFERENCES USERS)"
    let a := ownedTable "table:tasks" "o -> Users.id" text
    let a' := ownedTable "table:TASKS" "O -> users.ID" text'
    (Recased text.toList text'.toList ∧
      (Pattern.tableStatement "TASKS").found text'.toList =
        (Pattern.tableStatement "tasks").found text.toList) ∧
    (a.SamePlaces a' ∧ a.sources.RecasedTo a'.sources) ∧
      (a.report.recordsOf .nodes "table:tasks").map CheckRecord.outcome =
        [("exists", .pass), ("fk", .pass)] ∧
      (a'.report.recordsOf .nodes "table:TASKS").map CheckRecord.outcome =
        [("exists", .pass), ("fk", .pass)] := by
  intro text text' a a'
  have htext : Recased text.toList text'.toList := by decide +kernel
  have hplaces : a.SamePlaces a' := ⟨rfl, rfl⟩
  have hsources : a.sources.RecasedTo a'.sources := Sources.recasedTo_single _ htext
  have htable : RecasedTable "table:tasks" "table:TASKS"
      { loc := some "schema.sql:1", fk := ["o -> Users.id"] }
      { loc := some "schema.sql:1", fk := ["O -> users.ID"] } :=
    ⟨by decide, by decide, by decide, rfl, .cons (by decide) .nil⟩
  have hstatuses : (a.report.recordsOf .nodes "table:tasks").map CheckRecord.outcome =
      [("exists", .pass), ("fk", .pass)] := by decide +kernel
  have hstatement := (table_names_ignore_case.1 "tasks" "TASKS" text text' (by decide) htext).2.2
  have houtcomes := table_names_ignore_case.2 a a' "table:tasks" "table:TASKS" _ _ hplaces hsources
    (by decide) (by decide) htable
  exact ⟨⟨htext, hstatement⟩, ⟨hplaces, hsources⟩, hstatuses, houtcomes.trans hstatuses⟩

end ContractAudit
