import ContractAudit.Proofs.Audit.EdgePolicy
import ContractAudit.Proofs.Evidence.TableAccess

/-!
# Longer names of tables

What is found for a table that is read or written stands alone in the file: no character of a name
is next to it. A file that has the name of the table only inside longer names therefore has no
access to it, and edges from there that read or write the table warn (`table_access_evidence`).
-/

namespace ContractAudit

open Text Pattern

/-- The report takes an access to a table from a file, read with uniform line ends, only if the name
of the table stands alone there. -/
def Audit.ReadsNamesAlone (a : Audit) : Prop :=
  ∀ (i : Nat) (e : EdgeRecord) (row : CheckRecord) (source target : NodeRecord) (f : SourceFile),
    a.document.edges[i]? = some e → (a.report.phaseRecords .edges)[i]? = some row →
    a.HasEnds e source target → a.source source = .ok f →
    (e.relation = .reads ∨ e.relation = .writes) →
    ¬ HasNameAlone (NodeId.ofString e.target).name.toList f.text.toList → row.status = .warn

/-- Without the name nothing is found, and the edge has its other status. -/
theorem Status.DecidedBy.of_no_name {status otherwise : Status} {table text : String}
    (h : status.DecidedBy (.access table) text otherwise)
    (hnone : ¬ HasNameAlone table.toList text.toList) : status = otherwise := by
  rcases h with ⟨hfound, -⟩ | ⟨-, hstatus⟩
  · obtain ⟨p, hp, hocc⟩ := EdgeFamily.foundIn_iff_occursIn.mp hfound
    exact absurd (Evidence.hasNameAlone_of_tableAccessPatterns hp hocc) hnone
  · exact hstatus

theorem Audit.readsNamesAlone (a : Audit) : a.ReadsNamesAlone := by
  intro i e row source target f he hrow hends hf hrel hnone
  have hpolicy := (followsPolicy_of_places he hrow).relation_of_source hends hf
  rcases hrel with hrel | hrel
  · exact (hpolicy.reads (EdgeRecord.trim_rel hrel)).of_no_name hnone
  · exact (hpolicy.writes (EdgeRecord.trim_rel hrel)).of_no_name hnone

/-- **What is evidence of access to a table.** The pattern for strings takes a name without quotes
and line feeds from exactly those texts that have two quotes, with neither between them, and there
the name alone. Whatever pattern finds a table, a case variant of its name stands alone in the text,
so a file with longer names only lets no edge pass that reads or writes the table. -/
theorem table_access_evidence (a : Audit) :
    (∀ table text : String, InString table.toList →
      ((tableInString table).found text.toList = true ↔
        ∃ before q inside r behind, text.toList = before ++ q :: (inside ++ r :: behind) ∧
          q ∈ quoteMarks ∧ r ∈ quoteMarks ∧ InString inside ∧ StandsAlone table.toList inside)) ∧
    (∀ table text : String, ∀ p ∈ Evidence.tableAccessPatterns table,
      p.found text.toList = true → HasNameAlone table.toList text.toList) ∧
    a.ReadsNamesAlone := by
  refine ⟨?_, ?_, a.readsNamesAlone⟩
  · intro table text htable
    rw [found_iff, tableInString_occursIn_iff, hasInString_iff htable]
  · intro table text p hp h
    exact Evidence.hasNameAlone_of_tableAccessPatterns hp (found_iff.mp h)

/-- A map of a method that reads and writes a table, in a file that names other tables. -/
def longerTables : Audit where
  sources := .ofList [(⟨"a.ts"⟩, some "from('tasks_archive'); exec('update subtasks')")]
  document :=
    { nodes := .ofList [("method:Repo.all", { loc := some "a.ts" }), ("table:tasks", {})]
      edges := [{ source := "method:Repo.all", target := "table:tasks", rel := "reads" },
        { source := "method:Repo.all", target := "table:tasks", rel := "writes" }] }
  root := ⟨""⟩

/-- Both edges warn, while a string with a blank in front of the name has the table. -/
theorem longer_tables_warn :
    (tableInString "tasks").found "knex(\"app tasks`)".toList = true ∧
      HasNameAlone "tasks".toList "select id from `Tasks` where".toList ∧
      (longerTables.report.phaseRecords .edges).map (·.status) = [.warn, .warn] := by
  obtain ⟨hstring, hfound, hreads⟩ := table_access_evidence longerTables
  have hf : longerTables.source { loc := some "a.ts" } =
      .ok ⟨"a.ts", none, "from('tasks_archive'); exec('update subtasks')"⟩ := by decide +kernel
  have hnone : ¬ HasNameAlone "tasks".toList
      "from('tasks_archive'); exec('update subtasks')".toList := by decide +kernel
  have hnumber : (longerTables.report.phaseRecords .edges).length = 2 :=
    longerTables.forall₂_followsPolicy.length_eq.symm
  obtain ⟨reads, writes, hrows⟩ := List.length_eq_two.mp hnumber
  have halone : StandsAlone "tasks".toList "app tasks".toList :=
    ⟨"app ".toList, [], by decide +kernel, by decide +kernel, rfl⟩
  refine ⟨?_, ?_, ?_⟩
  · exact (hstring "tasks" "knex(\"app tasks`)" (by decide)).mpr
      ⟨"knex(".toList, '"', "app tasks".toList, '\x60', [')'], by decide +kernel, by decide,
        by decide, by decide, halone⟩
  · exact hfound "tasks" "select id from `Tasks` where" (tableStatement "tasks")
      (by simp [Evidence.tableAccessPatterns]) (by decide +kernel)
  · rw [hrows, List.map_cons, List.map_singleton,
      hreads 0 _ reads _ _ _ rfl (by rw [hrows]; rfl) ⟨rfl, rfl⟩ hf (Or.inl (by decide)) hnone,
      hreads 1 _ writes _ _ _ rfl (by rw [hrows]; rfl) ⟨rfl, rfl⟩ hf (Or.inr (by decide)) hnone]

end ContractAudit
