import ContractAudit.Proofs.Audit.FurtherChecks
import ContractAudit.Proofs.Location.Components

/-!
# The path that is shown is the path that is read

A record shows a file by what is left of its path below the root of the project. Put below the root
again, that is the path at which the file was looked for, up to slack
(`FilePath.components_join_shown`): a location leads below the root unless something in it is
absolute (`Location.resolve_below`), and an absolute path elsewhere is shown as it is. So records of
two nodes that show the same file come from the same file (`shown_paths_are_read`).
-/

namespace ContractAudit

/-- The paths have the same components. In a file tree they never lead to two files, though one of
them may lead nowhere because of a slash behind the name of a file. -/
structure FilePath.SameFile (p q : FilePath) : Prop where
  components : p.components = q.components
  found : ∀ (fs : FileSystem) t u, fs.find p = .ok t → fs.find q = .ok u → t = u

theorem FilePath.sameFile_iff {p q : FilePath} : p.SameFile q ↔ p.components = q.components :=
  ⟨SameFile.components, fun h => ⟨h, fun _ _ _ => FileSystem.find_unique h⟩⟩

/-! ## Below the root and back -/

/-- **A path is shown by what leads to it** from the root, if it lies below the root or is absolute. -/
theorem FilePath.components_join_shown {p root : FilePath}
    (h : p.isAbsolute = true ∨ root.components <+: p.components) :
    (root.join ⟨p.shown root⟩).components = p.components := by
  unfold shown below?
  by_cases hbelow : root.components <+: p.components
  · rw [if_pos (List.isPrefixOf_iff_prefix.mpr hbelow), Option.getD_some]
    show (root.join (p.behind root.components.length)).components = _
    cases hlength : root.components.length with
    | zero =>
        have hroot := components_eq_nil_iff.mp (List.eq_nil_of_length_eq_zero hlength)
        rw [join_of_empty hroot, components_behind_zero]
    | succ n =>
        have hroot : root.text ≠ "" := by
          intro hempty
          rw [components_eq_nil_iff.mpr hempty] at hlength
          cases hlength
        obtain ⟨rest, hrest⟩ := hbelow
        rw [components_join hroot (p.isAbsolute_behind n), bodyComponents_behind, ← hrest, ← hlength,
          List.drop_left]
  · rw [if_neg (mt List.isPrefixOf_iff_prefix.mp hbelow), Option.getD_none]
    exact congrArg components (join_of_isAbsolute (h.resolve_right hbelow) root)

/-- A location leads below the root, unless it or the directory of the map is absolute. -/
theorem Location.resolve_below (l : Location) (root : FilePath) (docRoot : String) :
    (l.resolve root docRoot).path.isAbsolute = true ∨
      root.components <+: (l.resolve root docRoot).path.components := by
  refine or_iff_not_imp_left.mpr fun habsolute => ?_
  have hpath : ((base root docRoot).join ⟨l.path⟩).isAbsolute = false :=
    Bool.eq_false_iff.mpr habsolute
  have hbase : (base root docRoot).isAbsolute = false := by
    rw [FilePath.isAbsolute_join, Bool.or_eq_false_iff] at hpath
    exact hpath.1
  refine List.IsPrefix.trans ?_ (FilePath.components_prefix_join hpath)
  unfold base at hbase ⊢
  split at hbase
  · exact FilePath.components_prefix_join hbase
  · exact List.prefix_refl _

/-! ## What records show -/

@[simp] theorem located_file (r : CheckRecord) (file : String) (line : Option Nat) :
    (r.located file line).file = some file := rfl

namespace SourceFile

variable {f : SourceFile} {id : String} {kind : NodeKind} {n : NodeRecord} {r : CheckRecord}

theorem existsRecord_file : (f.existsRecord id kind).file = some f.display := by
  rcases f.existsRecord_cases id kind with ⟨ev, h⟩ | ⟨m, h, -⟩
  · rw [h]
    exact located_file ..
  · rw [h]
    exact located_file ..

theorem furtherRecords_file (h : r ∈ f.furtherRecords id n kind) : r.file = some f.display := by
  unfold furtherRecords at h
  split at h
  · cases h
  · cases kind with
    | type =>
        rcases List.mem_append.mp h with hr | hr
        · unfold valueRecords at hr
          split at hr
          · cases hr
          · obtain rfl := List.mem_singleton.mp hr
            exact located_file ..
          · obtain ⟨v, -, rfl⟩ := List.mem_map.mp hr
            exact located_file ..
        · unfold schemaRecords at hr
          split at hr
          · cases hr
          · dsimp only at hr
            rw [List.mem_singleton.mp hr]
            exact located_file ..
    | table =>
        obtain ⟨entry, -, hr⟩ := List.mem_map.mp h
        rw [← hr]
        unfold foreignKeyRecord
        dsimp only
        exact located_file ..
    | _ => cases h

end SourceFile

namespace Audit

variable {a : Audit} {id : String} {n : NodeRecord} {r : CheckRecord} {shown : String}

/-- A file that a record of a node shows is the one that the location of the node leads to. -/
theorem exists_loc_of_mem_nodeBlock (h : r ∈ (a.nodeBlock id n).records) (hr : r.file = some shown) :
    ∃ loc, n.loc = some loc ∧ shown = a.shownAt loc := by
  rcases a.nodeBlock_cases id n with
    ⟨name, hrecords⟩ | ⟨fault, hf, hrecords⟩ | ⟨f, hf, -, hrecords⟩
  · rw [hrecords, List.mem_singleton] at h
    subst h
    unfold customExistence at hr
    split at hr
    · cases hr
    · rename_i loc hloc
      dsimp only at hr
      split at hr
      iterate 2
        cases hr
        exact ⟨loc, hloc, rfl⟩
  · rw [hrecords, List.mem_singleton] at h
    subst h
    cases hloc : n.loc with
    | none =>
        rw [source_of_no_loc hloc] at hf
        cases hf
        cases hr
    | some loc =>
        obtain ⟨detail, rfl⟩ := exists_unreadable hloc hf
        cases hr
        exact ⟨loc, rfl, rfl⟩
  · obtain ⟨loc, text, hloc, -, hsource⟩ := source_eq_ok_iff.mp hf
    have hfile : r.file = some f.display := by
      rw [hrecords] at h
      rcases List.mem_cons.mp h with hfirst | h
      · rw [hfirst]
        exact SourceFile.existsRecord_file
      · exact SourceFile.furtherRecords_file h
    rw [hr, hsource] at hfile
    exact ⟨loc, hloc, Option.some.inj hfile⟩

/-- The file that a record shows, put below the root, is the file of the node. -/
theorem exists_loc_of_mem_recordsOf (hn : a.document.node? id = some n)
    (h : r ∈ a.report.recordsOf .nodes id) (hr : r.file = some shown) :
    ∃ loc, n.loc = some loc ∧ (a.root.join ⟨shown⟩).components = (a.resolve loc).path.components := by
  rw [recordsOf_nodes, hn, Option.map_some, Option.getD_some] at h
  obtain ⟨loc, hloc, rfl⟩ := exists_loc_of_mem_nodeBlock h hr
  exact ⟨loc, hloc, FilePath.components_join_shown (Location.resolve_below ..)⟩

end Audit

/-- **The path that is shown is the path that is read.** Whatever the root of the project, the
directory of the map and the location, the path that is shown for a file leads from the root to that
file. So two nodes whose records show the same file were checked against the same file. -/
theorem shown_paths_are_read :
    (∀ (root : FilePath) docRoot loc,
      (root.join ⟨((Location.ofString loc).resolve root docRoot).path.shown root⟩).SameFile
        ((Location.ofString loc).resolve root docRoot).path) ∧
    ∀ (a : Audit) id n id' n', a.document.node? id = some n → a.document.node? id' = some n' →
      ∀ r ∈ a.report.recordsOf .nodes id, ∀ r' ∈ a.report.recordsOf .nodes id',
        ∀ shown, r.file = some shown → r'.file = some shown →
          ∃ loc loc', n.loc = some loc ∧ n'.loc = some loc' ∧
            (a.resolve loc).path.SameFile (a.resolve loc').path := by
  constructor
  · intro root docRoot loc
    exact FilePath.sameFile_iff.mpr (FilePath.components_join_shown (Location.resolve_below ..))
  · intro a id n id' n' hn hn' r hr r' hr' shown hshown hshown'
    obtain ⟨loc, hloc, hpath⟩ := Audit.exists_loc_of_mem_recordsOf hn hr hshown
    obtain ⟨loc', hloc', hpath'⟩ := Audit.exists_loc_of_mem_recordsOf hn' hr' hshown'
    exact ⟨loc, loc', hloc, hloc', FilePath.sameFile_iff.mpr (hpath.symm.trans hpath')⟩

/-- Two nodes with one file, once below the directory of the map and once from the root of the file
tree. -/
def planTwice : Audit where
  sources := FileSystem.sources
    { tree := .directory [("repo", .directory [("app", .directory
        [("docs", .directory []), ("plan.md", .file [])])])]
      workingDirectory := ⟨"/"⟩ }
  document :=
    { metadata := { root := " app" }
      nodes := .ofList [("doc:plan", { loc := some "docs/../plan.md:3" }),
        ("doc:copy", { loc := some "/repo//app/docs/../plan.md/." })] }
  root := ⟨"/repo/./"⟩

/-- Both records show one file, although the second location, with slack behind the name of the
file, leads nowhere. -/
theorem plan_is_shown_twice :
    planTwice.report.records.map (fun r => (r.status, r.file)) =
        [(.pass, some "app/docs/../plan.md"), (.fail, some "app/docs/../plan.md")] ∧
      (planTwice.resolve "docs/../plan.md:3").path.text = "/repo/./app/docs/../plan.md" ∧
      (planTwice.resolve "docs/../plan.md:3").path.SameFile
        (planTwice.resolve "/repo//app/docs/../plan.md/.").path := by
  have hplan : planTwice.report.recordsOf .nodes "doc:plan" = [(nodeRecord "doc:plan" "exists" .pass
      "file exists (custom kind `doc`, content not inspected)").located "app/docs/../plan.md"
        (some 3)] := by decide +kernel
  have hcopy : planTwice.report.recordsOf .nodes "doc:copy" = [(nodeRecord "doc:copy" "exists" .fail
      "file not found: app/docs/../plan.md").located "app/docs/../plan.md" none] := by
    decide +kernel
  obtain ⟨loc, loc', hloc, hloc', hsame⟩ := shown_paths_are_read.2 planTwice "doc:plan" _ "doc:copy" _
    rfl rfl _ (hplan ▸ List.mem_singleton_self _) _ (hcopy ▸ List.mem_singleton_self _) _ rfl rfl
  cases hloc
  cases hloc'
  exact ⟨by decide +kernel, by decide +kernel, hsame⟩

end ContractAudit
