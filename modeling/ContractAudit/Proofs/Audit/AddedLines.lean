import ContractAudit.Proofs.Audit.GrowingFiles

/-!
# Added lines break no contract

Source files grow by lines. An audit of the grown sources finds whatever the audit of the old ones
found, so a map that held keeps holding (`added_lines_break_nothing`).

Records may turn from passing to warning and back, since a declared line covers another part of the
file; what stays is that none begins to fail. Element by element this is a statement about one file,
or about files being there, and the phases then follow place by place.
-/

namespace ContractAudit

open Text

/-! ## Growing sources -/

/-- Every file of the first sources is in the second, with lines added at most. No text holds a
carriage return. -/
structure Sources.GrowsTo (s s' : Sources) : Prop where
  returnFree : ∀ p t, s.read p = .ok t → ReturnFree t.toList
  returnFree' : ∀ p t, s'.read p = .ok t → ReturnFree t.toList
  readable : ∀ p, s.readable p = true → s'.readable p = true
  read : ∀ p t, s.read p = .ok t → ∃ t', s'.read p = .ok t' ∧ AddsLines t.toList t'.toList

/-- Audits of one map, the second against grown sources. -/
structure Audit.SourcesGrow (a a' : Audit) : Prop where
  document : a'.document = a.document
  root : a'.root = a.root
  sources : a.sources.GrowsTo a'.sources

/-- What adding lines keeps of a report. -/
structure Report.KeptBy (r r' : Report) (document : Document) : Prop where
  nodes : ∀ id, (∀ row ∈ r.recordsOf .nodes id, row.status ≠ .fail) →
    ∀ row ∈ r'.recordsOf .nodes id, row.status ≠ .fail
  foreignKeys : ∀ (id : String) (k : Nat) (row : CheckRecord),
    (r.recordsOf .nodes id)[k]? = some row → row.check = "fk" → row.status = .pass →
    (r'.recordsOf .nodes id)[k]? = some row
  edges : ∀ (i : Nat) (row : CheckRecord),
    (r.phaseRecords .edges)[i]? = some row → row.status ≠ .fail →
    ∃ row', (r'.phaseRecords .edges)[i]? = some row' ∧ row'.status ≠ .fail
  edgePasses : ∀ (i : Nat) (e : EdgeRecord) (row : CheckRecord), document.edges[i]? = some e →
    (NodeId.ofString e.target).methodName ≠ "" → (NodeId.ofString e.target).identifier ≠ "" →
    (r.phaseRecords .edges)[i]? = some row → row.status = .pass →
    (r'.phaseRecords .edges)[i]? = some row
  flows : r'.phaseRecords .flows = r.phaseRecords .flows
  invariants : ∀ (i : Nat) (row : CheckRecord),
    (r.phaseRecords .invariants)[i]? = some row → row.status = .warn →
    (r'.phaseRecords .invariants)[i]? = some row
  exitCode : r.exitCode = 0 → r'.exitCode = 0

/-! ## Audits of grown sources -/

namespace Audit

variable {a a' : Audit}

namespace SourcesGrow

variable (h : a.SourcesGrow a')
include h

theorem resolve_eq : a'.resolve = a.resolve := by
  funext loc
  unfold resolve
  rw [h.root, h.document]

theorem shown_eq : a'.shown = a.shown := by
  funext p
  unfold shown
  rw [h.root]

theorem isReadable {loc : String} (hr : a.isReadable loc = true) : a'.isReadable loc = true := by
  unfold Audit.isReadable at hr ⊢
  rw [h.resolve_eq]
  exact h.sources.readable _ hr

/-- A source that can be read can still be read, and has grown. -/
theorem source {n : NodeRecord} {f : SourceFile} (hs : a.source n = .ok f) :
    ∃ f', a'.source n = .ok f' ∧ f.GrowsTo f' := by
  obtain ⟨loc, text, hloc, hread, rfl⟩ := source_eq_ok_iff.mp hs
  obtain ⟨text', hread', hadds⟩ := h.sources.read _ _ hread
  have hclean := h.sources.returnFree _ _ hread
  have hclean' := h.sources.returnFree' _ _ hread'
  refine ⟨⟨a.shown (a.resolve loc).path, (a.resolve loc).line, text'⟩, ?_, rfl, ?_, ?_, hclean'⟩
  · rw [source_eq_ok_iff, h.resolve_eq, h.shown_eq]
    exact ⟨loc, text', hloc, hread', by rw [withUniformLineEnds_of_returnFree hclean']⟩
  · rwa [withUniformLineEnds_of_returnFree hclean]
  · rwa [withUniformLineEnds_of_returnFree hclean]

/-! ### Nodes -/

theorem customExistence_ne_fail {id kind : String} {n : NodeRecord}
    (hne : (a.customExistence id kind n).status ≠ .fail) :
    (a'.customExistence id kind n).status ≠ .fail := by
  unfold customExistence at hne ⊢
  cases hl : n.loc with
  | none =>
      rw [hl] at hne
      exact absurd rfl hne
  | some loc =>
      rw [hl] at hne
      dsimp only at hne ⊢
      cases hr : a.isReadable loc with
      | false =>
          rw [hr] at hne
          exact absurd rfl hne
      | true =>
          rw [h.isReadable hr]
          simp

theorem nodeBlock_ne_fail {id : String} {n : NodeRecord}
    (hne : ∀ row ∈ (a.nodeBlock id n).records, row.status ≠ .fail) :
    ∀ row ∈ (a'.nodeBlock id n).records, row.status ≠ .fail := by
  cases hc : (Document.kindOf id (some n)).isCustom with
  | true =>
      obtain ⟨kind, hk⟩ := NodeKind.exists_of_isCustom hc
      rw [nodeBlock_records_of_custom hk] at hne ⊢
      intro row hrow
      rw [List.mem_singleton.mp hrow]
      exact h.customExistence_ne_fail (hne _ List.mem_cons_self)
  | false =>
      cases hs : a.source n with
      | error fault =>
          rw [nodeBlock_records_of_error hc hs] at hne
          exact absurd (faultRecord_status id fault) (hne _ List.mem_cons_self)
      | ok f =>
          obtain ⟨f', hs', hg⟩ := h.source hs
          rw [nodeBlock_records_of_ok hc hs] at hne
          rw [nodeBlock_records_of_ok hc hs']
          exact SourceFile.nodeRecords_ne_fail hg hc hne

theorem nodeBlock_foreignKey {id : String} {n : NodeRecord} {k : Nat} {row : CheckRecord}
    (hrow : (a.nodeBlock id n).records[k]? = some row) (hc : row.check = "fk")
    (hp : row.status = .pass) : (a'.nodeBlock id n).records[k]? = some row := by
  cases hcustom : (Document.kindOf id (some n)).isCustom with
  | true =>
      obtain ⟨kind, hk⟩ := NodeKind.exists_of_isCustom hcustom
      rw [nodeBlock_records_of_custom hk] at hrow
      rw [List.mem_singleton.mp (List.mem_of_getElem? hrow), customExistence_check] at hc
      exact absurd hc (by decide)
  | false =>
      cases hs : a.source n with
      | error fault =>
          rw [nodeBlock_records_of_error hcustom hs] at hrow
          rw [List.mem_singleton.mp (List.mem_of_getElem? hrow), faultRecord_status] at hp
          cases hp
      | ok f =>
          obtain ⟨f', hs', hg⟩ := h.source hs
          rw [nodeBlock_records_of_ok hcustom hs] at hrow
          rw [nodeBlock_records_of_ok hcustom hs']
          exact SourceFile.nodeRecords_foreignKey hg hcustom hrow hc hp

end SourcesGrow

/-! ### Edges -/

/-- An edge that does not fail has declared ends, and its file can be read. -/
theorem exists_source_of_ne_fail {e : EdgeRecord} {row : CheckRecord}
    (hrow : row ∈ (a.edgeBlock e).records) (hne : row.status ≠ .fail) :
    ∃ source target f, a.document.node? e.source = some source ∧
      a.document.node? e.target = some target ∧ a.source source = .ok f := by
  rcases a.edgeBlock_cases e with ⟨source, target, hsource, htarget⟩ | hmissing
  · cases hf : a.source source with
    | error fault =>
        rw [edgeBlock_records_of_error hsource htarget hf] at hrow
        rw [List.mem_singleton.mp hrow] at hne
        exact absurd (edgeFaultRecord_status e fault) hne
    | ok f => exact ⟨source, target, f, hsource, htarget, hf⟩
  · rw [hmissing] at hrow
    rw [List.mem_singleton.mp hrow] at hne
    exact absurd rfl hne

namespace SourcesGrow

variable (h : a.SourcesGrow a')
include h

theorem edgeBlock_ne_fail {e : EdgeRecord} {row : CheckRecord}
    (hrow : (a.edgeBlock e).records.head? = some row) (hne : row.status ≠ .fail) :
    ∃ row', (a'.edgeBlock e).records.head? = some row' ∧ row'.status ≠ .fail := by
  obtain ⟨source, target, f, hsource, htarget, hf⟩ :=
    exists_source_of_ne_fail (List.mem_of_mem_head? hrow) hne
  obtain ⟨f', hf', hg⟩ := h.source hf
  rw [edgeBlock_records_of_ok hsource htarget hf] at hrow
  rw [edgeBlock_records_of_ok (by rw [h.document, hsource]) (by rw [h.document, htarget]) hf']
  cases hrow
  rw [located_status, edgeRecord_status] at hne
  refine ⟨_, rfl, ?_⟩
  rw [located_status, edgeRecord_status]
  exact SourceFile.edgeVerdict_ne_fail hg hne

theorem edgeBlock_of_pass {e : EdgeRecord} {row : CheckRecord}
    (hname : (NodeId.ofString e.target).name ≠ "")
    (hrow : (a.edgeBlock e).records.head? = some row) (hp : row.status = .pass) :
    (a'.edgeBlock e).records.head? = some row := by
  have hne : row.status ≠ .fail := by
    rw [hp]
    decide
  obtain ⟨source, target, f, hsource, htarget, hf⟩ :=
    exists_source_of_ne_fail (List.mem_of_mem_head? hrow) hne
  obtain ⟨f', hf', hg⟩ := h.source hf
  rw [edgeBlock_records_of_ok hsource htarget hf] at hrow
  rw [edgeBlock_records_of_ok (by rw [h.document, hsource]) (by rw [h.document, htarget]) hf',
    hg.display]
  cases hrow
  rw [located_status, edgeRecord_status] at hp
  rw [SourceFile.edgeVerdict_of_pass hg hname hp, List.head?_cons]

/-! ### Invariants -/

theorem missingFile?_eq_none {id : String} (hf : a.missingFile? id = none) :
    a'.missingFile? id = none := by
  unfold missingFile? at hf ⊢
  rw [h.document]
  cases hl : (a.document.node? id).bind NodeRecord.loc with
  | none =>
      rw [hl] at hf
      cases hf
  | some loc =>
      rw [hl] at hf
      dsimp only at hf ⊢
      cases hr : a.isReadable loc with
      | false =>
          rw [hr] at hf
          cases hf
      | true => rw [h.isReadable hr, if_pos rfl]

/-- An invariant that only asks for review keeps asking for it in the same words. -/
theorem invariantVerdict_eq {i : InvariantRecord} (hne : (a.invariantVerdict i).1 ≠ .fail) :
    a'.invariantVerdict i = a.invariantVerdict i := by
  unfold invariantVerdict at hne ⊢
  rw [h.document]
  split
  · rfl
  · rename_i hscope
    rw [if_neg hscope] at hne
    split
    · rfl
    · rename_i hdeclared
      rw [hdeclared] at hne
      dsimp only at hne
      cases hfiles : i.scope.filterMap a.missingFile? with
      | cons entry entries =>
          rw [hfiles] at hne
          exact absurd rfl hne
      | nil =>
          rw [List.filterMap_eq_nil_iff] at hfiles
          have hfiles' : i.scope.filterMap a'.missingFile? = [] :=
            List.filterMap_eq_nil_iff.mpr fun id hid => h.missingFile?_eq_none (hfiles id hid)
          rw [hfiles']

theorem invariantBlock_eq {i : InvariantRecord} {row : CheckRecord}
    (hrow : (a.invariantBlock i).records.head? = some row) (hne : row.status ≠ .fail) :
    (a'.invariantBlock i).records.head? = some row := by
  have hverdict : (a.invariantVerdict i).1 ≠ .fail := by
    cases hrow
    exact hne
  rw [← hrow]
  unfold invariantBlock
  rw [h.invariantVerdict_eq hverdict]

end SourcesGrow

end Audit

/-! ## Reports on grown sources -/

namespace Audit.SourcesGrow

variable {a a' : Audit} (h : a.SourcesGrow a')
include h

theorem recordsOf_nodes_ne_fail {id : String}
    (hne : ∀ row ∈ a.report.recordsOf .nodes id, row.status ≠ .fail) :
    ∀ row ∈ a'.report.recordsOf .nodes id, row.status ≠ .fail := by
  rw [recordsOf_nodes] at hne
  rw [recordsOf_nodes, h.document]
  cases hn : a.document.node? id with
  | none => simp
  | some n =>
      rw [hn] at hne
      exact h.nodeBlock_ne_fail hne

theorem edge_ne_fail {i : Nat} {row : CheckRecord}
    (hrow : (a.report.phaseRecords .edges)[i]? = some row) (hne : row.status ≠ .fail) :
    ∃ row', (a'.report.phaseRecords .edges)[i]? = some row' ∧ row'.status ≠ .fail := by
  rw [edge_record, Option.bind_eq_some_iff] at hrow
  obtain ⟨e, he, hrow⟩ := hrow
  rw [edge_record, h.document, he]
  exact h.edgeBlock_ne_fail hrow hne

theorem invariant_eq {i : Nat} {row : CheckRecord}
    (hrow : (a.report.phaseRecords .invariants)[i]? = some row) (hne : row.status ≠ .fail) :
    (a'.report.phaseRecords .invariants)[i]? = some row := by
  rw [invariant_record, Option.bind_eq_some_iff] at hrow
  obtain ⟨inv, hinv, hrow⟩ := hrow
  rw [invariant_record, h.document, hinv]
  exact h.invariantBlock_eq hrow hne

theorem phaseRecords_flows : a'.report.phaseRecords .flows = a.report.phaseRecords .flows := by
  rw [report_phaseRecords, report_phaseRecords]
  unfold phaseRecords blocks flowBlocks flowBlock
  rw [h.document]

/-- Both audits have a record at every place of an edge. -/
theorem exists_edge_record {i : Nat} {row' : CheckRecord}
    (hrow' : (a'.report.phaseRecords .edges)[i]? = some row') :
    ∃ row, (a.report.phaseRecords .edges)[i]? = some row := by
  rw [edge_record, h.document, Option.bind_eq_some_iff] at hrow'
  obtain ⟨e, he, -⟩ := hrow'
  obtain ⟨row, hrow, -⟩ := a.edgeBlock_records e
  refine ⟨row, ?_⟩
  rw [edge_record, he, Option.bind_some, hrow]
  rfl

theorem exists_invariant_record {i : Nat} {row' : CheckRecord}
    (hrow' : (a'.report.phaseRecords .invariants)[i]? = some row') :
    ∃ row, (a.report.phaseRecords .invariants)[i]? = some row := by
  rw [invariant_record, h.document, Option.bind_eq_some_iff] at hrow'
  obtain ⟨inv, hinv, -⟩ := hrow'
  obtain ⟨row, hrow, -⟩ := a.invariantBlock_records inv
  refine ⟨row, ?_⟩
  rw [invariant_record, hinv, Option.bind_some, hrow]
  rfl

/-- Phase by phase, a report without failures gets none. -/
theorem records_ne_fail (hne : ∀ row ∈ a.report.records, row.status ≠ .fail) :
    ∀ row ∈ a'.report.records, row.status ≠ .fail := by
  have hphase : ∀ phase, ∀ row ∈ a.report.phaseRecords phase, row.status ≠ .fail :=
    fun phase row hrow => hne row (List.mem_of_mem_filter hrow)
  intro row hrow
  have hmem : ∀ phase, row.phase = phase → row ∈ a'.report.phaseRecords phase :=
    fun phase hp => List.mem_filter.mpr ⟨hrow, by simpa using hp⟩
  -- Nodes are compared block by block, edges and invariants place by place.
  cases hp : row.phase with
  | nodes =>
      have hsubject : row ∈ a'.report.recordsOf .nodes row.subject :=
        List.mem_filter.mpr ⟨hrow, by simpa using hp⟩
      apply h.recordsOf_nodes_ne_fail _ row hsubject
      intro other hother
      exact hne other (List.mem_of_mem_filter hother)
  | edges =>
      obtain ⟨i, hi⟩ := List.mem_iff_getElem?.mp (hmem .edges hp)
      obtain ⟨old, hold⟩ := h.exists_edge_record hi
      obtain ⟨new, hnew, hstatus⟩ := h.edge_ne_fail hold (hphase .edges old (List.mem_of_getElem? hold))
      rw [hi] at hnew
      cases hnew
      exact hstatus
  | flows =>
      have hflow := hmem .flows hp
      rw [h.phaseRecords_flows] at hflow
      exact hphase .flows row hflow
  | invariants =>
      obtain ⟨i, hi⟩ := List.mem_iff_getElem?.mp (hmem .invariants hp)
      obtain ⟨old, hold⟩ := h.exists_invariant_record hi
      have hstatus := hphase .invariants old (List.mem_of_getElem? hold)
      have hnew := h.invariant_eq hold hstatus
      rw [hi] at hnew
      cases hnew
      exact hstatus

end Audit.SourcesGrow

/-- **Adding lines to sources breaks no contract.** -/
theorem added_lines_break_nothing {a a' : Audit} (h : a.SourcesGrow a') :
    a.report.KeptBy a'.report a.document where
  nodes := fun _ hne => h.recordsOf_nodes_ne_fail hne
  foreignKeys := by
    intro id k row hrow hc hp
    rw [Audit.recordsOf_nodes] at hrow
    rw [Audit.recordsOf_nodes, h.document]
    cases hn : a.document.node? id with
    | none =>
        rw [hn] at hrow
        cases hrow
    | some n =>
        rw [hn] at hrow
        exact h.nodeBlock_foreignKey hrow hc hp
  edges := fun _ _ hrow hne => h.edge_ne_fail hrow hne
  edgePasses := by
    intro i e row he hmethod _ hrow hp
    rw [Audit.edge_record, he] at hrow
    rw [Audit.edge_record, h.document, he]
    exact h.edgeBlock_of_pass (NodeId.name_ne_empty_of_methodName hmethod) hrow hp
  flows := h.phaseRecords_flows
  invariants := by
    intro i row hrow hw
    apply h.invariant_eq hrow
    rw [hw]
    decide
  exitCode := by
    intro hexit
    have hne := (exitCode_eq_zero_iff _ _ _).mp hexit
    exact (exitCode_eq_zero_iff _ _ _).mpr (h.records_ne_fail hne)

/-- A map of one event that emits itself, in a project of one file. -/
def oneEventIn (text : String) : Audit where
  sources := .ofList [(⟨"a.ts"⟩, some text)]
  document :=
    { nodes := .ofList [("event:x", { loc := some "a.ts" })]
      edges := [{ source := "event:x", target := "event:x", rel := "emits" }] }
  root := ⟨""⟩

theorem read_oneEventIn {text t : String} {p : FilePath}
    (h : (oneEventIn text).sources.read p = .ok t) :
    t = text ∧ ∀ text', (oneEventIn text').sources.read p = .ok text' := by
  by_cases hp : (⟨"a.ts"⟩ : FilePath).components = p.components
  · have hread : ∀ text', (oneEventIn text').sources.read p = .ok text' := by
      intro text'
      simp [oneEventIn, Sources.ofList, Sources.lookup, hp]
    rw [hread] at h
    exact ⟨(Except.ok.inj h).symm, hread⟩
  · simp [oneEventIn, Sources.ofList, Sources.lookup, hp] at h

/-- The file ends in a line feed and grows at both ends; the literal is still found. -/
theorem event_kept_by_added_lines :
    (oneEventIn "'x'\n").SourcesGrow (oneEventIn "new\n'x'\nmore") ∧
      (oneEventIn "'x'\n").report.KeptBy (oneEventIn "new\n'x'\nmore").report
        (oneEventIn "'x'\n").document ∧
      (oneEventIn "'x'\n").report.exitCode = 0 := by
  have hgrows : (oneEventIn "'x'\n").sources.GrowsTo (oneEventIn "new\n'x'\nmore").sources := by
    constructor
    case returnFree =>
      intro p t ht
      rw [(read_oneEventIn ht).1]
      unfold ReturnFree
      decide
    case returnFree' =>
      intro p t ht
      rw [(read_oneEventIn ht).1]
      unfold ReturnFree
      decide
    case readable =>
      intro p hr
      simpa [oneEventIn, Sources.ofList, Sources.lookup] using hr
    case read =>
      intro p t ht
      obtain ⟨rfl, hread⟩ := read_oneEventIn ht
      exact ⟨_, hread _, ['n', 'e', 'w', '\n'], ['m', 'o', 'r', 'e'], by decide,
        Or.inr (by decide), Or.inr (by decide)⟩
  have h : (oneEventIn "'x'\n").SourcesGrow (oneEventIn "new\n'x'\nmore") := ⟨rfl, rfl, hgrows⟩
  exact ⟨h, added_lines_break_nothing h, by decide⟩

end ContractAudit
