import ContractAudit.Proofs.Audit.Footprint
import ContractAudit.Proofs.Audit.ReportStructure
import ContractAudit.Proofs.Flow.References

/-!
# The impact of a node is complete

An audit looks at the nodes of a map in many places: at both ends of an edge, at the schema of its
target, at every id of a flow and of a scope. The impact query visits none of these checks and
reads the map on its own. That it forgets none of them is shown here: when a node is taken out of a
map or its record is rewritten, the records that change belong to elements that the query lists.

The argument goes by what an element sees (`Audit.edgeBlock_congr` and its companions): an edit at
one id leaves what is seen of every other id as it was.
-/

namespace ContractAudit

/-! ## Edits of one node -/

/-- An edit of a declared node: it is taken out, or another record takes its place. -/
inductive NodeEdit where
  | remove
  | rewrite (node : NodeRecord)

namespace Document

/-- The map after an edit of a node. All other nodes keep their place. -/
def edited (d : Document) (id : String) : NodeEdit → Document
  | .remove => { d with nodes := d.nodes.erase id }
  | .rewrite node => { d with nodes := d.nodes.insert id node }

theorem others_edited (d : Document) (id : String) (edit : NodeEdit) :
    ((d.edited id edit).nodes.entries.filter fun e => e.1 != id) =
      d.nodes.entries.filter fun e => e.1 != id := by
  cases edit with
  | remove =>
      show ((d.nodes.entries.filter _).filter _) = _
      rw [List.filter_filter]
      simp
  | rewrite node => exact Registry.filter_insertEntry id node d.nodes.entries

theorem node?_edited {d : Document} {id other : String} (edit : NodeEdit) (h : other ≠ id) :
    (d.edited id edit).node? other = d.node? other :=
  Registry.get?_eq_of_filter_eq h (d.others_edited id edit)

@[simp] theorem edges_edited (d : Document) (id : String) (edit : NodeEdit) :
    (d.edited id edit).edges = d.edges := by cases edit <;> rfl

@[simp] theorem flows_edited (d : Document) (id : String) (edit : NodeEdit) :
    (d.edited id edit).flows = d.flows := by cases edit <;> rfl

@[simp] theorem invariants_edited (d : Document) (id : String) (edit : NodeEdit) :
    (d.edited id edit).invariants = d.invariants := by cases edit <;> rfl

@[simp] theorem metadata_edited (d : Document) (id : String) (edit : NodeEdit) :
    (d.edited id edit).metadata = d.metadata := by cases edit <;> rfl

/-! ## What the query lists -/

theorem mem_outgoing {d : Document} {e : EdgeRecord} (he : e ∈ d.edges) :
    e.impact ∈ (d.edgesFrom e.source).map EdgeRecord.impact :=
  List.mem_map_of_mem (List.mem_filter.mpr ⟨he, by simp⟩)

theorem mem_incoming {d : Document} {e : EdgeRecord} (he : e ∈ d.edges) :
    e.impact ∈ (d.edgesTo e.target).map EdgeRecord.impact :=
  List.mem_map_of_mem (List.mem_filter.mpr ⟨he, by simp⟩)

/-- A flow that refers to a node is listed under its name. -/
theorem exists_mem_flowsOf {d : Document} {id name : String} {f : FlowRecord}
    (hf : (name, f) ∈ d.flows.entries) (hid : id ∈ f.references) :
    ∃ listed ∈ d.flowsOf id, listed.name = name := by
  refine ⟨⟨name, f.trigger, f.rolesOf id⟩, ?_, rfl⟩
  unfold flowsOf
  rw [List.mem_filterMap]
  refine ⟨(name, f), hf, ?_⟩
  cases hroles : f.rolesOf id with
  | nil => exact absurd hid (FlowRecord.rolesOf_eq_nil_iff.mp hroles)
  | cons role roles => simp [hroles]

theorem mem_spanning {d : Document} {id : String} {i : InvariantRecord} (hi : i ∈ d.invariants)
    (hid : id ∈ i.scope) :
    i.impact ∈ (d.invariants.filter (·.scope.contains id)).map InvariantRecord.impact :=
  List.mem_map_of_mem (List.mem_filter.mpr ⟨hi, by simpa using hid⟩)

end Document

/-! ## What an edit leaves alone -/

namespace Audit

/-- The audit of a map in which one node was edited, with the same sources. -/
def edited (a : Audit) (id : String) (edit : NodeEdit) : Audit :=
  { a with document := a.document.edited id edit }

variable {a : Audit} {id : String} {edit : NodeEdit}

theorem sameGround_edited : SameGround a (a.edited id edit) where
  sources := rfl
  root := rfl
  mapRoot := by
    show (a.document.edited id edit).metadata.root = _
    rw [Document.metadata_edited]

theorem nodeRecords_edited :
    ((a.edited id edit).report.phaseRecords .nodes).filter (·.subject ≠ id) =
      (a.report.phaseRecords .nodes).filter (·.subject ≠ id) := by
  rw [nodeRecords_others, nodeRecords_others, sameGround_edited.nodeBlock_eq]
  show (((a.document.edited id edit).nodes.entries.filter _).flatMap _) = _
  rw [Document.others_edited]

theorem edgeBlock_edited {e : EdgeRecord} (hs : e.source ≠ id) (ht : e.target ≠ id) :
    (a.edited id edit).edgeBlock e = a.edgeBlock e :=
  edgeBlock_congr (sameGround_edited.sourceSeen_eq (Document.node?_edited edit hs))
    (SameGround.schemaSeen_eq (Document.node?_edited edit ht))

theorem flowBlock_edited {name : String} {f : FlowRecord} (h : id ∉ f.references) :
    (a.edited id edit).flowBlock name f = a.flowBlock name f := by
  apply flowBlock_congr
  intro other hother
  have hne : other ≠ id := fun heq => h (heq ▸ hother)
  rw [declares_eq, declares_eq]
  exact congrArg Option.isSome (Document.node?_edited edit hne)

theorem invariantBlock_edited {i : InvariantRecord} (h : id ∉ i.scope) :
    (a.edited id edit).invariantBlock i = a.invariantBlock i := by
  apply invariantBlock_congr
  intro other hother
  have hne : other ≠ id := fun heq => h (heq ▸ hother)
  exact sameGround_edited.fileSeen_eq (Document.node?_edited edit hne)

theorem edge_record_edited {i : Nat}
    (h : ((a.edited id edit).report.phaseRecords .edges)[i]? ≠ (a.report.phaseRecords .edges)[i]?) :
    ∃ e, a.document.edges[i]? = some e ∧ (e.source = id ∨ e.target = id) := by
  rw [edge_record, edge_record] at h
  have hedges : (a.edited id edit).document.edges = a.document.edges :=
    Document.edges_edited ..
  rw [hedges] at h
  cases he : a.document.edges[i]? with
  | none =>
      rw [he] at h
      exact absurd rfl h
  | some e =>
      refine ⟨e, rfl, ?_⟩
      -- An edge with both ends elsewhere sees nothing of the edit.
      by_contra hends
      rw [not_or] at hends
      rw [he, Option.bind_some, Option.bind_some, edgeBlock_edited hends.1 hends.2] at h
      exact h rfl

theorem invariant_record_edited {i : Nat}
    (h : ((a.edited id edit).report.phaseRecords .invariants)[i]? ≠
      (a.report.phaseRecords .invariants)[i]?) :
    ∃ inv, a.document.invariants[i]? = some inv ∧ id ∈ inv.scope := by
  rw [invariant_record, invariant_record] at h
  have hinvariants : (a.edited id edit).document.invariants = a.document.invariants :=
    Document.invariants_edited ..
  rw [hinvariants] at h
  cases hi : a.document.invariants[i]? with
  | none =>
      rw [hi] at h
      exact absurd rfl h
  | some inv =>
      refine ⟨inv, rfl, ?_⟩
      by_contra hscope
      rw [hi, Option.bind_some, Option.bind_some, invariantBlock_edited hscope] at h
      exact h rfl

theorem flow_records_edited {name : String}
    (h : (a.edited id edit).report.recordsOf .flows name ≠ a.report.recordsOf .flows name) :
    ∃ f, (name, f) ∈ a.document.flows.entries ∧ id ∈ f.references := by
  rw [recordsOf_flows, recordsOf_flows] at h
  have hflows : (a.edited id edit).document.flows = a.document.flows := Document.flows_edited ..
  rw [hflows] at h
  cases hf : a.document.flows.get? name with
  | none =>
      rw [hf] at h
      exact absurd rfl h
  | some f =>
      refine ⟨f, Registry.mem_of_get? hf, ?_⟩
      by_contra hid
      rw [hf, Option.map_some, Option.map_some, flowBlock_edited hid] at h
      exact h rfl

/-- If no flow refers to a node, the whole phase stays. -/
theorem flowPhase_edited (h : ∀ e ∈ a.document.flows.entries, id ∉ e.2.references) :
    (a.edited id edit).report.phaseRecords .flows = a.report.phaseRecords .flows := by
  rw [report_phaseRecords, report_phaseRecords]
  have hflows : (a.edited id edit).document.flows = a.document.flows := Document.flows_edited ..
  unfold phaseRecords blocks flowBlocks
  rw [hflows, List.flatMap_map, List.flatMap_map]
  apply List.flatMap_congr
  intro e he
  exact congrArg Block.records (flowBlock_edited (h e he))

/-! ## What an edit changes is listed -/

/-- An edge whose record changes is listed at the end where the edit was made. -/
theorem edge_listed {i : Nat}
    (h : ((a.edited id edit).report.phaseRecords .edges)[i]? ≠ (a.report.phaseRecords .edges)[i]?) :
    ∃ e, a.document.edges[i]? = some e ∧
      ((e.source = id ∧ e.impact ∈ (a.document.edgesFrom id).map EdgeRecord.impact) ∨
        (e.target = id ∧ e.impact ∈ (a.document.edgesTo id).map EdgeRecord.impact)) := by
  obtain ⟨e, he, hend⟩ := edge_record_edited h
  have hmem := List.mem_of_getElem? he
  refine ⟨e, he, ?_⟩
  rcases hend with rfl | rfl
  · exact Or.inl ⟨rfl, Document.mem_outgoing hmem⟩
  · exact Or.inr ⟨rfl, Document.mem_incoming hmem⟩

theorem flow_listed {name : String}
    (h : (a.edited id edit).report.recordsOf .flows name ≠ a.report.recordsOf .flows name) :
    ∃ f ∈ a.document.flowsOf id, f.name = name := by
  obtain ⟨f, hf, href⟩ := flow_records_edited h
  exact Document.exists_mem_flowsOf hf href

theorem invariant_listed {i : Nat}
    (h : ((a.edited id edit).report.phaseRecords .invariants)[i]? ≠
      (a.report.phaseRecords .invariants)[i]?) :
    ∃ inv, a.document.invariants[i]? = some inv ∧ id ∈ inv.scope ∧
      inv.impact ∈
        (a.document.invariants.filter (·.scope.contains id)).map InvariantRecord.impact := by
  obtain ⟨inv, hinv, hscope⟩ := invariant_record_edited h
  exact ⟨inv, hinv, hscope, Document.mem_spanning (List.mem_of_getElem? hinv) hscope⟩

/-- Where nothing is listed, nothing but the node itself changes. -/
theorem phaseRecords_edited_of_isolated {phase : Phase} (hphase : phase ≠ .nodes)
    (hout : (a.document.edgesFrom id).map EdgeRecord.impact = [])
    (hin : (a.document.edgesTo id).map EdgeRecord.impact = [])
    (hflows : a.document.flowsOf id = [])
    (hinv : (a.document.invariants.filter (·.scope.contains id)).map InvariantRecord.impact = []) :
    (a.edited id edit).report.phaseRecords phase = a.report.phaseRecords phase := by
  cases phase with
  | nodes => exact absurd rfl hphase
  | edges =>
      apply List.ext_getElem?
      intro i
      by_contra hne
      obtain ⟨e, -, hlisted⟩ := edge_listed hne
      rw [hout, hin] at hlisted
      simp at hlisted
  | flows =>
      apply flowPhase_edited
      intro e he href
      obtain ⟨listed, hmem, -⟩ := Document.exists_mem_flowsOf he href
      rw [hflows] at hmem
      exact absurd hmem List.not_mem_nil
  | invariants =>
      apply List.ext_getElem?
      intro i
      by_contra hne
      obtain ⟨inv, -, -, hlisted⟩ := invariant_listed hne
      rw [hinv] at hlisted
      exact absurd hlisted List.not_mem_nil

end Audit

/-! ## Completeness -/

/-- The query for a node lists whatever differs between the reports of two audits, the records
about the node itself apart. -/
structure ImpactReport.Covers (r : ImpactReport) (id : String) (a a' : Audit) : Prop where
  others : (a'.report.phaseRecords .nodes).filter (·.subject ≠ id) =
    (a.report.phaseRecords .nodes).filter (·.subject ≠ id)
  edges : ∀ i : Nat, (a'.report.phaseRecords .edges)[i]? ≠ (a.report.phaseRecords .edges)[i]? →
    ∃ e : EdgeRecord, a.document.edges[i]? = some e ∧
      ((e.source = id ∧ e.impact ∈ r.outgoing) ∨ (e.target = id ∧ e.impact ∈ r.incoming))
  flows : ∀ name, a'.report.recordsOf .flows name ≠ a.report.recordsOf .flows name →
    ∃ f ∈ r.flows, f.name = name
  invariants : ∀ i : Nat,
    (a'.report.phaseRecords .invariants)[i]? ≠ (a.report.phaseRecords .invariants)[i]? →
    ∃ inv : InvariantRecord, a.document.invariants[i]? = some inv ∧ id ∈ inv.scope ∧
      inv.impact ∈ r.invariants
  isolated : r.isIsolated = true → ∀ phase, phase ≠ .nodes →
    a'.report.phaseRecords phase = a.report.phaseRecords phase

/-- **Impact is complete.** When a declared node is taken out or rewritten, the records about the
other nodes stay; the record of an edge, the records of a flow and the record of an invariant
change only if the query for the node lists the edge at one of its ends, the flow, or the
invariant; and if the query finds the node isolated, no such record changes. -/
theorem impact_complete (a : Audit) (id : String) (edit : NodeEdit)
    (hid : a.document.declares id = true) :
    ∃ r, a.document.impact id = .found r ∧ r.Covers id a (a.edited id edit) := by
  rw [Audit.declares_eq, Option.isSome_iff_exists] at hid
  obtain ⟨node, hnode⟩ := hid
  refine ⟨_, by unfold Document.impact; rw [hnode], ?_⟩
  constructor
  case others => exact Audit.nodeRecords_edited
  case edges => exact fun _ h => Audit.edge_listed h
  case flows => exact fun _ h => Audit.flow_listed h
  case invariants => exact fun _ h => Audit.invariant_listed h
  case isolated =>
    intro h phase hphase
    simp only [ImpactReport.isIsolated, Bool.and_eq_true, List.isEmpty_iff] at h
    obtain ⟨⟨⟨hout, hin⟩, hflows⟩, hinv⟩ := h
    exact Audit.phaseRecords_edited_of_isolated hphase hout hin hflows hinv

/-- A map with a node that is spelled like the end of a flow, and a flow that runs over it. -/
def nodeNamedDone : Audit where
  sources := .ofList []
  document :=
    { nodes := .ofList [("DONE", {})]
      flows := .ofList [("f", { steps := [{ node := "DONE", next := .target "DONE" }] })] }
  root := ⟨""⟩

/-- The step refers to the node and the word behind it does not; without the node the flow fails,
and the query says so. -/
theorem impact_of_node_named_done :
    nodeNamedDone.document.declares "DONE" = true ∧
      (nodeNamedDone.edited "DONE" .remove).report.recordsOf .flows "f" ≠
        nodeNamedDone.report.recordsOf .flows "f" ∧
      ∃ r, nodeNamedDone.document.impact "DONE" = .found r ∧
        r.Covers "DONE" nodeNamedDone (nodeNamedDone.edited "DONE" .remove) :=
  ⟨by decide, by decide, impact_complete nodeNamedDone "DONE" .remove (by decide)⟩

end ContractAudit
