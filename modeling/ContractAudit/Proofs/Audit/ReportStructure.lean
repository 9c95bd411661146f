import ContractAudit.Audit.Run
import Mathlib.Data.List.Forall2

/-!
# The structure of a report

Every element of a map contributes one contiguous block of records, in the order of the document,
and each phase keeps to its own part of the report. What a block may look like depends on the
element alone: `IsNodeBlock` and `IsFlowBlock` say it for nodes and flows, edges and invariants
contribute a single record. The shapes are shown block by block and then put together over the
document (`report_structure`).

A report can also be read back: the records of one phase (`Report.phaseRecords`), and of one
subject in it (`Report.recordsOf`). Since ids are unique these are the blocks again
(`recordsOf_nodes`, `recordsOf_flows`), which is how statements about two reports are brought down
to two blocks.
-/

namespace ContractAudit

/-- The records that a phase made about a subject. -/
def Report.recordsOf (r : Report) (phase : Phase) (subject : String) : List CheckRecord :=
  r.records.filter fun row => row.phase = phase ∧ row.subject = subject

/-- The records that one check made about a subject. -/
def Report.checksOf (r : Report) (phase : Phase) (subject check : String) : List CheckRecord :=
  (r.recordsOf phase subject).filter (·.check = check)

/-! ## Shapes of blocks -/

/-- The record was made by this phase, about this subject. -/
def CheckRecord.IsAbout (r : CheckRecord) (phase : Phase) (subject : String) : Prop :=
  r.phase = phase ∧ r.subject = subject

/-- What a node contributes: its `exists` record, and behind it records of other checks. -/
structure IsNodeBlock (id : String) (rs : List CheckRecord) : Prop where
  about : ∀ r ∈ rs, r.IsAbout .nodes id
  existsFirst : ∃ head rest, rs = head :: rest ∧ head.check = "exists" ∧
    ∀ r ∈ rest, r.check ≠ "exists"

/-- What a flow contributes: its `existence` record, and behind it either a single `reachability`
record that passes or `reachability` warnings, at least one. -/
structure IsFlowBlock (name : String) (rs : List CheckRecord) : Prop where
  about : ∀ r ∈ rs, r.IsAbout .flows name
  existenceFirst : ∃ head arms, rs = head :: arms ∧ head.check = "existence" ∧
    (∀ r ∈ arms, r.check = "reachability") ∧
    ((∃ r, arms = [r] ∧ r.status = .pass) ∨ (arms ≠ [] ∧ ∀ r ∈ arms, r.status = .warn))

@[simp] theorem located_check (r : CheckRecord) (file : String) (line : Option Nat) :
    (r.located file line).check = r.check := rfl

@[simp] theorem located_status (r : CheckRecord) (file : String) (line : Option Nat) :
    (r.located file line).status = r.status := rfl

@[simp] theorem isAbout_located {r : CheckRecord} {phase : Phase} {subject file : String}
    {line : Option Nat} : (r.located file line).IsAbout phase subject ↔ r.IsAbout phase subject :=
  Iff.rfl

@[simp] theorem nodeRecord_check (id check : String) (status : Status) (message : String) :
    (nodeRecord id check status message).check = check := rfl

@[simp] theorem nodeRecord_status (id check : String) (status : Status) (message : String) :
    (nodeRecord id check status message).status = status := rfl

@[simp] theorem isAbout_nodeRecord (id check : String) (status : Status) (message : String) :
    (nodeRecord id check status message).IsAbout .nodes id := ⟨rfl, rfl⟩

@[simp] theorem edgeRecord_status (e : EdgeRecord) (status : Status) (message : String) :
    (edgeRecord e status message).status = status := rfl

/-- A block of one `exists` record. -/
theorem isNodeBlock_singleton {id : String} {r : CheckRecord} (h : r.IsAbout .nodes id)
    (hc : r.check = "exists") : IsNodeBlock id [r] where
  about := by simpa using h
  existsFirst := ⟨r, [], rfl, hc, by simp⟩

/-- An `exists` record and further records about the same node. -/
theorem isNodeBlock_cons {id : String} {r : CheckRecord} {rs : List CheckRecord}
    (h : r.IsAbout .nodes id) (hc : r.check = "exists")
    (hrs : ∀ x ∈ rs, x.IsAbout .nodes id ∧ x.check ≠ "exists") : IsNodeBlock id (r :: rs) where
  about := by
    intro x hx
    rcases List.mem_cons.mp hx with rfl | hx
    · exact h
    · exact (hrs x hx).1
  existsFirst := ⟨r, rs, rfl, hc, fun x hx => (hrs x hx).2⟩

/-! ## The block of a node -/

theorem NodeKind.exists_of_isCustom : ∀ {kind : NodeKind}, kind.isCustom = true →
    ∃ name, kind = .custom name
  | .custom name, _ => ⟨name, rfl⟩

namespace SourceFile

@[simp] theorem existence_isAbout (f : SourceFile) (id what : String) (ev : Evidence) :
    (f.existence id what ev).IsAbout .nodes id := ⟨rfl, rfl⟩

@[simp] theorem existence_check (f : SourceFile) (id what : String) (ev : Evidence) :
    (f.existence id what ev).check = "exists" := rfl

theorem endpointExistence_isAbout (f : SourceFile) (id name : String) :
    (f.endpointExistence id name).IsAbout .nodes id := by
  unfold endpointExistence
  dsimp only
  split
  · simp
  · split <;> simp

theorem endpointExistence_check (f : SourceFile) (id name : String) :
    (f.endpointExistence id name).check = "exists" := by
  unfold endpointExistence
  dsimp only
  split
  · simp
  · split <;> simp

theorem mem_valueRecords {f : SourceFile} {id : String} {values : List String} {r : CheckRecord}
    (h : r ∈ f.valueRecords id values) : r.IsAbout .nodes id ∧ r.check = "values" := by
  unfold valueRecords at h
  split at h
  · simp at h
  · rw [List.mem_singleton] at h
    subst h
    simp
  · obtain ⟨v, -, rfl⟩ := List.mem_map.mp h
    simp

theorem mem_schemaRecords {f : SourceFile} {id : String} {schema : Option String} {r : CheckRecord}
    (h : r ∈ f.schemaRecords id schema) : r.IsAbout .nodes id ∧ r.check = "schema" := by
  unfold schemaRecords at h
  split at h
  · simp at h
  · dsimp only at h
    rw [List.mem_singleton] at h
    subst h
    simp

theorem foreignKeyRecord_isAbout (f : SourceFile) (id entry : String) :
    (f.foreignKeyRecord id entry).IsAbout .nodes id ∧
      (f.foreignKeyRecord id entry).check = "fk" := by
  unfold foreignKeyRecord
  dsimp only
  simp

/-- The `exists` record of a node. Custom kinds are settled before any file is read, so their case
is void. -/
def existsRecord (f : SourceFile) (id : String) (kind : NodeKind) : CheckRecord :=
  let name := (NodeId.ofString id).name
  if name.isEmpty then
    (nodeRecord id "exists" .fail "node id has no identifier after the kind prefix").located
      f.display f.line
  else match kind with
    | .type => f.typeExistence id name
    | .method => f.methodExistence id (NodeId.ofString id).methodName
    | .table => f.tableExistence id name
    | .endpoint => f.endpointExistence id name
    | .event | .custom _ => f.eventExistence id name

/-- The records of all other checks of a node. -/
def furtherRecords (f : SourceFile) (id : String) (node : NodeRecord) (kind : NodeKind) :
    List CheckRecord :=
  if (NodeId.ofString id).name.isEmpty then []
  else match kind with
    | .type => f.valueRecords id node.values ++ f.schemaRecords id node.schema
    | .table => node.fk.map (f.foreignKeyRecord id)
    | _ => []

/-- Existence comes first, whatever the kind. -/
theorem nodeRecords_eq (f : SourceFile) (id : String) (node : NodeRecord) {kind : NodeKind}
    (hk : kind.isCustom = false) :
    f.nodeRecords id node kind = f.existsRecord id kind :: f.furtherRecords id node kind := by
  unfold nodeRecords existsRecord furtherRecords
  dsimp only
  split
  · rfl
  · cases kind with
    | custom name => cases hk
    | _ => rfl

theorem existsRecord_isAbout (f : SourceFile) (id : String) (kind : NodeKind) :
    (f.existsRecord id kind).IsAbout .nodes id := by
  unfold existsRecord
  dsimp only
  split
  · simp
  · cases kind with
    | endpoint => exact endpointExistence_isAbout ..
    | _ => exact existence_isAbout ..

theorem existsRecord_check (f : SourceFile) (id : String) (kind : NodeKind) :
    (f.existsRecord id kind).check = "exists" := by
  unfold existsRecord
  dsimp only
  split
  · simp
  · cases kind with
    | endpoint => exact endpointExistence_check ..
    | _ => exact existence_check ..

/-- Types are checked for values and schemas, tables for foreign keys, and others for nothing. -/
theorem mem_furtherRecords {f : SourceFile} {id : String} {node : NodeRecord} {kind : NodeKind}
    {r : CheckRecord} (h : r ∈ f.furtherRecords id node kind) :
    r.IsAbout .nodes id ∧ (r.check = "values" ∨ r.check = "schema" ∨ r.check = "fk") := by
  unfold furtherRecords at h
  split at h
  · cases h
  · cases kind with
    | type =>
        rcases List.mem_append.mp h with hr | hr
        · exact ⟨(mem_valueRecords hr).1, Or.inl (mem_valueRecords hr).2⟩
        · exact ⟨(mem_schemaRecords hr).1, Or.inr (Or.inl (mem_schemaRecords hr).2)⟩
    | table =>
        obtain ⟨entry, -, rfl⟩ := List.mem_map.mp h
        have hf := f.foreignKeyRecord_isAbout id entry
        exact ⟨hf.1, Or.inr (Or.inr hf.2)⟩
    | _ => cases h

theorem furtherRecords_check_ne {f : SourceFile} {id : String} {node : NodeRecord}
    {kind : NodeKind} {r : CheckRecord} (h : r ∈ f.furtherRecords id node kind) :
    r.check ≠ "exists" := by
  rcases (mem_furtherRecords h).2 with hc | hc | hc
  all_goals
    rw [hc]
    decide

theorem nodeRecords_isNodeBlock (f : SourceFile) (id : String) (node : NodeRecord)
    {kind : NodeKind} (hk : kind.isCustom = false) : IsNodeBlock id (f.nodeRecords id node kind) := by
  rw [nodeRecords_eq f id node hk]
  apply isNodeBlock_cons (f.existsRecord_isAbout id kind) (f.existsRecord_check id kind)
  intro r hr
  exact ⟨(mem_furtherRecords hr).1, furtherRecords_check_ne hr⟩

end SourceFile

namespace Audit

theorem customExistence_isAbout (a : Audit) (id kind : String) (node : NodeRecord) :
    (a.customExistence id kind node).IsAbout .nodes id := by
  unfold customExistence
  split
  · simp
  · dsimp only
    split <;> simp

theorem customExistence_check (a : Audit) (id kind : String) (node : NodeRecord) :
    (a.customExistence id kind node).check = "exists" := by
  unfold customExistence
  split
  · simp
  · dsimp only
    split <;> simp

/-- The record of a node without a source to look into. -/
def faultRecord (id : String) : SourceFault → CheckRecord
  | .noLocation => nodeRecord id "exists" .fail "no loc declared"
  | .unreadable u =>
    (nodeRecord id "exists" .fail ("file not found: " ++ u.shown)).located u.shown none

@[simp] theorem faultRecord_isAbout (id : String) (fault : SourceFault) :
    (faultRecord id fault).IsAbout .nodes id := by
  cases fault <;> exact ⟨rfl, rfl⟩

@[simp] theorem faultRecord_check (id : String) (fault : SourceFault) :
    (faultRecord id fault).check = "exists" := by
  cases fault <;> rfl

@[simp] theorem faultRecord_status (id : String) (fault : SourceFault) :
    (faultRecord id fault).status = .fail := by
  cases fault <;> rfl

/-! A node of a custom kind is settled by its location, any other by its source. -/

section

variable {a : Audit} {id : String} {node : NodeRecord}

theorem nodeBlock_records_of_custom {kind : String}
    (h : Document.kindOf id (some node) = .custom kind) :
    (a.nodeBlock id node).records = [a.customExistence id kind node] := by
  unfold nodeBlock
  rw [h]

theorem nodeBlock_records_of_error {fault : SourceFault}
    (h : (Document.kindOf id (some node)).isCustom = false) (hs : a.source node = .error fault) :
    (a.nodeBlock id node).records = [faultRecord id fault] := by
  unfold nodeBlock
  split
  · rename_i kind hk
    rw [hk] at h
    cases h
  · rw [hs]
    cases fault <;> rfl

theorem nodeBlock_records_of_ok {file : SourceFile}
    (h : (Document.kindOf id (some node)).isCustom = false) (hs : a.source node = .ok file) :
    (a.nodeBlock id node).records =
      file.nodeRecords id node (Document.kindOf id (some node)) := by
  unfold nodeBlock
  split
  · rename_i kind hk
    rw [hk] at h
    cases h
  · rw [hs]

end

/-- **A node contributes its `exists` record first**, whatever its kind and its file. -/
theorem nodeBlock_isNodeBlock (a : Audit) (id : String) (node : NodeRecord) :
    IsNodeBlock id (a.nodeBlock id node).records := by
  cases hc : (Document.kindOf id (some node)).isCustom with
  | true =>
      obtain ⟨kind, hk⟩ := NodeKind.exists_of_isCustom hc
      rw [nodeBlock_records_of_custom hk]
      exact isNodeBlock_singleton (a.customExistence_isAbout ..) (a.customExistence_check ..)
  | false =>
      cases hs : a.source node with
      | error fault =>
          rw [nodeBlock_records_of_error hc hs]
          exact isNodeBlock_singleton (faultRecord_isAbout ..) (faultRecord_check ..)
      | ok file =>
          rw [nodeBlock_records_of_ok hc hs]
          exact file.nodeRecords_isNodeBlock id node hc

/-! ## The blocks of edges, flows and invariants -/

/-- An edge contributes one record, named after the edge. -/
theorem edgeBlock_records (a : Audit) (e : EdgeRecord) :
    ∃ r, (a.edgeBlock e).records = [r] ∧ r.IsAbout .edges e.label := by
  unfold edgeBlock
  split
  · unfold declaredEdgeBlock
    split
    · exact ⟨_, rfl, rfl, rfl⟩
    · exact ⟨_, rfl, rfl, rfl⟩
    · exact ⟨_, rfl, rfl, rfl⟩
  · exact ⟨_, rfl, rfl, rfl⟩

/-- The record of an edge without a source to look into. -/
def edgeFaultRecord (e : EdgeRecord) : SourceFault → CheckRecord
  | .noLocation =>
    edgeRecord e .fail ("source file not found: " ++ e.source ++ " declares no loc")
  | .unreadable u =>
    (edgeRecord e .fail ("source file not found: " ++ u.shown)).located u.shown none

@[simp] theorem edgeFaultRecord_status (e : EdgeRecord) (fault : SourceFault) :
    (edgeFaultRecord e fault).status = .fail := by
  cases fault <;> rfl

/-! An edge with declared ends is settled by the source of the node it leaves, any other fails. -/

section

variable {a : Audit} {e : EdgeRecord} {source target : NodeRecord}

theorem edgeBlock_records_of_error {fault : SourceFault}
    (hsource : a.document.node? e.source = some source)
    (htarget : a.document.node? e.target = some target) (hf : a.source source = .error fault) :
    (a.edgeBlock e).records = [edgeFaultRecord e fault] := by
  unfold edgeBlock
  rw [hsource, htarget]
  dsimp only
  unfold declaredEdgeBlock
  rw [hf]
  cases fault <;> rfl

theorem edgeBlock_records_of_ok {f : SourceFile}
    (hsource : a.document.node? e.source = some source)
    (htarget : a.document.node? e.target = some target) (hf : a.source source = .ok f) :
    (a.edgeBlock e).records = [(edgeRecord e (f.edgeVerdict e target.schema).1
      (f.edgeVerdict e target.schema).2).located f.display none] := by
  unfold edgeBlock
  rw [hsource, htarget]
  dsimp only
  unfold declaredEdgeBlock
  rw [hf]

theorem edgeBlock_cases (a : Audit) (e : EdgeRecord) :
    (∃ source target, a.document.node? e.source = some source ∧
      a.document.node? e.target = some target) ∨
    (a.edgeBlock e).records = [edgeRecord e .fail (Text.joinWith "; " (a.missingEnds e))] := by
  cases hs : a.document.node? e.source with
  | none =>
      right
      unfold edgeBlock
      rw [hs]
  | some source =>
      cases ht : a.document.node? e.target with
      | none =>
          right
          unfold edgeBlock
          rw [hs, ht]
      | some target => exact Or.inl ⟨source, target, rfl, rfl⟩

end

/-- An invariant contributes one record, named after the invariant. -/
theorem invariantBlock_records (a : Audit) (i : InvariantRecord) :
    ∃ r, (a.invariantBlock i).records = [r] ∧ r.IsAbout .invariants i.id :=
  ⟨_, rfl, rfl, rfl⟩

theorem existence_isAbout_flows (f : FlowRecord) (name : String) (declared : String → Bool) :
    (f.existence name declared).IsAbout .flows name ∧
      (f.existence name declared).check = "existence" := by
  unfold FlowRecord.existence
  split
  · exact ⟨⟨rfl, rfl⟩, rfl⟩
  · exact ⟨⟨rfl, rfl⟩, rfl⟩

theorem mem_reachability {f : FlowRecord} {name : String} {r : CheckRecord}
    (h : r ∈ f.reachability name) : r.IsAbout .flows name ∧ r.check = "reachability" := by
  unfold FlowRecord.reachability at h
  split at h
  · rw [List.mem_singleton] at h
    subst h
    exact ⟨⟨rfl, rfl⟩, rfl⟩
  · obtain ⟨arm, -, rfl⟩ := List.mem_map.mp h
    exact ⟨⟨rfl, rfl⟩, rfl⟩

/-- The arms of a flow are settled by one pass, or by warnings alone. -/
theorem reachability_statuses (f : FlowRecord) (name : String) :
    (∃ r, f.reachability name = [r] ∧ r.status = .pass) ∨
      (f.reachability name ≠ [] ∧ ∀ r ∈ f.reachability name, r.status = .warn) := by
  unfold FlowRecord.reachability
  split
  · exact Or.inl ⟨_, rfl, rfl⟩
  · rename_i hne
    right
    constructor
    · intro h
      exact hne (List.map_eq_nil_iff.mp h)
    · intro r hr
      obtain ⟨arm, -, rfl⟩ := List.mem_map.mp hr
      rfl

theorem flowBlock_isFlowBlock (a : Audit) (name : String) (f : FlowRecord) :
    IsFlowBlock name (a.flowBlock name f).records where
  about := by
    intro r hr
    rcases List.mem_cons.mp hr with rfl | hr
    · exact (existence_isAbout_flows f name _).1
    · exact (mem_reachability hr).1
  existenceFirst := ⟨_, _, rfl, (existence_isAbout_flows f name _).2,
    fun _ hr => (mem_reachability hr).2, reachability_statuses f name⟩

/-! ## Phases -/

/-- Every record carries the phase that made it. -/
theorem phaseRecords_phase (a : Audit) (phase : Phase) :
    ∀ r ∈ a.phaseRecords phase, r.phase = phase := by
  intro r hr
  obtain ⟨b, hb, hr⟩ := List.mem_flatMap.mp hr
  cases phase with
  | nodes =>
      obtain ⟨⟨id, node⟩, -, rfl⟩ := List.mem_map.mp hb
      exact ((a.nodeBlock_isNodeBlock id node).about r hr).1
  | edges =>
      obtain ⟨e, -, rfl⟩ := List.mem_map.mp hb
      obtain ⟨row, hrow, habout⟩ := a.edgeBlock_records e
      rw [hrow, List.mem_singleton] at hr
      exact hr ▸ habout.1
  | flows =>
      obtain ⟨⟨name, f⟩, -, rfl⟩ := List.mem_map.mp hb
      exact ((a.flowBlock_isFlowBlock name f).about r hr).1
  | invariants =>
      obtain ⟨i, -, rfl⟩ := List.mem_map.mp hb
      obtain ⟨row, hrow, habout⟩ := a.invariantBlock_records i
      rw [hrow, List.mem_singleton] at hr
      exact hr ▸ habout.1

theorem report_records (a : Audit) :
    a.report.records = a.phaseRecords .nodes ++ a.phaseRecords .edges ++
      a.phaseRecords .flows ++ a.phaseRecords .invariants := by
  show Phase.all.flatMap a.phaseRecords = _
  simp [Phase.all]

theorem filter_phase {rs : List CheckRecord} {p : Phase} (q : Phase)
    (h : ∀ r ∈ rs, r.phase = p) : rs.filter (·.phase = q) = if p = q then rs else [] := by
  split
  · rename_i hpq
    exact List.filter_eq_self.mpr fun r hr => by simp [h r hr, hpq]
  · rename_i hpq
    exact List.filter_eq_nil_iff.mpr fun r hr => by simp [h r hr, hpq]

/-- Picking the records of a phase out of a report gives what the phase made. -/
theorem report_phaseRecords (a : Audit) (phase : Phase) :
    a.report.phaseRecords phase = a.phaseRecords phase := by
  unfold Report.phaseRecords
  rw [report_records]
  simp only [List.filter_append, filter_phase phase (a.phaseRecords_phase _)]
  cases phase <;> simp

/-- The blocks that an audit makes of the elements of a map, phase by phase in the order of that
map. -/
def recordsInOrder (a : Audit) (d : Document) : List CheckRecord :=
  (d.nodes.entries.flatMap fun e => (a.nodeBlock e.1 e.2).records) ++
  (d.edges.flatMap fun e => (a.edgeBlock e).records) ++
  (d.flows.entries.flatMap fun e => (a.flowBlock e.1 e.2).records) ++
  (d.invariants.flatMap fun i => (a.invariantBlock i).records)

/-- A report is the blocks of its audit in the order of its map. -/
theorem report_records_inOrder (a : Audit) : a.report.records = a.recordsInOrder a.document := by
  rw [report_records]
  unfold phaseRecords blocks nodeBlocks edgeBlocks flowBlocks invariantBlocks recordsInOrder
  simp only [List.flatMap_map]

/-- Two audits that make the same records of every element lay out any map alike. -/
theorem recordsInOrder_congr {a a' : Audit}
    (hnode : ∀ id n, (a'.nodeBlock id n).records = (a.nodeBlock id n).records)
    (hedge : ∀ e, (a'.edgeBlock e).records = (a.edgeBlock e).records)
    (hflow : ∀ name f, (a'.flowBlock name f).records = (a.flowBlock name f).records)
    (hinvariant : ∀ i, (a'.invariantBlock i).records = (a.invariantBlock i).records)
    (d : Document) : a'.recordsInOrder d = a.recordsInOrder d := by
  unfold recordsInOrder
  simp only [hnode, hedge, hflow, hinvariant]

/-! ## Reading a report back

Entries of a registry are visited in order and their names differ, so the records of one name are
the block of the one entry that has it. -/

theorem filter_subject_flatMap {α : Type} {f : String → α → List CheckRecord}
    (hf : ∀ name value, ∀ r ∈ f name value, r.subject = name) (subject : String) :
    ∀ {l : List (String × α)}, (l.map Prod.fst).Nodup →
      (l.flatMap fun e => f e.1 e.2).filter (·.subject = subject) =
        ((l.lookup subject).map (f subject)).getD [] := by
  intro l
  induction l with
  | nil => simp
  | cons e rest ih =>
      intro hnd
      obtain ⟨name, value⟩ := e
      rw [List.map_cons, List.nodup_cons] at hnd
      rw [List.flatMap_cons, List.filter_append, ih hnd.2]
      by_cases hn : subject = name
      · subst hn
        have hself : (f subject value).filter (·.subject = subject) = f subject value :=
          List.filter_eq_self.mpr fun r hr => by simp [hf _ _ r hr]
        have hnone : rest.lookup subject = none := by
          rw [List.lookup_eq_none_iff]
          intro e he
          have hne : subject ≠ e.1 := by
            rintro rfl
            exact hnd.1 (List.mem_map.mpr ⟨e, he, rfl⟩)
          simpa using hne
        simp [hself, hnone]
      · have hempty : (f name value).filter (·.subject = subject) = [] :=
          List.filter_eq_nil_iff.mpr fun r hr => by simp [hf _ _ r hr, Ne.symm hn]
        have hbeq : (subject == name) = false := by simpa using hn
        simp [hempty, List.lookup_cons, hbeq]

/-- Likewise the records under other names are the blocks of the other entries. -/
theorem filter_subject_ne_flatMap {α : Type} {f : String → α → List CheckRecord}
    (hf : ∀ name value, ∀ r ∈ f name value, r.subject = name) (subject : String) :
    ∀ l : List (String × α),
      (l.flatMap fun e => f e.1 e.2).filter (·.subject ≠ subject) =
        (l.filter fun e => e.1 != subject).flatMap fun e => f e.1 e.2 := by
  intro l
  induction l with
  | nil => rfl
  | cons e rest ih =>
      obtain ⟨name, value⟩ := e
      rw [List.flatMap_cons, List.filter_append, ih]
      by_cases hn : name = subject
      · have hempty : (f name value).filter (·.subject ≠ subject) = [] :=
          List.filter_eq_nil_iff.mpr fun r hr => by simp [hf _ _ r hr, hn]
        rw [hempty]
        simp [hn]
      · have hself : (f name value).filter (·.subject ≠ subject) = f name value :=
          List.filter_eq_self.mpr fun r hr => by simp [hf _ _ r hr, hn]
        rw [hself]
        simp [hn]

theorem recordsOf_eq (a : Audit) (phase : Phase) (subject : String) :
    a.report.recordsOf phase subject =
      (a.phaseRecords phase).filter (·.subject = subject) := by
  rw [← report_phaseRecords]
  unfold Report.recordsOf Report.phaseRecords
  rw [List.filter_filter]
  apply List.filter_congr
  intro r _
  simp [and_comm]

/-- The records about a node are its block, and there are none about an id that is not declared. -/
theorem recordsOf_nodes (a : Audit) (id : String) :
    a.report.recordsOf .nodes id =
      ((a.document.node? id).map fun node => (a.nodeBlock id node).records).getD [] := by
  rw [recordsOf_eq]
  unfold phaseRecords blocks nodeBlocks
  rw [List.flatMap_map]
  exact filter_subject_flatMap (fun id node r hr => ((a.nodeBlock_isNodeBlock id node).about r hr).2)
    id a.document.nodes.nodup

/-- The records about all other nodes are their blocks, in order. -/
theorem nodeRecords_others (a : Audit) (id : String) :
    (a.report.phaseRecords .nodes).filter (·.subject ≠ id) =
      (a.document.nodes.entries.filter fun e => e.1 != id).flatMap fun e =>
        (a.nodeBlock e.1 e.2).records := by
  rw [report_phaseRecords]
  unfold phaseRecords blocks nodeBlocks
  rw [List.flatMap_map]
  exact filter_subject_ne_flatMap
    (fun id node r hr => ((a.nodeBlock_isNodeBlock id node).about r hr).2) id _

/-- The records about a flow are its block. -/
theorem recordsOf_flows (a : Audit) (name : String) :
    a.report.recordsOf .flows name =
      ((a.document.flows.get? name).map fun f => (a.flowBlock name f).records).getD [] := by
  rw [recordsOf_eq]
  unfold phaseRecords blocks flowBlocks
  rw [List.flatMap_map]
  exact filter_subject_flatMap (fun name f r hr => ((a.flowBlock_isFlowBlock name f).about r hr).2)
    name a.document.flows.nodup

/-- The records about a flow, check by check. -/
theorem checksOf_flows (a : Audit) {name : String} {f : FlowRecord}
    (hf : (name, f) ∈ a.document.flows.entries) :
    a.report.checksOf .flows name "existence" = [f.existence name a.document.declares] ∧
      a.report.checksOf .flows name "reachability" = f.reachability name := by
  have hrecords : a.report.recordsOf .flows name =
      f.existence name a.document.declares :: f.reachability name := by
    rw [recordsOf_flows, Registry.get?_eq_some_iff.mpr hf]
    rfl
  have hfirst := (existence_isAbout_flows f name a.document.declares).2
  have harms : ∀ r ∈ f.reachability name, r.check = "reachability" :=
    fun _ hr => (mem_reachability hr).2
  unfold Report.checksOf
  rw [hrecords]
  constructor
  · have hothers : (f.reachability name).filter (·.check = "existence") = [] := by
      rw [List.filter_eq_nil_iff]
      intro r hr
      rw [harms r hr]
      decide
    rw [List.filter_cons_of_pos (by simp [hfirst]), hothers]
  · rw [List.filter_cons_of_neg (by simp [hfirst]), List.filter_eq_self]
    intro r hr
    exact decide_eq_true (harms r hr)

theorem getElem?_flatMap_singletons {α β : Type} {f : α → List β} (hf : ∀ x, ∃ y, f x = [y]) :
    ∀ (l : List α) (i : Nat), (l.flatMap f)[i]? = l[i]?.bind fun x => (f x).head? := by
  intro l
  induction l with
  | nil => simp
  | cons x rest ih =>
      intro i
      obtain ⟨y, hy⟩ := hf x
      rw [List.flatMap_cons, hy]
      cases i with
      | zero => simp [hy]
      | succ i => simpa using ih i

/-- The record of the edge at a place is the one record of its block. -/
theorem edge_record (a : Audit) (i : Nat) :
    (a.report.phaseRecords .edges)[i]? =
      a.document.edges[i]?.bind fun e => (a.edgeBlock e).records.head? := by
  rw [report_phaseRecords]
  unfold phaseRecords blocks edgeBlocks
  rw [List.flatMap_map]
  apply getElem?_flatMap_singletons
  intro e
  obtain ⟨r, hr, -⟩ := a.edgeBlock_records e
  exact ⟨r, hr⟩

/-- The record of the invariant at a place is the one record of its block. -/
theorem invariant_record (a : Audit) (i : Nat) :
    (a.report.phaseRecords .invariants)[i]? =
      a.document.invariants[i]?.bind fun inv => (a.invariantBlock inv).records.head? := by
  rw [report_phaseRecords]
  unfold phaseRecords blocks invariantBlocks
  rw [List.flatMap_map]
  apply getElem?_flatMap_singletons
  intro inv
  obtain ⟨r, hr, -⟩ := a.invariantBlock_records inv
  exact ⟨r, hr⟩

end Audit

theorem forall₂_flatMap_singletons {α β : Type} {R : α → β → Prop} {f : α → List β}
    (hf : ∀ x, ∃ y, f x = [y] ∧ R x y) : ∀ l : List α, List.Forall₂ R l (l.flatMap f)
  | [] => List.Forall₂.nil
  | x :: rest => by
      obtain ⟨y, hy, hR⟩ := hf x
      rw [List.flatMap_cons, hy]
      exact List.Forall₂.cons hR (forall₂_flatMap_singletons hf rest)

/-! ## Summaries -/

/-- Each record is counted under exactly one status. -/
theorem summary_total (rs : List CheckRecord) :
    (Summary.ofRecords rs).pass + (Summary.ofRecords rs).fail + (Summary.ofRecords rs).warn =
      rs.length := by
  unfold Summary.ofRecords
  dsimp only
  induction rs with
  | nil => rfl
  | cons r rest ih =>
      cases h : r.status <;> simp [h] <;> omega

/-- A report gates exactly if some record fails. -/
theorem exitCode_eq_zero_iff (name version : String) (rs : List CheckRecord) :
    (Report.ofRecords name version rs).exitCode = 0 ↔ ∀ r ∈ rs, r.status ≠ .fail := by
  have hcount : (Report.ofRecords name version rs).exitCode = 0 ↔
      rs.countP (·.status = .fail) = 0 := by
    unfold Report.exitCode Report.ofRecords Summary.ofRecords
    dsimp only
    split <;> omega
  rw [hcount, List.countP_eq_zero]
  simp

/-- **Structure of a report.** The records are the blocks of the nodes, the records of the edges,
the blocks of the flows and the records of the invariants, each element in the order of the
document and nothing besides; the summary counts every record once, and only a failure gates. -/
theorem report_structure (a : Audit) :
    (∃ nodeBlocks edgeRows flowBlocks invariantRows,
      a.report.records = nodeBlocks.flatten ++ edgeRows ++ flowBlocks.flatten ++ invariantRows ∧
      List.Forall₂ IsNodeBlock a.document.nodes.names nodeBlocks ∧
      List.Forall₂ (fun e r => r.IsAbout .edges e.label) a.document.edges edgeRows ∧
      List.Forall₂ IsFlowBlock a.document.flows.names flowBlocks ∧
      List.Forall₂ (fun i r => r.IsAbout .invariants i.id) a.document.invariants invariantRows) ∧
    (a.report.summary.pass + a.report.summary.fail + a.report.summary.warn =
      a.report.summary.total ∧
    a.report.summary.total = a.report.records.length) ∧
    (a.report.exitCode = 0 ↔ ∀ r ∈ a.report.records, r.status ≠ .fail) := by
  refine ⟨?_, ⟨summary_total _, rfl⟩, exitCode_eq_zero_iff _ _ _⟩
  have hnodes : List.Forall₂ IsNodeBlock a.document.nodes.names (a.nodeBlocks.map Block.records) := by
    unfold Registry.names Audit.nodeBlocks
    rw [List.map_map, List.forall₂_map_left_iff, List.forall₂_map_right_iff, List.forall₂_same]
    intro e _
    exact a.nodeBlock_isNodeBlock e.1 e.2
  have hflows : List.Forall₂ IsFlowBlock a.document.flows.names (a.flowBlocks.map Block.records) := by
    unfold Registry.names Audit.flowBlocks
    rw [List.map_map, List.forall₂_map_left_iff, List.forall₂_map_right_iff, List.forall₂_same]
    intro e _
    exact a.flowBlock_isFlowBlock e.1 e.2
  have hedges : List.Forall₂ (fun e r => r.IsAbout .edges e.label) a.document.edges
      (a.phaseRecords .edges) := by
    unfold Audit.phaseRecords Audit.blocks Audit.edgeBlocks
    rw [List.flatMap_map]
    exact forall₂_flatMap_singletons a.edgeBlock_records _
  have hinvariants : List.Forall₂ (fun i r => r.IsAbout .invariants i.id) a.document.invariants
      (a.phaseRecords .invariants) := by
    unfold Audit.phaseRecords Audit.blocks Audit.invariantBlocks
    rw [List.flatMap_map]
    exact forall₂_flatMap_singletons a.invariantBlock_records _
  refine ⟨_, _, _, _, ?_, hnodes, hedges, hflows, hinvariants⟩
  rw [Audit.report_records]
  rfl

end ContractAudit
