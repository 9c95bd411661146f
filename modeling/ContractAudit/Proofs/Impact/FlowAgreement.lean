import ContractAudit.Proofs.Flow.Roles
import ContractAudit.Proofs.Impact.Completeness

/-!
# The query and the audit agree on flows

What a flow refers to is asked twice: the audit asks which of the ids are declared, the query asks
which roles one declared node plays. They give the same answer (`query_agrees_on_flows`). A flow is
listed for a node exactly if the audit asks for that node, it is listed with all its roles and
nothing else, and of a flow whose nodes are all declared the query lists exactly those nodes that
the flow cannot do without.
-/

namespace ContractAudit

/-! ## The existence record of a flow -/

/-- The status of the `existence` record of a flow. -/
def Report.existenceOf (r : Report) (name : String) : Option Status :=
  ((r.recordsOf .flows name).find? (·.check = "existence")).map CheckRecord.status

namespace FlowRecord

variable {f : FlowRecord} {name : String} {declared : String → Bool}

theorem existence_pass_iff :
    (f.existence name declared).status = .pass ↔ ∀ id ∈ f.references, declared id = true := by
  unfold existence
  constructor
  · intro h id hid
    split at h
    · rename_i hmissing
      have hkept := List.filter_eq_nil_iff.mp hmissing id hid
      simpa using hkept
    · cases h
  · intro h
    have hmissing : f.references.filter (!declared ·) = [] :=
      List.filter_eq_nil_iff.mpr fun id hid => by simp [h id hid]
    rw [hmissing]
    rfl

/-- Existence never warns: it passes or fails. -/
theorem existence_fail_iff_not_pass :
    (f.existence name declared).status = .fail ↔ (f.existence name declared).status ≠ .pass := by
  unfold existence
  split
  · simp [flowRecord]
  · simp [flowRecord]

end FlowRecord

namespace Audit

variable {a : Audit} {name : String} {f : FlowRecord}

theorem existenceOf_report (hf : (name, f) ∈ a.document.flows.entries) :
    a.report.existenceOf name = some (f.existence name a.document.declares).status := by
  unfold Report.existenceOf
  rw [recordsOf_flows, Registry.get?_eq_some_iff.mpr hf, Option.map_some, Option.getD_some]
  unfold flowBlock
  rw [List.find?_cons_of_pos (by simp [(existence_isAbout_flows f name _).2])]
  rfl

theorem existenceOf_pass_iff (hf : (name, f) ∈ a.document.flows.entries) :
    a.report.existenceOf name = some .pass ↔
      ∀ id ∈ f.references, a.document.declares id = true := by
  rw [existenceOf_report hf, Option.some.injEq, FlowRecord.existence_pass_iff]

theorem existenceOf_fail_iff (hf : (name, f) ∈ a.document.flows.entries) :
    a.report.existenceOf name = some .fail ↔
      ∃ id ∈ f.references, a.document.declares id = false := by
  rw [existenceOf_report hf, Option.some.injEq, FlowRecord.existence_fail_iff_not_pass, ne_eq,
    FlowRecord.existence_pass_iff]
  simp

end Audit

/-! ## Nodes taken out of a map -/

namespace Document

variable {d : Document} {id other : String}

theorem declares_removed_self : (d.edited id .remove).declares id = false := by
  show ((d.nodes.entries.filter fun e => e.1 != id).any fun e => e.1 == id) = false
  rw [List.any_filter, List.any_eq_false]
  intro e _
  simp

theorem declares_removed_of_ne (h : other ≠ id) :
    (d.edited id .remove).declares other = d.declares other := by
  show (d.edited id .remove).nodes.contains other = d.nodes.contains other
  rw [Registry.contains_eq_isSome, Registry.contains_eq_isSome]
  exact congrArg Option.isSome (node?_edited .remove h)

end Document

/-- A flow whose nodes are all declared breaks without a node exactly if it refers to the node. -/
theorem Audit.existenceOf_removed {a : Audit} {id name : String} {f : FlowRecord}
    (hf : (name, f) ∈ a.document.flows.entries) (hpass : a.report.existenceOf name = some .pass) :
    (a.edited id .remove).report.existenceOf name = some .fail ↔ id ∈ f.references := by
  have hf' : (name, f) ∈ (a.edited id .remove).document.flows.entries := hf
  rw [existenceOf_fail_iff hf']
  constructor
  · rintro ⟨other, hother, hgone⟩
    by_cases heq : other = id
    · exact heq ▸ hother
    · have hkept : a.document.declares other = false := by
        rw [← Document.declares_removed_of_ne heq]
        exact hgone
      rw [(existenceOf_pass_iff hf).mp hpass other hother] at hkept
      cases hkept
  · intro hid
    exact ⟨id, hid, Document.declares_removed_self⟩

/-! ## What the query lists -/

namespace Document

variable {d : Document} {id name : String} {f : FlowRecord}

/-- The flows in which the node plays a role, each with its own trigger and the roles. -/
theorem flowsOf_eq (d : Document) (id : String) :
    d.flowsOf id = (d.flows.entries.filter fun e => e.2.rolesOf id ≠ []).map fun e =>
      ⟨e.1, e.2.trigger, e.2.rolesOf id⟩ := by
  unfold flowsOf
  induction d.flows.entries with
  | nil => rfl
  | cons e rest ih =>
      obtain ⟨name, flow⟩ := e
      rw [List.filterMap_cons, ih]
      cases hroles : flow.rolesOf id with
      | nil => simp [hroles]
      | cons role roles => simp [hroles]

theorem mem_flowsOf {listed : ImpactFlow} : listed ∈ d.flowsOf id ↔
    ∃ flow, (listed.name, flow) ∈ d.flows.entries ∧ flow.rolesOf id ≠ [] ∧
      listed = ⟨listed.name, flow.trigger, flow.rolesOf id⟩ := by
  rw [flowsOf_eq, List.mem_map]
  constructor
  · rintro ⟨⟨name, flow⟩, hflow, rfl⟩
    rw [List.mem_filter, decide_eq_true_eq] at hflow
    exact ⟨flow, hflow.1, hflow.2, rfl⟩
  · rintro ⟨flow, hflow, hroles, hlisted⟩
    refine ⟨(listed.name, flow), ?_, hlisted.symm⟩
    rw [List.mem_filter, decide_eq_true_eq]
    exact ⟨hflow, hroles⟩

/-- Names are unique, so a listed flow is the flow of that name. -/
theorem eq_of_mem_flowsOf (hf : (name, f) ∈ d.flows.entries) {listed : ImpactFlow}
    (hlisted : listed ∈ d.flowsOf id) (hname : listed.name = name) :
    f.rolesOf id ≠ [] ∧ listed = ⟨name, f.trigger, f.rolesOf id⟩ := by
  obtain ⟨flow, hflow, hroles, heq⟩ := mem_flowsOf.mp hlisted
  rw [hname] at hflow heq
  have hsame : some flow = some f := by
    rw [← Registry.get?_eq_some_iff.mpr hflow, ← Registry.get?_eq_some_iff.mpr hf]
  cases hsame
  exact ⟨hroles, heq⟩

theorem exists_listed_iff (hf : (name, f) ∈ d.flows.entries) :
    (∃ listed ∈ d.flowsOf id, listed.name = name) ↔ id ∈ f.references := by
  constructor
  · rintro ⟨listed, hlisted, hname⟩
    by_contra hid
    exact (eq_of_mem_flowsOf hf hlisted hname).1 (FlowRecord.rolesOf_eq_nil_iff.mpr hid)
  · exact exists_mem_flowsOf hf

theorem listed_roles (hf : (name, f) ∈ d.flows.entries) {listed : ImpactFlow}
    (hlisted : listed ∈ d.flowsOf id) (hname : listed.name = name) :
    f.ListsRoles id listed.roles := by
  rw [(eq_of_mem_flowsOf hf hlisted hname).2]
  exact f.rolesOf_listsRoles id

/-- Flows are listed in the order of the map, none of them twice. -/
theorem names_flowsOf (d : Document) (id : String) :
    ((d.flowsOf id).map ImpactFlow.name).Sublist d.flows.names := by
  rw [flowsOf_eq, List.map_map]
  exact List.filter_sublist.map Prod.fst

end Document

/-! ## Agreement -/

/-- What the query for a node and the audit of the same map say about one flow. -/
structure ImpactReport.AgreesOnFlow (r : ImpactReport) (id : String) (a : Audit) (name : String)
    (f : FlowRecord) : Prop where
  decided : a.report.existenceOf name = some .pass ↔
    ∀ other ∈ f.references, a.document.declares other = true
  listed : (∃ l ∈ r.flows, l.name = name) ↔ id ∈ f.references
  once : (r.flows.map ImpactFlow.name).Nodup
  roles : ∀ l ∈ r.flows, l.name = name → f.ListsRoles id l.roles
  removed : a.report.existenceOf name = some .pass →
    ((a.edited id .remove).report.existenceOf name = some .fail ↔ ∃ l ∈ r.flows, l.name = name)

/-- **The query and the audit agree on what a flow refers to.** -/
theorem query_agrees_on_flows (a : Audit) {id name : String} {f : FlowRecord}
    (hid : a.document.declares id = true) (hf : (name, f) ∈ a.document.flows.entries) :
    ∃ r, a.document.impact id = .found r ∧ r.AgreesOnFlow id a name f := by
  rw [Audit.declares_eq, Option.isSome_iff_exists] at hid
  obtain ⟨node, hnode⟩ := hid
  refine ⟨_, by unfold Document.impact; rw [hnode], ?_⟩
  constructor
  case decided => exact Audit.existenceOf_pass_iff hf
  case listed => exact Document.exists_listed_iff hf
  case once => exact (a.document.names_flowsOf id).nodup a.document.flows.nodup
  case roles => exact fun _ hlisted hname => Document.listed_roles hf hlisted hname
  case removed =>
    intro hpass
    rw [Audit.existenceOf_removed hf hpass]
    exact (Document.exists_listed_iff hf).symm

/-- A flow that loops back to its first node from two arms, and a node named like a keyword. -/
def retryFlow : FlowRecord where
  steps :=
    [{ node := "m", next := .branch (.ofList [("ok", "DONE"), ("retry", "m"), ("again", "m")]) },
     { node := "DONE", next := .target "m" }, { node := "m", next := .target "DONE" }]

/-- A map with that flow and its nodes. -/
def retryMap : Audit where
  sources := .ofList []
  document :=
    { nodes := .ofList [("m", {}), ("DONE", {}), ("idle", {})]
      flows := .ofList [("save", retryFlow)] }
  root := ⟨""⟩

/-- The node named like a keyword is found at its step alone, and its flow fails without it. -/
theorem retry_flow_needs_done :
    retryMap.document.declares "DONE" = true ∧
      ("save", retryFlow) ∈ retryMap.document.flows.entries ∧
      retryMap.report.existenceOf "save" = some .pass ∧
      retryFlow.rolesOf "DONE" = [.step 1] ∧
      retryFlow.rolesOf "m" =
        [.step 0, .branch 0 "retry", .branch 0 "again", .jump 1, .step 2] ∧
      ∃ r, retryMap.document.impact "DONE" = .found r ∧
        r.AgreesOnFlow "DONE" retryMap "save" retryFlow :=
  ⟨by decide, by decide, by decide, by decide, by decide,
    query_agrees_on_flows retryMap (by decide) (by decide)⟩

end ContractAudit
