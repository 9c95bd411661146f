import ContractAudit.Proofs.Impact.FlowAgreement
import Mathlib.Data.List.Count
import Mathlib.Data.List.Forall2

/-!
# Impact queries lose nothing and repeat nothing

A query looks at one node. Asked for every node of a map in turn, the queries together report each
edge once at each of its ends that is declared, and each invariant once at each declared node of
its scope (`impact_conserves`). Edges may be repeated, may loop and may end at ids that nothing
declares, and a scope may name a node more than once.

The exchange of the two walks, over nodes and over edges, is `perm_flatMap_filter`: since ids are
unique, grouping a list by key only reorders it.
-/

namespace ContractAudit

/-! ## Grouping by key -/

/-- Elements picked by one of two tests that are never both met. -/
theorem perm_filter_or {α : Type} {p q : α → Bool} (l : List α)
    (h : ∀ x ∈ l, p x = true → q x = false) :
    (l.filter p ++ l.filter q).Perm (l.filter fun x => p x || q x) := by
  have hp : (l.filter fun x => p x || q x).filter p = l.filter p := by
    rw [List.filter_filter]
    apply List.filter_congr
    intro x _
    cases p x <;> simp
  have hq : ((l.filter fun x => p x || q x).filter fun x => !p x) = l.filter q := by
    rw [List.filter_filter]
    apply List.filter_congr
    intro x hx
    cases hpx : p x with
    | true => simp [h x hx hpx]
    | false => simp
  rw [← hp, ← hq]
  exact List.filter_append_perm p _

/-- Grouping a list by distinct keys keeps the elements whose key is among them. -/
theorem perm_flatMap_filter {α κ : Type} [DecidableEq κ] (key : α → κ) (l : List α) :
    ∀ {keys : List κ}, keys.Nodup →
      (keys.flatMap fun k => l.filter (key · = k)).Perm (l.filter (key · ∈ keys))
  | [], _ => by simp
  | k :: keys, h => by
      rw [List.nodup_cons] at h
      rw [List.flatMap_cons]
      have hdisjoint : ∀ x ∈ l, decide (key x = k) = true → decide (key x ∈ keys) = false := by
        intro x _ hx
        rw [decide_eq_true_eq] at hx
        rw [decide_eq_false_iff_not, hx]
        exact h.1
      have hor : (l.filter fun x => decide (key x = k) || decide (key x ∈ keys)) =
          l.filter (key · ∈ k :: keys) := by
        apply List.filter_congr
        intro x _
        simp
      rw [← hor]
      exact ((perm_flatMap_filter key l h.2).append_left _).trans (perm_filter_or l hdisjoint)

/-! ## What a query reports -/

/-- An edge is reported with its ends, its word and its note as they stand; ends change together
if its word says so. -/
structure EdgeRecord.ReportedAs (e : EdgeRecord) (x : ImpactEdge) : Prop where
  source : x.source = e.source
  target : x.target = e.target
  rel : x.rel = e.rel
  note : x.note = e.note
  coChange : x.coChange = true ↔ e.relation = .coChange

/-- An invariant is reported with its texts as they stand. -/
structure InvariantRecord.ReportedAs (i : InvariantRecord) (x : ImpactInvariant) : Prop where
  id : x.id = i.id
  rule : x.rule = i.rule
  enforce : x.enforce = i.enforce

/-- An element of the map other than the declaration itself names the id. -/
inductive Document.Mentions (d : Document) (id : String) : Prop where
  | source {e : EdgeRecord} : e ∈ d.edges → e.source = id → Mentions d id
  | target {e : EdgeRecord} : e ∈ d.edges → e.target = id → Mentions d id
  | step {name : String} {f : FlowRecord} {s : Step} :
      (name, f) ∈ d.flows.entries → s ∈ f.steps → s.node = id → Mentions d id
  | destination {name : String} {f : FlowRecord} {s : Step} :
      (name, f) ∈ d.flows.entries → s ∈ f.steps → s.next.LeadsTo id → Mentions d id
  | scope {i : InvariantRecord} : i ∈ d.invariants → id ∈ i.scope → Mentions d id

/-- The report on an id: its edges and its invariants one by one, in the order of the map. -/
structure ImpactReport.ReportsOn (r : ImpactReport) (d : Document) (id : String) : Prop where
  outgoing : List.Forall₂ EdgeRecord.ReportedAs (d.edges.filter (·.source = id)) r.outgoing
  incoming : List.Forall₂ EdgeRecord.ReportedAs (d.edges.filter (·.target = id)) r.incoming
  invariants :
    List.Forall₂ InvariantRecord.ReportedAs (d.invariants.filter (id ∈ ·.scope)) r.invariants
  isolated : r.isIsolated = true ↔ ¬ d.Mentions id

namespace ImpactOutcome

/-- The outgoing edges of an answer; a node that is not found has none. -/
def outgoing : ImpactOutcome → List ImpactEdge
  | .found r => r.outgoing
  | .notFound .. => []

def incoming : ImpactOutcome → List ImpactEdge
  | .found r => r.incoming
  | .notFound .. => []

end ImpactOutcome

/-! ## Copies -/

theorem EdgeRecord.reportedAs_impact (e : EdgeRecord) : e.ReportedAs e.impact where
  source := rfl
  target := rfl
  rel := rfl
  note := rfl
  coChange := by simp [impact]

theorem InvariantRecord.reportedAs_impact (i : InvariantRecord) : i.ReportedAs i.impact :=
  ⟨rfl, rfl, rfl⟩

/-- What is reported of an edge tells which edge it was. -/
theorem EdgeRecord.impact_injective : Function.Injective EdgeRecord.impact := by
  rintro ⟨source, target, rel, note⟩ ⟨source', target', rel', note'⟩ h
  cases h
  rfl

theorem forall₂_reportedAs_edges (l : List EdgeRecord) :
    List.Forall₂ EdgeRecord.ReportedAs l (l.map EdgeRecord.impact) := by
  rw [List.forall₂_map_right_iff, List.forall₂_same]
  exact fun e _ => e.reportedAs_impact

theorem forall₂_reportedAs_invariants (l : List InvariantRecord) :
    List.Forall₂ InvariantRecord.ReportedAs l (l.map InvariantRecord.impact) := by
  rw [List.forall₂_map_right_iff, List.forall₂_same]
  exact fun i _ => i.reportedAs_impact

/-! ## Single queries -/

theorem FlowRecord.mem_references_iff {f : FlowRecord} {id : String} :
    id ∈ f.references ↔ ∃ s ∈ f.steps, s.node = id ∨ s.next.LeadsTo id := by
  rw [mem_references]
  unfold Step.references
  simp only [List.mem_cons, Continuation.mem_nodeTargets, eq_comm]

namespace Document

variable {d : Document} {id : String} {r : ImpactReport}

theorem mem_nodeIds_iff : id ∈ d.nodeIds ↔ ∃ node, d.node? id = some node := by
  unfold nodeIds node?
  rw [← Registry.contains_iff, Registry.contains_eq_isSome, Option.isSome_iff_exists]

theorem impact_of_not_mem (h : id ∉ d.nodeIds) : d.impact id = .notFound id d.nodeIds := by
  unfold impact
  cases hnode : d.node? id with
  | none => rfl
  | some node => exact absurd (mem_nodeIds_iff.mpr ⟨node, hnode⟩) h

theorem found_iff : (∃ r, d.impact id = .found r) ↔ id ∈ d.nodeIds := by
  constructor
  · rintro ⟨r, hr⟩
    by_contra h
    rw [impact_of_not_mem h] at hr
    cases hr
  · intro h
    obtain ⟨node, hnode⟩ := mem_nodeIds_iff.mp h
    unfold impact
    rw [hnode]
    exact ⟨_, rfl⟩

/-- What a report that was found lists, in terms of the map. -/
theorem lists_of_found (h : d.impact id = .found r) :
    r.outgoing = (d.edges.filter (·.source = id)).map EdgeRecord.impact ∧
    r.incoming = (d.edges.filter (·.target = id)).map EdgeRecord.impact ∧
    r.flows = d.flowsOf id ∧
    r.invariants = (d.invariants.filter (id ∈ ·.scope)).map InvariantRecord.impact := by
  unfold impact at h
  cases hnode : d.node? id with
  | none =>
      rw [hnode] at h
      cases h
  | some node =>
      rw [hnode] at h
      cases h
      refine ⟨?_, ?_, rfl, ?_⟩
      · simp [edgesFrom, beq_eq_decide]
      · simp [edgesTo, beq_eq_decide]
      · simp

theorem flowsOf_eq_nil_iff :
    d.flowsOf id = [] ↔ ∀ name f, (name, f) ∈ d.flows.entries → id ∉ f.references := by
  rw [flowsOf_eq, List.map_eq_nil_iff, List.filter_eq_nil_iff]
  constructor
  · intro h name f hf
    apply FlowRecord.rolesOf_eq_nil_iff.mp
    simpa using h (name, f) hf
  · rintro h ⟨name, f⟩ hf
    simpa using FlowRecord.rolesOf_eq_nil_iff.mpr (h name f hf)

/-- A node is isolated exactly if nothing in the map names it. -/
theorem isolated_iff (h : d.impact id = .found r) :
    r.isIsolated = true ↔ ¬ d.Mentions id := by
  obtain ⟨hout, hin, hflows, hinv⟩ := lists_of_found h
  unfold ImpactReport.isIsolated
  simp only [Bool.and_eq_true, List.isEmpty_iff, hout, hin, hflows, hinv, List.map_eq_nil_iff,
    List.filter_eq_nil_iff, decide_eq_true_eq, flowsOf_eq_nil_iff]
  constructor
  · rintro ⟨⟨⟨hsource, htarget⟩, href⟩, hscope⟩ hmention
    cases hmention with
    | source he heq => exact hsource _ he heq
    | target he heq => exact htarget _ he heq
    | step hf hs hnode =>
        exact href _ _ hf (FlowRecord.mem_references_iff.mpr ⟨_, hs, Or.inl hnode⟩)
    | destination hf hs hnext =>
        exact href _ _ hf (FlowRecord.mem_references_iff.mpr ⟨_, hs, Or.inr hnext⟩)
    | scope hi hid => exact hscope _ hi hid
  · intro hnone
    refine ⟨⟨⟨fun e he heq => hnone (.source he heq), fun e he heq => hnone (.target he heq)⟩, ?_⟩,
      fun i hi hid => hnone (.scope hi hid)⟩
    intro name f hf hid
    obtain ⟨s, hs, hnode | hnext⟩ := FlowRecord.mem_references_iff.mp hid
    · exact hnone (.step hf hs hnode)
    · exact hnone (.destination hf hs hnext)

theorem reportsOn_of_found (h : d.impact id = .found r) : r.ReportsOn d id := by
  obtain ⟨hout, hin, -, hinv⟩ := lists_of_found h
  constructor
  case outgoing =>
    rw [hout]
    exact forall₂_reportedAs_edges _
  case incoming =>
    rw [hin]
    exact forall₂_reportedAs_edges _
  case invariants =>
    rw [hinv]
    exact forall₂_reportedAs_invariants _
  case isolated => exact isolated_iff h

theorem outgoing_impact (h : id ∈ d.nodeIds) :
    (d.impact id).outgoing = (d.edges.filter (·.source = id)).map EdgeRecord.impact := by
  obtain ⟨r, hr⟩ := found_iff.mpr h
  rw [hr]
  exact (lists_of_found hr).1

theorem incoming_impact (h : id ∈ d.nodeIds) :
    (d.impact id).incoming = (d.edges.filter (·.target = id)).map EdgeRecord.impact := by
  obtain ⟨r, hr⟩ := found_iff.mpr h
  rw [hr]
  exact (lists_of_found hr).2.1

/-- An edge is reported at its source as often as it stands in the map. -/
theorem count_outgoing {e : EdgeRecord} (h : d.impact e.source = .found r) :
    r.outgoing.count e.impact = d.edges.count e := by
  rw [(lists_of_found h).1, List.count_map_of_injective _ _ EdgeRecord.impact_injective,
    List.count_filter (by simp)]

theorem count_incoming {e : EdgeRecord} (h : d.impact e.target = .found r) :
    r.incoming.count e.impact = d.edges.count e := by
  rw [(lists_of_found h).2.1, List.count_map_of_injective _ _ EdgeRecord.impact_injective,
    List.count_filter (by simp)]

/-! ## All queries of a map -/

/-- The lists of all queries are one list of edges, each element reported in its place. -/
theorem forall₂_flatMap_reported {ids : List String} {queried : String → List ImpactEdge}
    {listed : String → List EdgeRecord}
    (h : ∀ id ∈ ids, queried id = (listed id).map EdgeRecord.impact) :
    List.Forall₂ EdgeRecord.ReportedAs (ids.flatMap listed) (ids.flatMap queried) := by
  rw [List.flatMap_congr h, ← List.map_flatMap]
  exact forall₂_reportedAs_edges _

/-- All queries together report the edges, each at the end that `key` picks if that is declared. -/
theorem reported_perm (key : EdgeRecord → String) {queried : String → List ImpactEdge}
    (h : ∀ id ∈ d.nodeIds, queried id = (d.edges.filter (key · = id)).map EdgeRecord.impact) :
    ∃ listed : List EdgeRecord, listed.Perm (d.edges.filter (key · ∈ d.nodeIds)) ∧
      List.Forall₂ EdgeRecord.ReportedAs listed (d.nodeIds.flatMap queried) :=
  ⟨d.nodeIds.flatMap fun id => d.edges.filter (key · = id),
    perm_flatMap_filter key d.edges d.nodes.nodup, forall₂_flatMap_reported h⟩

end Document

/-! ## Conservation -/

/-- The queries for all ids, taken together. Each edge is reported at both ends by the same entry,
as often as it stands in the map; for a loop both lists are those of one report. -/
structure Document.KeptByImpact (d : Document) : Prop where
  found : ∀ id, (∃ r, d.impact id = .found r) ↔ id ∈ d.nodeIds
  notFound : ∀ id, id ∉ d.nodeIds → d.impact id = .notFound id d.nodeIds
  reports : ∀ id r, d.impact id = .found r → r.ReportsOn d id
  outgoing : ∃ listed : List EdgeRecord, listed.Perm (d.edges.filter (·.source ∈ d.nodeIds)) ∧
    List.Forall₂ EdgeRecord.ReportedAs listed
      (d.nodeIds.flatMap fun id => (d.impact id).outgoing)
  incoming : ∃ listed : List EdgeRecord, listed.Perm (d.edges.filter (·.target ∈ d.nodeIds)) ∧
    List.Forall₂ EdgeRecord.ReportedAs listed
      (d.nodeIds.flatMap fun id => (d.impact id).incoming)
  bothEnds : ∀ e ∈ d.edges, ∃ x, e.ReportedAs x ∧
    (∀ r, d.impact e.source = .found r → r.outgoing.count x = d.edges.count e) ∧
    (∀ r, d.impact e.target = .found r → r.incoming.count x = d.edges.count e)

/-- **Impact queries conserve edges and invariants.** -/
theorem impact_conserves (d : Document) : d.KeptByImpact where
  found := fun _ => Document.found_iff
  notFound := fun _ => Document.impact_of_not_mem
  reports := fun _ _ => Document.reportsOn_of_found
  outgoing := Document.reported_perm EdgeRecord.source fun _ => Document.outgoing_impact
  incoming := Document.reported_perm EdgeRecord.target fun _ => Document.incoming_impact
  bothEnds := fun e _ =>
    ⟨e.impact, e.reportedAs_impact, fun _ => Document.count_outgoing,
      fun _ => Document.count_incoming⟩

end ContractAudit
