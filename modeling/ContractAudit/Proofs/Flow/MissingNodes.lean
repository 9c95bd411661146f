import ContractAudit.Proofs.Audit.ReportStructure
import ContractAudit.Proofs.Flow.Roles
import Mathlib.Data.List.Sort

/-!
# Nodes that a flow names and a map does not declare

A flow refers to the nodes that have a role in it. They are collected in one pass over all roles,
each when it is first met, so the references of a flow are the nodes of these roles in the order of
their first mention (`listsMentioned_references`). The audit names those of them that the map does
not declare, in the same order (`missing_nodes_are_named_once`).
-/

namespace ContractAudit

/-! ## Order of first mention -/

namespace FlowRecord

/-- One node is mentioned before another: one of its roles comes before all roles of the other. -/
def MentionedBefore (f : FlowRecord) (id other : String) : Prop :=
  ∃ role, f.HasRole id role ∧ ∀ role', f.HasRole other role' → f.RoleBefore role role'

instance (f : FlowRecord) : Std.Asymm f.MentionedBefore where
  asymm := by
    rintro id other ⟨role, hrole, hfirst⟩ ⟨role', hrole', hfirst'⟩
    exact (hfirst role' hrole').asymm (hfirst' role hrole)

/-- The list holds the ids that have a role in the flow, each once, in the order of their first
mention. -/
structure ListsMentioned (f : FlowRecord) (ids : List String) : Prop where
  mem : ∀ id, id ∈ ids ↔ ∃ role, f.HasRole id role
  nodup : ids.Nodup
  ordered : ids.Pairwise f.MentionedBefore

/-- There is one such list. -/
theorem ListsMentioned.unique {f : FlowRecord} {ids others : List String}
    (h : f.ListsMentioned ids) (h' : f.ListsMentioned others) : others = ids :=
  h'.ordered.eq_of_mem_iff h.ordered fun id => (h'.mem id).trans (h.mem id).symm

end FlowRecord

/-! ## Collecting ids

The ids are collected in one pass: an id that has been seen is passed over, any other goes to the
end. -/

/-- The first `x` of the list has no `y` before it. -/
def StandsBefore (l : List String) (x y : String) : Prop :=
  ∃ before behind, l = before ++ x :: behind ∧ y ≠ x ∧ y ∉ before

theorem StandsBefore.append {l : List String} {x y : String} (h : StandsBefore l x y)
    (rest : List String) : StandsBefore (l ++ rest) x y := by
  obtain ⟨before, behind, rfl, hne, hnot⟩ := h
  exact ⟨before, behind ++ rest, by simp, hne, hnot⟩

/-- What has been collected from the ids that were passed. -/
structure Collected (passed seen : List String) : Prop where
  mem : ∀ id, id ∈ seen ↔ id ∈ passed
  ordered : seen.Pairwise (StandsBefore passed)

namespace Collected

theorem initial : Collected [] [] :=
  ⟨fun _ => Iff.rfl, List.Pairwise.nil⟩

/-- One more id is passed. -/
theorem step {passed seen : List String} (h : Collected passed seen) (id : String) :
    Collected (passed ++ [id]) (if seen.contains id then seen else seen ++ [id]) := by
  have hkept : seen.Pairwise (StandsBefore (passed ++ [id])) :=
    h.ordered.imp fun hbefore => hbefore.append [id]
  by_cases hid : id ∈ seen
  · rw [if_pos (by simpa using hid)]
    refine ⟨?_, hkept⟩
    intro other
    rw [List.mem_append, List.mem_singleton, ← h.mem other]
    constructor
    · exact Or.inl
    · rintro (hother | rfl)
      · exact hother
      · exact hid
  · rw [if_neg (by simpa using hid)]
    constructor
    · intro other
      rw [List.mem_append, List.mem_append, h.mem other]
    · rw [List.pairwise_append]
      refine ⟨hkept, List.pairwise_singleton .., ?_⟩
      intro x hx y hy
      obtain rfl := List.mem_singleton.mp hy
      -- `x` was passed before, and `y` has not been.
      have hnew : y ∉ passed := fun hy => hid ((h.mem y).mpr hy)
      obtain ⟨before, behind, rfl⟩ := List.append_of_mem ((h.mem x).mp hx)
      refine ⟨before, behind ++ [y], by simp, ?_, ?_⟩
      · rintro rfl
        exact hid hx
      · exact fun hy => hnew (List.mem_append_left _ hy)

theorem run {passed seen : List String} (h : Collected passed seen) (ids : List String) :
    Collected (passed ++ ids)
      (ids.foldl (fun seen id => if seen.contains id then seen else seen ++ [id]) seen) := by
  induction ids generalizing passed seen with
  | nil => simpa using h
  | cons id rest ih =>
      rw [List.foldl_cons, ← List.singleton_append, ← List.append_assoc]
      exact ih (h.step id)

end Collected

/-! ## References are the ids of the mentions -/

theorem Continuation.map_snd_mentions (c : Continuation) (index : Nat) :
    (c.mentions index).map Prod.snd = c.nodeTargets := by
  cases c with
  | target raw =>
      show (Continuation.mentions index (.target raw)).map Prod.snd =
        (Destination.ofString raw).node?.toList
      rw [mentions_target]
      cases (Destination.ofString raw).node? with
      | none => rfl
      | some id => rfl
  | branch arms =>
      unfold mentions
      rw [List.map_filterMap]
      show arms.entries.filterMap _ =
        (arms.entries.map Prod.snd).filterMap fun raw => (Destination.ofString raw).node?
      rw [List.filterMap_map]
      apply List.filterMap_congr
      rintro ⟨label, raw⟩ -
      show Option.map Prod.snd (Option.map _ (Destination.ofString raw).node?) =
        (Destination.ofString raw).node?
      cases (Destination.ofString raw).node? with
      | none => rfl
      | some id => rfl

namespace FlowRecord

variable {f : FlowRecord}

theorem map_snd_mentions (f : FlowRecord) :
    f.mentions.map Prod.snd = f.steps.flatMap Step.references := by
  have hstep : ∀ e : Step × Nat, (e.1.mentions e.2).map Prod.snd = e.1.references := by
    intro e
    unfold Step.mentions Step.references
    rw [List.map_cons, Continuation.map_snd_mentions]
  unfold mentions
  rw [List.map_flatMap, List.flatMap_congr fun e _ => hstep e,
    ← List.flatMap_map Prod.fst Step.references, List.zipIdx_map_fst]

/-- An id that stands before another among the ids of the mentions is mentioned before it. -/
theorem mentionedBefore_of_standsBefore {x y : String}
    (h : StandsBefore (f.mentions.map Prod.snd) x y) : f.MentionedBefore x y := by
  obtain ⟨before, behind, hsplit, hne, hnot⟩ := h
  obtain ⟨ms, ms', hmentions, hms, hms'⟩ := List.map_eq_append_iff.mp hsplit
  obtain ⟨m, rest, rfl, rfl, -⟩ := List.map_eq_cons_iff.mp hms'
  obtain ⟨role, id⟩ := m
  have hordered := f.mentions_ordered
  rw [hmentions] at hordered
  have hlater := (List.pairwise_cons.mp (List.pairwise_append.mp hordered).2.1).1
  refine ⟨role, mem_mentions.mp (by rw [hmentions]; simp), ?_⟩
  intro role' hrole'
  have hmem := mem_mentions.mpr hrole'
  rw [hmentions, List.mem_append, List.mem_cons] at hmem
  rcases hmem with hin | heq | hin
  · exact absurd (hms ▸ List.mem_map_of_mem hin) hnot
  · cases heq
    exact absurd rfl hne
  · exact hlater _ hin

/-- **The references of a flow are the ids that have a role in it, by first mention.** -/
theorem listsMentioned_references (f : FlowRecord) : f.ListsMentioned f.references := by
  have hcollected : Collected (f.mentions.map Prod.snd) f.references := by
    have hrun := Collected.initial.run (f.steps.flatMap Step.references)
    rw [List.nil_append, ← map_snd_mentions] at hrun
    rw [references, ← map_snd_mentions]
    exact hrun
  constructor
  case mem =>
    intro id
    rw [hcollected.mem, List.mem_map]
    constructor
    · rintro ⟨⟨role, id⟩, hmention, rfl⟩
      exact ⟨role, mem_mentions.mp hmention⟩
    · rintro ⟨role, hrole⟩
      exact ⟨(role, id), mem_mentions.mpr hrole, rfl⟩
  case nodup =>
    apply hcollected.ordered.imp
    rintro x y ⟨-, -, -, hne, -⟩
    exact hne.symm
  case ordered => exact hcollected.ordered.imp mentionedBefore_of_standsBefore

end FlowRecord

/-! ## In the report -/

/-- The ids that the flow refers to and the map does not declare. -/
def Audit.missingNodes (a : Audit) (f : FlowRecord) : List String :=
  f.references.filter fun id => !a.document.declares id

/-- What an audit says about the nodes of a flow: the references are the one list of the ids with a
role in the flow, and its single record names those that are not declared. -/
structure Audit.ListsMissingNodes (a : Audit) (name : String) (f : FlowRecord) : Prop where
  references : ∀ ids, f.ListsMentioned ids ↔ ids = f.references
  passes : (∀ id ∈ f.references, a.document.declares id = true) →
    a.report.checksOf .flows name "existence" = [flowRecord name "existence" .pass
      ("all nodes referenced by " ++ toString f.steps.length ++ " steps exist")]
  fails : (∃ id ∈ f.references, a.document.declares id = false) →
    a.report.checksOf .flows name "existence" = [flowRecord name "existence" .fail
      ("missing nodes: " ++ Text.joinWith ", " (a.missingNodes f))]
  fails_iff : (a.report.checksOf .flows name "existence").map (·.status) = [.fail] ↔
    ∃ id ∈ f.references, a.document.declares id = false

namespace Audit

variable {a a' : Audit} {name : String} {f : FlowRecord}

theorem missingNodes_eq_nil_iff :
    a.missingNodes f = [] ↔ ∀ id ∈ f.references, a.document.declares id = true := by
  unfold missingNodes
  rw [List.filter_eq_nil_iff]
  simp

theorem missingNodes_ne_nil_iff :
    a.missingNodes f ≠ [] ↔ ∃ id ∈ f.references, a.document.declares id = false := by
  rw [ne_eq, missingNodes_eq_nil_iff]
  simp

theorem existence_of_declared (h : a.missingNodes f = []) :
    f.existence name a.document.declares = flowRecord name "existence" .pass
      ("all nodes referenced by " ++ toString f.steps.length ++ " steps exist") := by
  unfold missingNodes at h
  unfold FlowRecord.existence
  rw [h]

theorem existence_of_missing (h : a.missingNodes f ≠ []) :
    f.existence name a.document.declares = flowRecord name "existence" .fail
      ("missing nodes: " ++ Text.joinWith ", " (a.missingNodes f)) := by
  unfold missingNodes at h ⊢
  unfold FlowRecord.existence
  split
  · rename_i hnone
    exact absurd hnone h
  · rfl

theorem listsMissingNodes (hf : (name, f) ∈ a.document.flows.entries) :
    a.ListsMissingNodes name f := by
  have hrecords := (a.checksOf_flows hf).1
  constructor
  case references =>
    intro ids
    constructor
    · exact f.listsMentioned_references.unique
    · rintro rfl
      exact f.listsMentioned_references
  case passes =>
    intro hall
    rw [hrecords, existence_of_declared (missingNodes_eq_nil_iff.mpr hall)]
  case fails =>
    intro hsome
    rw [hrecords, existence_of_missing (missingNodes_ne_nil_iff.mpr hsome)]
  case fails_iff =>
    rw [hrecords, ← missingNodes_ne_nil_iff]
    by_cases h : a.missingNodes f = []
    · rw [existence_of_declared h]
      simp [flowRecord, h]
    · rw [existence_of_missing h]
      simp [flowRecord, h]

/-- With more nodes declared fewer are missing, and those in the same order. -/
theorem missingNodes_sublist
    (h : ∀ id, a.document.declares id = true → a'.document.declares id = true) :
    (a'.missingNodes f).Sublist (a.missingNodes f) := by
  apply List.monotone_filter_right
  intro id hid
  rw [Bool.not_eq_true'] at hid ⊢
  by_contra hdeclared
  rw [Bool.not_eq_false] at hdeclared
  rw [h id hdeclared] at hid
  cases hid

end Audit

/-- **A flow names each missing node once, by first mention.** Declaring more nodes takes ids out of
that list and does nothing else to it, so a flow that passes goes on to pass. -/
theorem missing_nodes_are_named_once (a : Audit) {name : String} {f : FlowRecord}
    (hf : (name, f) ∈ a.document.flows.entries) :
    a.ListsMissingNodes name f ∧
      ∀ a' : Audit, (name, f) ∈ a'.document.flows.entries →
        (∀ id, a.document.declares id = true → a'.document.declares id = true) →
        (a'.missingNodes f).Sublist (a.missingNodes f) ∧
        ((a.report.checksOf .flows name "existence").map (·.status) = [.pass] →
          (a'.report.checksOf .flows name "existence").map (·.status) = [.pass]) := by
  refine ⟨Audit.listsMissingNodes hf, ?_⟩
  intro a' hf' hmore
  have hsublist : (a'.missingNodes f).Sublist (a.missingNodes f) := Audit.missingNodes_sublist hmore
  refine ⟨hsublist, ?_⟩
  intro hpass
  have hnone : a.missingNodes f = [] := by
    by_contra hsome
    rw [(Audit.listsMissingNodes hf).fails (Audit.missingNodes_ne_nil_iff.mp hsome)] at hpass
    cases hpass
  have hnone' : a'.missingNodes f = [] := List.eq_nil_of_sublist_nil (hnone ▸ hsublist)
  rw [(Audit.listsMissingNodes hf').passes (Audit.missingNodes_eq_nil_iff.mp hnone')]
  rfl

/-- A flow that mentions a node as a step, behind a jump and behind arms, and a node named like an
end. -/
def signUpFlow : FlowRecord where
  steps :=
    [{ node := "form", next := .target "mail" },
     { node := "user", next := .branch (.ofList [("retry", "form"), ("ok", "DONE"),
        ("full", "queue"), ("again", "form")]) },
     { node := "DONE", next := .target "FAIL" }, { node := "mail" }]

/-- A map with that flow and these nodes. -/
def signUpAudit (ids : List String) : Audit where
  sources := .ofList []
  document :=
    { nodes := .ofList (ids.map fun id => (id, {}))
      flows := .ofList [("sign up", signUpFlow)] }
  root := ⟨""⟩

/-- With one more node declared the list loses one id. -/
theorem sign_up_flow_lacks_fewer :
    let a := signUpAudit ["user"]
    let a' := signUpAudit ["mail", "user"]
    ("sign up", signUpFlow) ∈ a.document.flows.entries ∧
      ("sign up", signUpFlow) ∈ a'.document.flows.entries ∧
      (∀ id, a.document.declares id = true → a'.document.declares id = true) ∧
      signUpFlow.references = ["form", "mail", "user", "queue", "DONE"] ∧
      (a.report.checksOf .flows "sign up" "existence").map (·.message) =
        ["missing nodes: form, mail, queue, DONE"] ∧
      (a'.report.checksOf .flows "sign up" "existence").map (·.message) =
        ["missing nodes: form, queue, DONE"] ∧
      a.ListsMissingNodes "sign up" signUpFlow ∧
      (a'.missingNodes signUpFlow).Sublist (a.missingNodes signUpFlow) := by
  intro a a'
  have hmem : ("sign up", signUpFlow) ∈ a.document.flows.entries := by decide
  have hmem' : ("sign up", signUpFlow) ∈ a'.document.flows.entries := by decide
  have hmore : ∀ id, a.document.declares id = true → a'.document.declares id = true := by
    intro id hid
    have huser : id ∈ ["user"] := Registry.contains_iff.mp hid
    obtain rfl := List.mem_singleton.mp huser
    decide
  obtain ⟨hlists, hgrown⟩ := missing_nodes_are_named_once a hmem
  exact ⟨hmem, hmem', hmore, by decide, by decide, by decide, hlists, (hgrown a' hmem' hmore).1⟩

end ContractAudit
