import ContractAudit.Proofs.Audit.ReportStructure
import ContractAudit.Proofs.Flow.Roles
import Mathlib.Data.List.Sort

/-!
# Arms that lead out of a flow

An arm of a branch should lead to a step of its own flow; a plain jump may leave it. The arms that
lead out are part of the list of all roles in the flow, so they are found each once and in order
(`listsStrayArms_strayArms`), and an audit says nothing else about the arms of a flow
(`stray_arms_warn`).
-/

namespace ContractAudit

/-! ## Arms of a flow -/

/-- The role that an arm gives the node it leads to. -/
def ArmTarget.role (arm : ArmTarget) : FlowRole := .branch (arm.position - 1) arm.label

namespace FlowRecord

/-- The arm stands at a step of the flow and leads to a node at which no step of the flow is. The
step of the arm counts among the steps. -/
structure IsStray (f : FlowRecord) (arm : ArmTarget) : Prop where
  position_pos : 0 < arm.position
  stands : f.HasRole arm.target arm.role
  leadsOut : ∀ s ∈ f.steps, s.node ≠ arm.target

/-- One arm comes before another: at an earlier step, or at the same step before the other. -/
def ArmBefore (f : FlowRecord) (arm other : ArmTarget) : Prop := f.RoleBefore arm.role other.role

instance (f : FlowRecord) : Std.Asymm f.ArmBefore := ⟨fun _ _ => RoleBefore.asymm⟩

/-- The list holds the arms that lead out of the flow, by step and then by arm. -/
structure ListsStrayArms (f : FlowRecord) (strays : List ArmTarget) : Prop where
  mem : ∀ arm, arm ∈ strays ↔ f.IsStray arm
  ordered : strays.Pairwise f.ArmBefore

/-- There is one such list. -/
theorem ListsStrayArms.unique {f : FlowRecord} {strays others : List ArmTarget}
    (h : f.ListsStrayArms strays) (h' : f.ListsStrayArms others) : others = strays :=
  h'.ordered.eq_of_mem_iff h.ordered fun arm => (h'.mem arm).trans (h.mem arm).symm

end FlowRecord

/-! ## Arms among the mentions -/

/-- The arm that a mention stands for, if it stands for one. -/
def mentionedArm? : FlowRole × String → Option ArmTarget
  | (.branch index label, target) => some ⟨label, target, index + 1⟩
  | _ => none

theorem mentionedArm?_eq_some_iff {m : FlowRole × String} {arm : ArmTarget} :
    mentionedArm? m = some arm ↔ 0 < arm.position ∧ m = (arm.role, arm.target) := by
  obtain ⟨label, target, position⟩ := arm
  obtain ⟨role, id⟩ := m
  unfold ArmTarget.role
  cases role with
  | step index => simp [mentionedArm?]
  | jump index => simp [mentionedArm?]
  | branch index label' =>
      simp only [mentionedArm?, Option.some.injEq, ArmTarget.mk.injEq, Prod.mk.injEq,
        FlowRole.branch.injEq]
      constructor
      · rintro ⟨rfl, rfl, rfl⟩
        exact ⟨Nat.succ_pos index, ⟨rfl, rfl⟩, rfl⟩
      · rintro ⟨hpos, ⟨rfl, rfl⟩, rfl⟩
        exact ⟨rfl, rfl, Nat.sub_add_cancel hpos⟩

theorem Continuation.map_branchTargets (c : Continuation) (index : Nat) :
    (c.branchTargets.map fun (label, id) => (⟨label, id, index + 1⟩ : ArmTarget)) =
      (c.mentions index).filterMap mentionedArm? := by
  cases c with
  | target raw =>
      rw [mentions_target]
      cases (Destination.ofString raw).node? with
      | none => rfl
      | some id => rfl
  | branch arms =>
      unfold branchTargets mentions
      rw [List.map_filterMap, List.filterMap_filterMap]
      apply List.filterMap_congr
      rintro ⟨label, raw⟩ -
      dsimp only
      cases (Destination.ofString raw).node? with
      | none => rfl
      | some id => rfl

namespace FlowRecord

variable {f : FlowRecord}

theorem armTargets_eq (f : FlowRecord) : f.armTargets = f.mentions.filterMap mentionedArm? := by
  unfold armTargets mentions
  rw [List.filterMap_flatMap]
  apply List.flatMap_congr
  rintro ⟨s, index⟩ -
  exact s.next.map_branchTargets index

theorem mem_armTargets {arm : ArmTarget} :
    arm ∈ f.armTargets ↔ 0 < arm.position ∧ f.HasRole arm.target arm.role := by
  rw [armTargets_eq, List.mem_filterMap]
  constructor
  · rintro ⟨m, hm, harm⟩
    obtain ⟨hpos, rfl⟩ := mentionedArm?_eq_some_iff.mp harm
    exact ⟨hpos, mem_mentions.mp hm⟩
  · rintro ⟨hpos, hrole⟩
    exact ⟨_, mem_mentions.mpr hrole, mentionedArm?_eq_some_iff.mpr ⟨hpos, rfl⟩⟩

theorem armTargets_ordered (f : FlowRecord) : f.armTargets.Pairwise f.ArmBefore := by
  rw [armTargets_eq, List.pairwise_filterMap]
  apply f.mentions_ordered.imp
  intro m m' hbefore arm harm arm' harm'
  obtain ⟨-, rfl⟩ := mentionedArm?_eq_some_iff.mp harm
  obtain ⟨-, rfl⟩ := mentionedArm?_eq_some_iff.mp harm'
  exact hbefore

/-- **The arms found to lead out of a flow are those that do.** -/
theorem listsStrayArms_strayArms (f : FlowRecord) : f.ListsStrayArms f.strayArms where
  mem := by
    intro arm
    unfold strayArms stepNodes
    rw [List.mem_filter, mem_armTargets]
    constructor
    · rintro ⟨⟨hpos, hrole⟩, hout⟩
      refine ⟨hpos, hrole, ?_⟩
      intro s hs hnode
      have hin : arm.target ∈ f.steps.map Step.node := List.mem_map.mpr ⟨s, hs, hnode⟩
      simp [hin] at hout
    · rintro ⟨hpos, hrole, hout⟩
      refine ⟨⟨hpos, hrole⟩, ?_⟩
      have hnot : arm.target ∉ f.steps.map Step.node := by
        intro hin
        obtain ⟨s, hs, hnode⟩ := List.mem_map.mp hin
        exact hout s hs hnode
      simpa using hnot
  ordered := f.armTargets_ordered.filter _

end FlowRecord

/-! ## One more step

A step put in between moves the arms behind it on by one. If its own arms all lead to an end, it
adds no arm that leads to a node, and it settles those that lead to its own. -/

/-- All arms of the step, if it has any, lead to words that are no nodes. -/
def Step.ArmsEnd (s : Step) : Prop :=
  ∀ arms, s.next = .branch arms → ∀ raw ∈ arms.values, Destination.IsKeyword raw

theorem Step.branchTargets_of_armsEnd {s : Step} (h : s.ArmsEnd) : s.next.branchTargets = [] := by
  unfold ArmsEnd at h
  cases hnext : s.next with
  | target raw => rfl
  | branch arms =>
      unfold Continuation.branchTargets
      rw [List.filterMap_eq_nil_iff]
      rintro ⟨label, raw⟩ harm
      have hkey := h arms hnext raw (List.mem_map.mpr ⟨_, harm, rfl⟩)
      dsimp only
      rw [Destination.node?_ofString_of_isKeyword hkey]
      rfl

/-- The arm where it stands once another step has been put in behind the first `k`. -/
def ArmTarget.movedPast (k : Nat) (arm : ArmTarget) : ArmTarget :=
  { arm with position := if arm.position ≤ k then arm.position else arm.position + 1 }

namespace FlowRecord

variable {f f' : FlowRecord} {s : Step} {before behind : List Step}

theorem armTargets_putIn (hf : f.steps = before ++ behind) (hf' : f'.steps = before ++ s :: behind)
    (hs : s.ArmsEnd) : f'.armTargets = f.armTargets.map (·.movedPast before.length) := by
  unfold armTargets
  rw [hf, hf', List.zipIdx_append, List.zipIdx_append, List.flatMap_append, List.flatMap_append,
    List.map_append, List.zipIdx_cons, List.flatMap_cons, List.map_flatMap, List.map_flatMap,
    List.zipIdx_succ, List.flatMap_map]
  dsimp only
  rw [Step.branchTargets_of_armsEnd hs, List.map_nil, List.nil_append]
  congr 1
  · apply List.flatMap_congr
    rintro ⟨s', i⟩ hs'
    have hi : i + 1 ≤ before.length := by
      have := List.snd_lt_of_mem_zipIdx hs'
      omega
    rw [List.map_map]
    apply List.map_congr_left
    rintro ⟨label, target⟩ -
    simp [ArmTarget.movedPast, hi]
  · apply List.flatMap_congr
    rintro ⟨s', i⟩ hs'
    have hi : ¬ i + 1 ≤ before.length := by
      have := List.le_snd_of_mem_zipIdx hs'
      omega
    rw [List.map_map]
    apply List.map_congr_left
    rintro ⟨label, target⟩ -
    simp [ArmTarget.movedPast, hi]

/-- What then leads out is what did before, but for the arms that lead to the new step. -/
theorem strayArms_putIn (hf : f.steps = before ++ behind) (hf' : f'.steps = before ++ s :: behind)
    (hs : s.ArmsEnd) : f'.strayArms =
      (f.strayArms.filter (·.target ≠ s.node)).map (·.movedPast before.length) := by
  unfold strayArms
  rw [armTargets_putIn hf hf' hs, List.filter_map, List.filter_filter]
  congr 1
  apply List.filter_congr
  intro arm _
  have hnodes : arm.target ∈ f'.stepNodes ↔ arm.target = s.node ∨ arm.target ∈ f.stepNodes := by
    unfold stepNodes
    rw [hf, hf', List.map_append, List.map_append, List.map_cons, List.mem_append, List.mem_append,
      List.mem_cons]
    exact or_left_comm
  show (!f'.stepNodes.contains arm.target) = _
  simp [hnodes]

/-- A flow warns once for each arm that leads out of it. -/
theorem countP_warn_reachability (f : FlowRecord) (name : String) :
    (f.reachability name).countP (·.status = .warn) = f.strayArms.length := by
  unfold reachability
  split
  · rename_i hnone
    rw [hnone]
    rfl
  · rw [List.countP_map, List.countP_eq_length]
    intro arm _
    rfl

theorem reachability_eq_of_steps {name : String} (h : f'.steps = f.steps) :
    f'.reachability name = f.reachability name := by
  have hstrays : f'.strayArms = f.strayArms := by
    unfold strayArms armTargets stepNodes
    rw [h]
  unfold reachability
  rw [hstrays]

end FlowRecord

/-! ## In the report -/

/-- What an audit says about the arms of a flow: `strays` is the one list of those that lead out of
it, and its records are what that list asks for. No audit of a flow with the same steps says
anything else, whatever nodes its map declares and whatever its sources hold. -/
structure Audit.SettlesArms (a : Audit) (name : String) (f : FlowRecord)
    (strays : List ArmTarget) : Prop where
  listed : ∀ arms, f.ListsStrayArms arms ↔ arms = strays
  passes : strays = [] → a.report.checksOf .flows name "reachability" =
    [flowRecord name "reachability" .pass "every branch target is a step of this flow"]
  warns : strays ≠ [] → a.report.checksOf .flows name "reachability" = strays.map fun arm =>
    flowRecord name "reachability" .warn ("branch " ++ arm.label ++ " -> " ++ arm.target ++
      " (step " ++ toString arm.position ++ ") is not a step of this flow")
  stepsDecide : ∀ (other : Audit) (f' : FlowRecord), (name, f') ∈ other.document.flows.entries →
    f'.steps = f.steps → other.report.checksOf .flows name "reachability" =
      a.report.checksOf .flows name "reachability"

theorem Audit.settlesArms_strayArms (a : Audit) {name : String} {f : FlowRecord}
    (hf : (name, f) ∈ a.document.flows.entries) : a.SettlesArms name f f.strayArms := by
  have hrecords := (a.checksOf_flows hf).2
  constructor
  case listed =>
    intro arms
    constructor
    · exact f.listsStrayArms_strayArms.unique
    · rintro rfl
      exact f.listsStrayArms_strayArms
  case passes =>
    intro hnone
    rw [hrecords]
    unfold FlowRecord.reachability
    rw [hnone]
  case warns =>
    intro hsome
    rw [hrecords]
    unfold FlowRecord.reachability
    split
    · rename_i hnone
      exact absurd hnone hsome
    · rfl
  case stepsDecide =>
    intro other f' hf' hsteps
    rw [hrecords, (other.checksOf_flows hf').2]
    exact FlowRecord.reachability_eq_of_steps hsteps

/-- **Arms that lead out of a flow warn, each once.** A step whose own arms lead to an end may be
put in anywhere: the arms that lead to its node no longer warn, the others warn as before, with
their steps counted anew, and no warning is added. -/
theorem stray_arms_warn (a : Audit) {name : String} {f : FlowRecord}
    (hf : (name, f) ∈ a.document.flows.entries) :
    ∃ strays, a.SettlesArms name f strays ∧
      ∀ (a' : Audit) (f' : FlowRecord) (before : List Step) (s : Step) (behind : List Step),
        (name, f') ∈ a'.document.flows.entries → f.steps = before ++ behind →
        f'.steps = before ++ s :: behind → s.ArmsEnd →
        a'.SettlesArms name f'
          ((strays.filter (·.target ≠ s.node)).map (·.movedPast before.length)) ∧
        (a'.report.checksOf .flows name "reachability").countP (·.status = .warn) ≤
          (a.report.checksOf .flows name "reachability").countP (·.status = .warn) := by
  refine ⟨f.strayArms, a.settlesArms_strayArms hf, ?_⟩
  intro a' f' before s behind hf' hsteps hsteps' hs
  have hstrays := FlowRecord.strayArms_putIn hsteps hsteps' hs
  constructor
  · rw [← hstrays]
    exact a'.settlesArms_strayArms hf'
  · rw [(a.checksOf_flows hf).2, (a'.checksOf_flows hf').2, FlowRecord.countP_warn_reachability,
      FlowRecord.countP_warn_reachability, hstrays, List.length_map]
    exact List.length_filter_le ..

/-- A flow with a loop, a jump that leaves it, an arm to an end that a node is named like, and three
arms that lead out of it, two of them to one node. -/
def pollFlow : FlowRecord where
  steps :=
    [{ node := "job", next := .branch (.ofList [("retry", "job"), ("lost", "ghost"), ("ok", "next"),
        ("gone", "ghost")]) },
     { node := "DONE", next := .target "elsewhere" },
     { node := "job", next := .branch (.ofList [("halt", "DONE"), ("late", "alarm")]) }]

/-- The same flow with a step at one of those nodes. -/
def watchedFlow : FlowRecord where
  steps := pollFlow.steps.take 1 ++
    { node := "ghost", next := .branch (.ofList [("seen", "next"), ("unseen", "FAIL")]) } ::
      pollFlow.steps.drop 1

/-- A map of that flow alone, in which no node is declared. -/
def Audit.ofFlow (f : FlowRecord) : Audit where
  sources := .ofList []
  document := { flows := .ofList [("poll", f)] }
  root := ⟨""⟩

/-- The step settles two of the arms, and the third warns at its new place. -/
theorem watched_flow_warns_less :
    ("poll", pollFlow) ∈ (Audit.ofFlow pollFlow).document.flows.entries ∧
      ("poll", watchedFlow) ∈ (Audit.ofFlow watchedFlow).document.flows.entries ∧
      ((Audit.ofFlow pollFlow).report.checksOf .flows "poll" "reachability").map (·.message) =
        ["branch lost -> ghost (step 1) is not a step of this flow",
         "branch gone -> ghost (step 1) is not a step of this flow",
         "branch late -> alarm (step 3) is not a step of this flow"] ∧
      ((Audit.ofFlow watchedFlow).report.checksOf .flows "poll" "reachability").map (·.message) =
        ["branch late -> alarm (step 4) is not a step of this flow"] ∧
      (Audit.ofFlow pollFlow).SettlesArms "poll" pollFlow
        [⟨"lost", "ghost", 1⟩, ⟨"gone", "ghost", 1⟩, ⟨"late", "alarm", 3⟩] ∧
      (Audit.ofFlow watchedFlow).SettlesArms "poll" watchedFlow [⟨"late", "alarm", 4⟩] := by
  have hends : Step.ArmsEnd
      { node := "ghost", next := .branch (.ofList [("seen", "next"), ("unseen", "FAIL")]) } := by
    rintro arms ⟨⟩ raw hraw
    revert raw
    unfold Destination.IsKeyword
    decide
  have hmem : ("poll", pollFlow) ∈ (Audit.ofFlow pollFlow).document.flows.entries := by decide
  have hmem' : ("poll", watchedFlow) ∈ (Audit.ofFlow watchedFlow).document.flows.entries := by
    decide
  obtain ⟨strays, hsettled, hputIn⟩ := stray_arms_warn (Audit.ofFlow pollFlow) hmem
  have hstrays : strays = [⟨"lost", "ghost", 1⟩, ⟨"gone", "ghost", 1⟩, ⟨"late", "alarm", 3⟩] := by
    rw [← (hsettled.listed _).mp pollFlow.listsStrayArms_strayArms]
    decide
  subst hstrays
  refine ⟨hmem, hmem', by decide, by decide, hsettled, ?_⟩
  exact (hputIn (Audit.ofFlow watchedFlow) watchedFlow (pollFlow.steps.take 1) _
    (pollFlow.steps.drop 1) hmem' rfl rfl hends).1

end ContractAudit
