import ContractAudit.Proofs.Flow.References

/-!
# The roles of a node in a flow

A role is a place in a flow where a node is named: as the node of a step, as the word behind a
step, or as the word of an arm. `HasRole` says when a node has a role, and `RoleBefore` in which
order the places of a flow come. Together they leave one list of all roles in a flow, each with its
node (`mem_mentions`, `mentions_ordered`). The impact query keeps the part of that list that is
about its node (`rolesOf_listsRoles`).
-/

namespace ContractAudit

/-! ## Words that are no nodes -/

namespace Destination

/-- The words behind a step that lead to no node. -/
def IsKeyword (raw : String) : Prop := raw = "next" ∨ raw = "DONE" ∨ raw = "FAIL"

theorem node?_ofString_of_isKeyword {raw : String} (h : IsKeyword raw) :
    (ofString raw).node? = none := by
  rcases h with rfl | rfl | rfl
  · rfl
  · rfl
  · rfl

theorem node?_ofString_of_not_isKeyword {raw : String} (h : ¬ IsKeyword raw) :
    (ofString raw).node? = some raw := by
  unfold IsKeyword at h
  rw [not_or, not_or] at h
  unfold ofString
  rw [if_neg h.1, if_neg h.2.1, if_neg h.2.2]
  rfl

theorem node?_ofString_eq_some_iff {raw id : String} :
    (ofString raw).node? = some id ↔ raw = id ∧ ¬ IsKeyword id := by
  by_cases hkey : IsKeyword raw
  · rw [node?_ofString_of_isKeyword hkey]
    constructor
    · intro h
      cases h
    · rintro ⟨rfl, hnot⟩
      exact absurd hkey hnot
  · rw [node?_ofString_of_not_isKeyword hkey, Option.some.injEq]
    constructor
    · rintro rfl
      exact ⟨rfl, hkey⟩
    · exact And.left

end Destination

/-- What follows a step leads to this node. -/
def Continuation.LeadsTo (id : String) : Continuation → Prop
  | .target raw => raw = id ∧ ¬ Destination.IsKeyword id
  | .branch arms => id ∈ arms.values ∧ ¬ Destination.IsKeyword id

theorem Continuation.mem_nodeTargets {c : Continuation} {id : String} :
    id ∈ c.nodeTargets ↔ c.LeadsTo id := by
  cases c with
  | target raw =>
      unfold nodeTargets LeadsTo
      rw [Option.mem_toList]
      exact Destination.node?_ofString_eq_some_iff
  | branch arms =>
      unfold nodeTargets LeadsTo
      rw [List.mem_filterMap]
      constructor
      · rintro ⟨raw, hraw, hnode⟩
        obtain ⟨rfl, hkey⟩ := Destination.node?_ofString_eq_some_iff.mp hnode
        exact ⟨hraw, hkey⟩
      · rintro ⟨hraw, hkey⟩
        exact ⟨id, hraw, Destination.node?_ofString_eq_some_iff.mpr ⟨rfl, hkey⟩⟩

/-! ## Roles and their order -/

/-- The step at which a role is played. -/
def FlowRole.index : FlowRole → Nat
  | .step i => i
  | .jump i => i
  | .branch i _ => i

namespace FlowRecord

/-- The node has this role in the flow. A keyword leads nowhere, even where a node is named like
one. -/
def HasRole (f : FlowRecord) (id : String) : FlowRole → Prop
  | .step i => ∃ s, f.steps[i]? = some s ∧ s.node = id
  | .jump i => ∃ s, f.steps[i]? = some s ∧ s.next = .target id ∧ ¬ Destination.IsKeyword id
  | .branch i label => ∃ s arms, f.steps[i]? = some s ∧ s.next = .branch arms ∧
      (label, id) ∈ arms.entries ∧ ¬ Destination.IsKeyword id

/-- One role comes before another: it is played at an earlier step, or at the same step by the node
of the step, or there by an arm that stands before the other. -/
inductive RoleBefore (f : FlowRecord) : FlowRole → FlowRole → Prop where
  | earlier {r r' : FlowRole} : r.index < r'.index → RoleBefore f r r'
  | jump (i : Nat) : RoleBefore f (.step i) (.jump i)
  | branch (i : Nat) (label : String) : RoleBefore f (.step i) (.branch i label)
  | arms {i : Nat} {s : Step} {arms : Registry String} {label label' : String} :
      f.steps[i]? = some s → s.next = .branch arms → [label, label'].Sublist arms.names →
      RoleBefore f (.branch i label) (.branch i label')

/-- The list holds the roles of the node, each once, in their order. -/
structure ListsRoles (f : FlowRecord) (id : String) (roles : List FlowRole) : Prop where
  mem : ∀ role, role ∈ roles ↔ f.HasRole id role
  nodup : roles.Nodup
  ordered : roles.Pairwise f.RoleBefore

/-- Two entries of a list without repetition stand in one order only. -/
theorem not_sublist_swap {α : Type} {x y : α} : ∀ {l : List α}, l.Nodup → [x, y].Sublist l →
    ¬ [y, x].Sublist l := by
  intro l
  induction l with
  | nil =>
      intro _ h
      cases h
  | cons z rest ih =>
      intro hnodup h h'
      obtain ⟨hz, hrest⟩ := List.nodup_cons.mp hnodup
      rcases List.sublist_cons_iff.mp h with hin | ⟨r, hr, hin⟩
      · rcases List.sublist_cons_iff.mp h' with hin' | ⟨r', hr', hin'⟩
        · exact ih hrest hin hin'
        · cases hr'
          exact hz (hin.subset (by simp))
      · cases hr
        rcases List.sublist_cons_iff.mp h' with hin' | ⟨r', hr', hin'⟩
        · exact hz (hin'.subset (by simp))
        · cases hr'
          exact hz (hin'.subset (by simp))

namespace RoleBefore

variable {f : FlowRecord} {r r' : FlowRole}

theorem index_le (h : f.RoleBefore r r') : r.index ≤ r'.index := by
  cases h with
  | earlier hlt => exact Nat.le_of_lt hlt
  | jump i => exact Nat.le_refl i
  | branch i label => exact Nat.le_refl i
  | arms _ _ _ => exact Nat.le_refl _

/-- Of two roles at most one comes before the other. Labels are unique, so this holds of the arms of
one step too. -/
theorem asymm (h : f.RoleBefore r r') : ¬ f.RoleBefore r' r := by
  intro h'
  cases h with
  | earlier hlt => exact Nat.not_le_of_lt hlt h'.index_le
  | jump i =>
      cases h' with
      | earlier hlt => exact Nat.lt_irrefl i hlt
  | branch i label =>
      cases h' with
      | earlier hlt => exact Nat.lt_irrefl i hlt
  | @arms i s arms label label' hs hc hsub =>
      cases h' with
      | earlier hlt => exact Nat.lt_irrefl i hlt
      | arms hs' hc' hsub' =>
          rw [hs] at hs'
          cases hs'
          rw [hc] at hc'
          cases hc'
          exact not_sublist_swap arms.nodup hsub hsub'

/-- No role comes before itself. -/
theorem ne (h : f.RoleBefore r r') : r ≠ r' := by
  rintro rfl
  exact h.asymm h

end RoleBefore

end FlowRecord

/-! ## Mentions

Three parts of the library walk a flow: the check of its nodes, the check of its arms and the impact
query. They come upon the same list, every role of every node with that node, and each keeps its own
part of it. -/

/-- The nodes that a continuation leads to, with the roles they have by it. -/
def Continuation.mentions (index : Nat) : Continuation → List (FlowRole × String)
  | .target raw => (Destination.ofString raw).node?.toList.map fun id => (.jump index, id)
  | .branch arms => arms.entries.filterMap fun (label, raw) =>
      (Destination.ofString raw).node?.map fun id => (.branch index label, id)

def Step.mentions (index : Nat) (s : Step) : List (FlowRole × String) :=
  (.step index, s.node) :: s.next.mentions index

/-- The roles of a flow in their order, each with the node that has it. -/
def FlowRecord.mentions (f : FlowRecord) : List (FlowRole × String) :=
  f.steps.zipIdx.flatMap fun (s, index) => s.mentions index

theorem Continuation.mentions_target (raw : String) (index : Nat) :
    (target raw).mentions index =
      (Destination.ofString raw).node?.toList.map fun id => (.jump index, id) := rfl

theorem Continuation.mem_mentions {c : Continuation} {index : Nat} {role : FlowRole} {id : String} :
    (role, id) ∈ c.mentions index ↔
      (role = .jump index ∧ c = .target id ∧ ¬ Destination.IsKeyword id) ∨
      ∃ arms label, role = .branch index label ∧ c = .branch arms ∧ (label, id) ∈ arms.entries ∧
        ¬ Destination.IsKeyword id := by
  cases c with
  | target raw =>
      rw [mentions_target, List.mem_map]
      constructor
      · rintro ⟨id', hid, heq⟩
        rw [Option.mem_toList] at hid
        obtain ⟨rfl, hkey⟩ := Destination.node?_ofString_eq_some_iff.mp hid
        cases heq
        exact Or.inl ⟨rfl, rfl, hkey⟩
      · rintro (⟨rfl, hc, hkey⟩ | ⟨arms, label, -, hc, -⟩)
        · cases hc
          refine ⟨id, ?_, rfl⟩
          rw [Option.mem_toList]
          exact Destination.node?_ofString_of_not_isKeyword hkey
        · cases hc
  | branch arms =>
      unfold mentions
      rw [List.mem_filterMap]
      constructor
      · rintro ⟨⟨label, raw⟩, harm, hmention⟩
        obtain ⟨id', hnode, heq⟩ := Option.map_eq_some_iff.mp hmention
        obtain ⟨rfl, hkey⟩ := Destination.node?_ofString_eq_some_iff.mp hnode
        cases heq
        exact Or.inr ⟨arms, label, rfl, rfl, harm, hkey⟩
      · rintro (⟨-, hc, -⟩ | ⟨arms', label, rfl, hc, harm, hkey⟩)
        · cases hc
        · cases hc
          refine ⟨(label, id), harm, ?_⟩
          dsimp only
          rw [Destination.node?_ofString_of_not_isKeyword hkey]
          rfl

theorem Step.mem_mentions {s : Step} {index : Nat} {role : FlowRole} {id : String} :
    (role, id) ∈ s.mentions index ↔
      (role = .step index ∧ s.node = id) ∨ (role, id) ∈ s.next.mentions index := by
  unfold mentions
  rw [List.mem_cons, Prod.mk.injEq, eq_comm (a := id)]

/-- What a step mentions has its role at that step. -/
theorem Step.index_of_mem_mentions {s : Step} {index : Nat} {role : FlowRole} {id : String}
    (h : (role, id) ∈ s.mentions index) : role.index = index := by
  rcases Step.mem_mentions.mp h with ⟨rfl, -⟩ | h
  · rfl
  · rcases Continuation.mem_mentions.mp h with ⟨rfl, -⟩ | ⟨arms, label, rfl, -⟩
    · rfl
    · rfl

namespace FlowRecord

variable {f : FlowRecord} {id : String}

/-- **A flow mentions a node with exactly the roles that the node has.** -/
theorem mem_mentions {role : FlowRole} : (role, id) ∈ f.mentions ↔ f.HasRole id role := by
  have hat : (role, id) ∈ f.mentions ↔ ∃ (s : Step) (i : Nat),
      f.steps[i]? = some s ∧ (role, id) ∈ s.mentions i := by
    unfold mentions
    rw [List.mem_flatMap]
    constructor
    · rintro ⟨⟨s, i⟩, hs, hrole⟩
      exact ⟨s, i, List.mem_zipIdx_iff_getElem?.mp hs, hrole⟩
    · rintro ⟨s, i, hs, hrole⟩
      exact ⟨(s, i), List.mem_zipIdx_iff_getElem?.mpr hs, hrole⟩
  rw [hat]
  constructor
  · rintro ⟨s, i, hs, hrole⟩
    rcases Step.mem_mentions.mp hrole with ⟨rfl, hnode⟩ | hrole
    · exact ⟨s, hs, hnode⟩
    · rcases Continuation.mem_mentions.mp hrole with
        ⟨rfl, hc, hkey⟩ | ⟨arms, label, rfl, hc, harm, hkey⟩
      · exact ⟨s, hs, hc, hkey⟩
      · exact ⟨s, arms, hs, hc, harm, hkey⟩
  · intro h
    cases role with
    | step i =>
        obtain ⟨s, hs, hnode⟩ := h
        exact ⟨s, i, hs, Step.mem_mentions.mpr (Or.inl ⟨rfl, hnode⟩)⟩
    | jump i =>
        obtain ⟨s, hs, hc, hkey⟩ := h
        exact ⟨s, i, hs, Step.mem_mentions.mpr
          (Or.inr (Continuation.mem_mentions.mpr (Or.inl ⟨rfl, hc, hkey⟩)))⟩
    | branch i label =>
        obtain ⟨s, arms, hs, hc, harm, hkey⟩ := h
        exact ⟨s, i, hs, Step.mem_mentions.mpr
          (Or.inr (Continuation.mem_mentions.mpr (Or.inr ⟨arms, label, rfl, hc, harm, hkey⟩)))⟩

/-- The arms of a step come in the order in which they stand. -/
theorem continuationMentions_ordered {s : Step} {index : Nat} (hs : f.steps[index]? = some s) :
    (s.next.mentions index).Pairwise fun m m' => f.RoleBefore m.1 m'.1 := by
  cases hc : s.next with
  | target raw =>
      rw [Continuation.mentions_target]
      cases (Destination.ofString raw).node? with
      | none => exact List.Pairwise.nil
      | some id => exact List.pairwise_singleton ..
  | branch arms =>
      unfold Continuation.mentions
      rw [List.pairwise_filterMap, List.pairwise_iff_forall_sublist]
      rintro ⟨label, raw⟩ ⟨label', raw'⟩ hsub m hm m' hm'
      obtain ⟨id, -, rfl⟩ := Option.map_eq_some_iff.mp hm
      obtain ⟨id', -, rfl⟩ := Option.map_eq_some_iff.mp hm'
      exact .arms hs hc (hsub.map Prod.fst)

/-- At one step the node of the step comes first. -/
theorem stepMentions_ordered {s : Step} {index : Nat} (hs : f.steps[index]? = some s) :
    (s.mentions index).Pairwise fun m m' => f.RoleBefore m.1 m'.1 := by
  unfold Step.mentions
  rw [List.pairwise_cons]
  refine ⟨?_, continuationMentions_ordered hs⟩
  rintro ⟨role, id⟩ hrole
  rcases Continuation.mem_mentions.mp hrole with ⟨rfl, -⟩ | ⟨arms, label, rfl, -⟩
  · exact .jump index
  · exact .branch index label

theorem zipIdx_ordered {α : Type} (l : List α) :
    l.zipIdx.Pairwise fun e e' => e.2 < e'.2 := by
  rw [← List.pairwise_map (f := Prod.snd), List.zipIdx_map_snd]
  exact List.pairwise_lt_range'

/-- **The mentions of a flow come in the order of their roles.** -/
theorem mentions_ordered (f : FlowRecord) :
    f.mentions.Pairwise fun m m' => f.RoleBefore m.1 m'.1 := by
  unfold mentions
  rw [List.pairwise_flatMap]
  constructor
  · rintro ⟨s, i⟩ hs
    exact stepMentions_ordered (List.mem_zipIdx_iff_getElem?.mp hs)
  · apply (zipIdx_ordered f.steps).imp
    rintro ⟨s, i⟩ ⟨s', i'⟩ hlt ⟨role, id⟩ hrole ⟨role', id'⟩ hrole'
    apply RoleBefore.earlier
    rw [Step.index_of_mem_mentions hrole, Step.index_of_mem_mentions hrole']
    exact hlt

end FlowRecord

/-! ## The roles of one node -/

theorem Continuation.rolesOf_eq (c : Continuation) (id : String) (index : Nat) :
    c.rolesOf id index = ((c.mentions index).filter (·.2 = id)).map Prod.fst := by
  cases c with
  | target raw =>
      show (if (Destination.ofString raw).node? = some id then [FlowRole.jump index] else []) = _
      rw [mentions_target]
      cases (Destination.ofString raw).node? with
      | none => rfl
      | some node =>
          by_cases h : node = id
          · simp [h]
          · simp [h]
  | branch arms =>
      unfold mentions
      rw [List.filter_filterMap, List.map_filterMap]
      show arms.entries.filterMap _ = _
      congr 1
      funext ⟨label, raw⟩
      dsimp only
      cases (Destination.ofString raw).node? with
      | none => rfl
      | some node =>
          by_cases h : node = id
          · simp [h, Option.filter]
          · simp [h, Option.filter]

theorem Step.rolesOf_eq (s : Step) (id : String) (index : Nat) :
    s.rolesOf id index = ((s.mentions index).filter (·.2 = id)).map Prod.fst := by
  unfold rolesOf mentions
  rw [Continuation.rolesOf_eq, List.filter_cons]
  by_cases h : s.node = id
  · simp [h]
  · simp [h]

namespace FlowRecord

/-- The query keeps the mentions of its node. -/
theorem rolesOf_eq (f : FlowRecord) (id : String) :
    f.rolesOf id = (f.mentions.filter (·.2 = id)).map Prod.fst := by
  unfold rolesOf mentions
  rw [List.filter_flatMap, List.map_flatMap]
  simp only [Step.rolesOf_eq]

/-- **The query finds the roles of a node, each once and in their order.** -/
theorem rolesOf_listsRoles (f : FlowRecord) (id : String) : f.ListsRoles id (f.rolesOf id) := by
  have hordered : (f.rolesOf id).Pairwise f.RoleBefore := by
    rw [rolesOf_eq, List.pairwise_map]
    exact f.mentions_ordered.filter _
  constructor
  case mem =>
    intro role
    rw [rolesOf_eq, ← mem_mentions, List.mem_map]
    constructor
    · rintro ⟨⟨role', id'⟩, hmention, rfl⟩
      obtain ⟨hmem, hid⟩ := List.mem_filter.mp hmention
      rw [decide_eq_true_eq] at hid
      exact hid ▸ hmem
    · intro hmem
      exact ⟨(role, id), List.mem_filter.mpr ⟨hmem, decide_eq_true rfl⟩, rfl⟩
  case nodup => exact hordered.imp RoleBefore.ne
  case ordered => exact hordered

end FlowRecord

end ContractAudit
