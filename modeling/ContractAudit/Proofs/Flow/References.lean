import ContractAudit.Audit.Flows
import ContractAudit.Impact.Basic

/-!
# The ids a flow refers to

Two parts of the library ask which nodes a flow has to do with: the check that they are declared
goes by `FlowRecord.references`, the impact query by the roles a node plays. Both look at the node
of each step and at the words that lead to a node, so an id is referred to exactly if it plays a
role (`rolesOf_eq_nil_iff`). An id spelled like a keyword counts as the node of a step and never as
a destination, for both alike.
-/

namespace ContractAudit

/-! ## Membership -/

theorem mem_foldl_addNew {id : String} : ∀ (ids seen : List String),
    id ∈ ids.foldl (fun seen id => if seen.contains id then seen else seen ++ [id]) seen ↔
      id ∈ seen ∨ id ∈ ids := by
  intro ids
  induction ids with
  | nil => simp
  | cons x rest ih =>
      intro seen
      rw [List.foldl_cons, ih]
      by_cases hx : seen.contains x = true
      · have hmem : x ∈ seen := by simpa using hx
        rw [if_pos hx]
        constructor
        · rintro (h | h)
          · exact Or.inl h
          · exact Or.inr (List.mem_cons_of_mem _ h)
        · rintro (h | h)
          · exact Or.inl h
          · rcases List.mem_cons.mp h with rfl | h
            · exact Or.inl hmem
            · exact Or.inr h
      · rw [if_neg hx]
        simp [or_assoc]

namespace FlowRecord

theorem mem_references {f : FlowRecord} {id : String} :
    id ∈ f.references ↔ ∃ s ∈ f.steps, id ∈ s.references := by
  unfold references
  rw [mem_foldl_addNew]
  simp [List.mem_flatMap]

end FlowRecord

/-! ## Roles -/

theorem Continuation.rolesOf_eq_nil_iff {id : String} {index : Nat} {c : Continuation} :
    c.rolesOf id index = [] ↔ id ∉ c.nodeTargets := by
  cases c with
  | target raw =>
      show (if (Destination.ofString raw).node? = some id then [FlowRole.jump index] else []) = [] ↔
        id ∉ (Destination.ofString raw).node?.toList
      rw [Option.mem_toList]
      split
      · rename_i h
        simp [h]
      · rename_i h
        simp [h]
  | branch arms =>
      simp only [rolesOf, nodeTargets, Registry.values]
      rw [List.filterMap_eq_nil_iff, List.mem_filterMap]
      constructor
      · rintro h ⟨raw, hraw, hnode⟩
        obtain ⟨⟨label, raw'⟩, harm, rfl⟩ := List.mem_map.mp hraw
        have := h _ harm
        simp [hnode] at this
      · rintro h ⟨label, raw⟩ harm
        have hne : ¬(Destination.ofString raw).node? = some id := fun hnode =>
          h ⟨raw, List.mem_map.mpr ⟨_, harm, rfl⟩, hnode⟩
        simp [hne]

theorem Step.rolesOf_eq_nil_iff {id : String} {index : Nat} {s : Step} :
    s.rolesOf id index = [] ↔ id ∉ s.references := by
  unfold rolesOf references
  rw [List.append_eq_nil_iff, Continuation.rolesOf_eq_nil_iff, List.mem_cons, not_or]
  have hstep : (if s.node = id then [FlowRole.step index] else []) = [] ↔ ¬ id = s.node := by
    split
    · rename_i h
      simp [h]
    · rename_i h
      simp [Ne.symm h]
  rw [hstep]

/-- **A node plays a role in a flow exactly if the flow refers to it.** -/
theorem FlowRecord.rolesOf_eq_nil_iff {f : FlowRecord} {id : String} :
    f.rolesOf id = [] ↔ id ∉ f.references := by
  unfold rolesOf
  rw [List.flatMap_eq_nil_iff, mem_references]
  constructor
  · rintro h ⟨s, hs, hid⟩
    obtain ⟨i, hi, rfl⟩ := List.getElem_of_mem hs
    have hzip : (f.steps[i], i) ∈ f.steps.zipIdx :=
      List.mem_zipIdx_iff_getElem?.mpr (List.getElem?_eq_getElem hi)
    exact Step.rolesOf_eq_nil_iff.mp (h _ hzip) hid
  · rintro h ⟨s, i⟩ hs
    apply Step.rolesOf_eq_nil_iff.mpr
    intro hid
    exact h ⟨s, List.fst_mem_of_mem_zipIdx hs, hid⟩

end ContractAudit
