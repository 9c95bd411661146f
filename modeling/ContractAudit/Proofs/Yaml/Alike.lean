import ContractAudit.Yaml.Node
import Mathlib.Data.List.Forall2

/-!
# Trees with other marks

When a text changes in one place, the marks behind that place move. Trees that differ in their marks
only are alike; they have the same anchors, and the anchored nodes are alike again.
-/

namespace ContractAudit.Yaml

variable {α β : Type}

namespace Node

mutual

/-- Whether two trees differ in marks only. -/
def alike : Node → Node → Bool
  | .scalar p style s, .scalar p' style' s' =>
    p.anchor = p'.anchor && p.tag = p'.tag && style = style' && s = s'
  | .sequence p items, .sequence p' items' =>
    p.anchor = p'.anchor && p.tag = p'.tag && alikeItems items items'
  | .mapping p entries, .mapping p' entries' =>
    p.anchor = p'.anchor && p.tag = p'.tag && alikeEntries entries entries'
  | .alias _ target, .alias _ target' => target = target'
  | .cut, .cut => true
  | _, _ => false

def alikeItems : List Node → List Node → Bool
  | [], [] => true
  | n :: ns, n' :: ns' => alike n n' && alikeItems ns ns'
  | _, _ => false

def alikeEntries : List (Node × Node) → List (Node × Node) → Bool
  | [], [] => true
  | (k, v) :: es, (k', v') :: es' => alike k k' && alike v v' && alikeEntries es es'
  | _, _ => false

end

/-- Trees that differ in marks only. -/
abbrev Alike (n n' : Node) : Prop := n.alike n' = true

/-- Entries that differ in marks only. -/
abbrev AlikeEntry (e e' : Node × Node) : Prop := e.1.Alike e'.1 ∧ e.2.Alike e'.2

/-! ## Shapes -/

theorem alikeItems_iff {ns ns' : List Node} :
    alikeItems ns ns' = true ↔ List.Forall₂ Alike ns ns' := by
  induction ns generalizing ns' with
  | nil => cases ns' <;> simp [alikeItems]
  | cons n ns ih => cases ns' <;> simp [alikeItems, ih]

theorem alikeEntries_iff {es es' : List (Node × Node)} :
    alikeEntries es es' = true ↔ List.Forall₂ AlikeEntry es es' := by
  induction es generalizing es' with
  | nil => cases es' <;> simp [alikeEntries]
  | cons e es ih => cases es' <;> simp [alikeEntries, ih]

/-- The outermost nodes of two trees that are alike. -/
inductive AlikeShape : Node → Node → Prop
  | scalar (p : Props) (mark : Mark) (style : ScalarStyle) (s : String) :
    AlikeShape (.scalar p style s) (.scalar { p with mark } style s)
  | sequence (p : Props) (mark : Mark) {items items' : List Node}
    (h : List.Forall₂ Alike items items') :
    AlikeShape (.sequence p items) (.sequence { p with mark } items')
  | mapping (p : Props) (mark : Mark) {entries entries' : List (Node × Node)}
    (h : List.Forall₂ AlikeEntry entries entries') :
    AlikeShape (.mapping p entries) (.mapping { p with mark } entries')
  | reference (mark mark' : Mark) (target : Nat) :
    AlikeShape (.alias mark target) (.alias mark' target)
  | cut : AlikeShape .cut .cut

theorem Alike.shape {n n' : Node} (h : n.Alike n') : AlikeShape n n' := by
  unfold Alike at h
  cases n <;> cases n' <;> simp only [alike, Bool.and_eq_true, decide_eq_true_eq, reduceCtorEq] at h
  case scalar.scalar p style s p' _ _ =>
    obtain ⟨⟨⟨hanchor, htag⟩, rfl⟩, rfl⟩ := h
    cases p'
    cases hanchor
    cases htag
    exact .scalar p _ style s
  case sequence.sequence p items p' items' =>
    obtain ⟨⟨hanchor, htag⟩, hitems⟩ := h
    cases p'
    cases hanchor
    cases htag
    exact .sequence p _ (alikeItems_iff.mp hitems)
  case mapping.mapping p entries p' entries' =>
    obtain ⟨⟨hanchor, htag⟩, hentries⟩ := h
    cases p'
    cases hanchor
    cases htag
    exact .mapping p _ (alikeEntries_iff.mp hentries)
  case alias.alias mark target mark' target' =>
    cases h
    exact .reference mark mark' target
  case cut.cut => exact .cut

/-! ## Any tree is like itself, and the order does not matter -/

mutual

theorem Alike.refl : (n : Node) → n.Alike n
  | .scalar .. => by simp [Alike, alike]
  | .sequence _ items => by simp [Alike, alike, alikeItems_refl items]
  | .mapping _ entries => by simp [Alike, alike, alikeEntries_refl entries]
  | .alias .. => by simp [Alike, alike]
  | .cut => by simp [Alike, alike]

theorem alikeItems_refl : (ns : List Node) → alikeItems ns ns = true
  | [] => rfl
  | n :: ns => by simp [alikeItems, Alike.refl n, alikeItems_refl ns]

theorem alikeEntries_refl : (es : List (Node × Node)) → alikeEntries es es = true
  | [] => rfl
  | (k, v) :: es => by simp [alikeEntries, Alike.refl k, Alike.refl v, alikeEntries_refl es]

end

mutual

theorem alike_comm : (n n' : Node) → n.alike n' = n'.alike n
  | .scalar .., .scalar .. => by simp only [alike, eq_comm]
  | .sequence _ items, .sequence _ items' => by
      simp only [alike, alikeItems_comm items items', eq_comm]
  | .mapping _ entries, .mapping _ entries' => by
      simp only [alike, alikeEntries_comm entries entries', eq_comm]
  | .alias .., .alias .. => by simp only [alike, eq_comm]
  | .cut, .cut => rfl
  | .scalar .., .sequence .. | .scalar .., .mapping .. | .scalar .., .alias .. | .scalar .., .cut
  | .sequence .., .scalar .. | .sequence .., .mapping .. | .sequence .., .alias .. | .sequence .., .cut
  | .mapping .., .scalar .. | .mapping .., .sequence .. | .mapping .., .alias .. | .mapping .., .cut
  | .alias .., .scalar .. | .alias .., .sequence .. | .alias .., .mapping .. | .alias .., .cut
  | .cut, .scalar .. | .cut, .sequence .. | .cut, .mapping .. | .cut, .alias .. => by simp only [alike]

theorem alikeItems_comm : (ns ns' : List Node) → alikeItems ns ns' = alikeItems ns' ns
  | [], [] | [], _ :: _ | _ :: _, [] => rfl
  | n :: ns, n' :: ns' => by simp only [alikeItems, alike_comm n n', alikeItems_comm ns ns']

theorem alikeEntries_comm : (es es' : List (Node × Node)) → alikeEntries es es' = alikeEntries es' es
  | [], [] | [], _ :: _ | _ :: _, [] => rfl
  | (k, v) :: es, (k', v') :: es' => by
      simp only [alikeEntries, alike_comm k k', alike_comm v v', alikeEntries_comm es es']

end

theorem Alike.symm {n n' : Node} (h : n.Alike n') : n'.Alike n := by
  rw [Alike, ← alike_comm]
  exact h

/-! ## What nodes of trees that are alike have in common -/

mutual

theorem isCut_of_alike : (n n' : Node) → n.alike n' = true → n.isCut = n'.isCut
  | .scalar .., n', h => by cases Alike.shape h; rfl
  | .sequence _ items, n', h => by
      cases Alike.shape h with
      | sequence p mark hitems =>
          simp only [isCut, isCutItems_of_alike items _ (alikeItems_iff.mpr hitems)]
  | .mapping _ entries, n', h => by
      cases Alike.shape h with
      | mapping p mark hentries =>
          simp only [isCut, isCutEntries_of_alike entries _ (alikeEntries_iff.mpr hentries)]
  | .alias .., n', h => by cases Alike.shape h; rfl
  | .cut, n', h => by cases Alike.shape h; rfl

theorem isCutItems_of_alike : (ns ns' : List Node) → alikeItems ns ns' = true →
    isCutItems ns = isCutItems ns'
  | [], [], _ => rfl
  | n :: ns, n' :: ns', h => by
      simp only [alikeItems, Bool.and_eq_true] at h
      simp only [isCutItems, isCut_of_alike n n' h.1, isCutItems_of_alike ns ns' h.2]

theorem isCutEntries_of_alike : (es es' : List (Node × Node)) → alikeEntries es es' = true →
    isCutEntries es = isCutEntries es'
  | [], [], _ => rfl
  | (k, v) :: es, (k', v') :: es', h => by
      simp only [alikeEntries, Bool.and_eq_true] at h
      simp only [isCutEntries, isCut_of_alike k k' h.1.1, isCut_of_alike v v' h.1.2,
        isCutEntries_of_alike es es' h.2]

end

end Node

end ContractAudit.Yaml
