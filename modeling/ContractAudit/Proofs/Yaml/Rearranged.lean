import ContractAudit.Proofs.Yaml.Alike
import Mathlib.Data.List.Perm.Basic
import Mathlib.Logic.Relation

/-!
# Rearranged trees

Which trees may take each other's place depends on what is read off them. The entries of a record may
change places and others may be put between them; the entries of a free value may only change places;
items, and entries that are kept under their names, stay in their order. So there is a relation for
each kind of place, made from the relations for its parts. Marks never matter.
-/

namespace ContractAudit.Yaml

namespace Node

/-! ## Aliases -/

mutual

/-- Whether an alias stands anywhere in a tree. -/
def hasAlias : Node → Bool
  | .scalar .. => false
  | .sequence _ items => hasAliasItems items
  | .mapping _ entries => hasAliasEntries entries
  | .alias .. => true
  | .cut => false

def hasAliasItems : List Node → Bool
  | [] => false
  | n :: ns => hasAlias n || hasAliasItems ns

def hasAliasEntries : List (Node × Node) → Bool
  | [] => false
  | (k, v) :: es => hasAlias k || hasAlias v || hasAliasEntries es

end

theorem hasAliasItems_eq_any (ns : List Node) : hasAliasItems ns = ns.any hasAlias := by
  induction ns with
  | nil => rfl
  | cons n ns ih => rw [hasAliasItems, List.any_cons, ih]

theorem hasAliasEntries_eq_any (es : List (Node × Node)) :
    hasAliasEntries es = es.any fun e => e.1.hasAlias || e.2.hasAlias := by
  induction es with
  | nil => rfl
  | cons e es ih => rw [hasAliasEntries, List.any_cons, ih]

theorem hasAlias_item {p : Props} {ns : List Node} (h : (sequence p ns).hasAlias = false) :
    ∀ n ∈ ns, n.hasAlias = false := by
  rw [hasAlias, hasAliasItems_eq_any] at h
  simpa using h

theorem hasAlias_entry {p : Props} {es : List (Node × Node)} (h : (mapping p es).hasAlias = false) :
    ∀ e ∈ es, e.1.hasAlias = false ∧ e.2.hasAlias = false := by
  rw [hasAlias, hasAliasEntries_eq_any] at h
  simpa using h

mutual

theorem hasAlias_of_alike : (n n' : Node) → n.alike n' = true → n.hasAlias = n'.hasAlias
  | .scalar .., n', h => by cases Alike.shape h; rfl
  | .sequence _ items, n', h => by
      cases Alike.shape h with
      | sequence p mark hitems =>
          simp only [hasAlias, hasAliasItems_of_alike items _ (alikeItems_iff.mpr hitems)]
  | .mapping _ entries, n', h => by
      cases Alike.shape h with
      | mapping p mark hentries =>
          simp only [hasAlias, hasAliasEntries_of_alike entries _ (alikeEntries_iff.mpr hentries)]
  | .alias .., n', h => by cases Alike.shape h; rfl
  | .cut, n', h => by cases Alike.shape h; rfl

theorem hasAliasItems_of_alike : (ns ns' : List Node) → alikeItems ns ns' = true →
    hasAliasItems ns = hasAliasItems ns'
  | [], [], _ => rfl
  | n :: ns, n' :: ns', h => by
      simp only [alikeItems, Bool.and_eq_true] at h
      simp only [hasAliasItems, hasAlias_of_alike n n' h.1, hasAliasItems_of_alike ns ns' h.2]

theorem hasAliasEntries_of_alike : (es es' : List (Node × Node)) → alikeEntries es es' = true →
    hasAliasEntries es = hasAliasEntries es'
  | [], [], _ => rfl
  | (k, v) :: es, (k', v') :: es', h => by
      simp only [alikeEntries, Bool.and_eq_true] at h
      simp only [hasAliasEntries, hasAlias_of_alike k k' h.1.1, hasAlias_of_alike v v' h.1.2,
        hasAliasEntries_of_alike es es' h.2]

end

/-! ## Keys and values -/

/-- The text of a scalar. -/
def text? : Node → Option String
  | .scalar _ _ s => some s
  | _ => none

theorem Alike.text? {n n' : Node} (h : n.Alike n') : n'.text? = n.text? := by
  cases h.shape <;> rfl

/-- Two keys are different texts. -/
def Apart (k k' : Node) : Prop := ∃ s t, k.text? = some s ∧ k'.text? = some t ∧ s ≠ t

/-- The texts of the keys of a mapping, in their order. -/
def names : Node → List String
  | .mapping _ entries => entries.filterMap (·.1.text?)
  | _ => []

/-- The value that stands last under a name. -/
def valueOf? (name : String) : Node → Option Node
  | .mapping _ entries => (entries.reverse.find? (·.1.text? == some name)).map Prod.snd
  | _ => none

/-- The names in the mapping under a name, each where it stands first. -/
def namesUnder (name : String) (n : Node) : List String :=
  ((n.valueOf? name).elim [] names).eraseDups

/-! ## The outermost node -/

/-- The outermost nodes differ in marks only; what collections contain is not compared. -/
inductive OuterAlike : Node → Node → Prop
  | scalar (p : Props) (mark : Mark) (style : ScalarStyle) (s : String) :
    OuterAlike (.scalar p style s) (.scalar { p with mark } style s)
  | sequence (p : Props) (mark : Mark) (ns ns' : List Node) :
    OuterAlike (.sequence p ns) (.sequence { p with mark } ns')
  | mapping (p : Props) (mark : Mark) (es es' : List (Node × Node)) :
    OuterAlike (.mapping p es) (.mapping { p with mark } es')
  | reference (mark mark' : Mark) (target : Nat) :
    OuterAlike (.alias mark target) (.alias mark' target)
  | cut : OuterAlike .cut .cut

theorem Alike.outer {n n' : Node} (h : n.Alike n') : n.OuterAlike n' := by
  cases h.shape with
  | scalar p mark style s => exact .scalar p mark style s
  | sequence p mark _ => exact .sequence p mark _ _
  | mapping p mark _ => exact .mapping p mark _ _
  | reference mark mark' target => exact .reference mark mark' target
  | cut => exact .cut

theorem OuterAlike.trans {n m n' : Node} (h : n.OuterAlike m) (h' : m.OuterAlike n') :
    n.OuterAlike n' := by
  cases h with
  | scalar p mark style s => cases h'; exact .scalar p _ style s
  | sequence p mark => cases h'; exact .sequence p _ _ _
  | mapping p mark => cases h'; exact .mapping p _ _ _
  | reference => cases h'; exact .reference _ _ _
  | cut => exact h'

/-! ## Items and entries in their order -/

/-- Lists whose items take each other's place in turn. -/
inductive ItemsLike (R : Node → Node → Prop) : Node → Node → Prop
  | scalar (p : Props) (mark : Mark) (style : ScalarStyle) (s : String) :
    ItemsLike R (.scalar p style s) (.scalar { p with mark } style s)
  | sequence (p : Props) (mark : Mark) {ns ns' : List Node} (h : List.Forall₂ R ns ns') :
    ItemsLike R (.sequence p ns) (.sequence { p with mark } ns')

/-- Mappings whose values take each other's place in turn, under the same names. -/
inductive EntriesLike (R : Node → Node → Prop) : Node → Node → Prop
  | scalar (p : Props) (mark : Mark) (style : ScalarStyle) (s : String) :
    EntriesLike R (.scalar p style s) (.scalar { p with mark } style s)
  | mapping (p : Props) (mark : Mark) {es es' : List (Node × Node)}
    (h : List.Forall₂ (fun e e' => e.1.Alike e'.1 ∧ R e.2 e'.2) es es') :
    EntriesLike R (.mapping p es) (.mapping { p with mark } es')

theorem ItemsLike.outer {R : Node → Node → Prop} {n n' : Node} (h : n.ItemsLike R n') :
    n.OuterAlike n' := by
  cases h with
  | scalar p mark style s => exact .scalar p mark style s
  | sequence p mark _ => exact .sequence p mark _ _

/-! ## Records -/

section RecordLike

variable (fields : List (String × (Node → Node → Prop)))

/-- An entry of a record and the one that takes its place. Under the name of a field the values take
each other's place as that field says, under other names they are the same. -/
def FieldLike (e e' : Node × Node) : Prop :=
  e.1.Alike e'.1 ∧ ((e.1.text?.bind (List.lookup · fields)).getD Alike) e.2 e'.2

/-- An entry under a name that no field has, with any value. -/
def IsExtra (e : Node × Node) : Prop :=
  (∃ name, e.1.text? = some name ∧ fields.lookup name = none) ∧ e.2.isCut = false

/-- Records with the same fields in any order, the second with any number of further entries. -/
inductive RecordLike : Node → Node → Prop
  | scalar (p : Props) (mark : Mark) (style : ScalarStyle) (s : String) :
    RecordLike (.scalar p style s) (.scalar { p with mark } style s)
  | mapping (p : Props) (mark : Mark) {es kept extra es' : List (Node × Node)}
    (hkept : List.Forall₂ (FieldLike fields) es kept) (hextra : ∀ e ∈ extra, IsExtra fields e)
    (hperm : es'.Perm (kept ++ extra)) :
    RecordLike (.mapping p es) (.mapping { p with mark } es')

end RecordLike

/-! ## Free values -/

/-- One step between free values that have the same meaning: two neighbours under different names
change places, anywhere. -/
inductive FreeStep : Node → Node → Prop
  | alike {n n' : Node} (h : n.Alike n') : FreeStep n n'
  | swap (p : Props) (before : List (Node × Node)) {e f : Node × Node} (h : e.1.Apart f.1)
    (behind : List (Node × Node)) :
    FreeStep (.mapping p (before ++ e :: f :: behind)) (.mapping p (before ++ f :: e :: behind))
  | item (p : Props) (before : List Node) {n n' : Node} (h : FreeStep n n') (behind : List Node) :
    FreeStep (.sequence p (before ++ n :: behind)) (.sequence p (before ++ n' :: behind))
  | value (p : Props) (before : List (Node × Node)) (key : Node) {n n' : Node} (h : FreeStep n n')
    (behind : List (Node × Node)) :
    FreeStep (.mapping p (before ++ (key, n) :: behind)) (.mapping p (before ++ (key, n') :: behind))

/-- Free values whose mappings have the same entries in any order. -/
def FreeLike : Node → Node → Prop := Relation.ReflTransGen FreeStep

theorem FreeStep.outer {n n' : Node} (h : FreeStep n n') : n.OuterAlike n' := by
  cases h with
  | alike h => exact h.outer
  | swap p _ _ _ => exact .mapping p p.mark _ _
  | item p _ _ _ => exact .sequence p p.mark _ _
  | value p _ _ _ _ => exact .mapping p p.mark _ _

theorem FreeLike.outer {n n' : Node} (h : FreeLike n n') : n.OuterAlike n' := by
  induction h with
  | refl => exact (Alike.refl n).outer
  | tail _ hstep ih => exact ih.trans hstep.outer

theorem FreeStep.hasAlias {n n' : Node} (h : FreeStep n n') : n'.hasAlias = n.hasAlias := by
  induction h with
  | alike h => exact (hasAlias_of_alike _ _ h).symm
  | swap p before h behind =>
      simp only [Node.hasAlias, hasAliasEntries_eq_any]
      exact ((List.Perm.swap _ _ behind).append_left before).any_eq
  | item p before h behind ih =>
      simp only [Node.hasAlias, hasAliasItems_eq_any, List.any_append, List.any_cons, ih]
  | value p before key h behind ih =>
      simp only [Node.hasAlias, hasAliasEntries_eq_any, List.any_append, List.any_cons, ih]

end Node

end ContractAudit.Yaml
