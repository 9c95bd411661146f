import ContractAudit.Proofs.Decoding.FromNode
import ContractAudit.Proofs.Decoding.Marks

/-!
# Decoding edited trees

An edit puts another node in one place of a tree. What is decoded from the tree then changes in the
same place, or decoding fails if the new node cannot be read there (`Turns`). There is one lemma for
each way from a collection to its parts: an item, a value or key of a mapping, a field of a record.
-/

namespace ContractAudit

open Decoding (Context Decode scalarAt?)
open Yaml (Node)

variable {α β : Type}

/-! ## Lists -/

/-- One member of a list is replaced by a related one. -/
def ReplacedAt (i : Nat) (R : α → α → Prop) (l l' : List α) : Prop :=
  ∃ a a', l[i]? = some a ∧ l' = l.set i a' ∧ R a a'

section ReplacedAt

variable {i : Nat} {R : α → α → Prop} {a : α} {l l' : List α}

theorem replacedAt_nil : ¬ ReplacedAt i R [] l' := by
  rintro ⟨a, a', h, -⟩
  simp at h

theorem replacedAt_cons_zero : ReplacedAt 0 R (a :: l) l' ↔ ∃ a', l' = a' :: l ∧ R a a' := by
  simp [ReplacedAt]

theorem replacedAt_cons_succ :
    ReplacedAt (i + 1) R (a :: l) l' ↔ ∃ rest, l' = a :: rest ∧ ReplacedAt i R l rest := by
  simp only [ReplacedAt, List.getElem?_cons_succ, List.set_cons_succ]
  constructor
  · rintro ⟨b, b', hb, rfl, hR⟩
    exact ⟨_, rfl, b, b', hb, rfl, hR⟩
  · rintro ⟨_, rfl, b, b', hb, rfl, hR⟩
    exact ⟨b, b', hb, rfl, hR⟩

theorem ReplacedAt.imp {S : α → α → Prop} (h : ReplacedAt i R l l') (hRS : ∀ a a', R a a' → S a a') :
    ReplacedAt i S l l' := by
  obtain ⟨a, a', ha, hl, hR⟩ := h
  exact ⟨a, a', ha, hl, hRS a a' hR⟩

theorem ReplacedAt.zipIdx (h : ReplacedAt i R l l') (k : Nat) :
    ReplacedAt i (fun e e' : α × Nat => R e.1 e'.1 ∧ e'.2 = e.2) (l.zipIdx k) (l'.zipIdx k) := by
  induction l generalizing l' i k with
  | nil => exact absurd h replacedAt_nil
  | cons a l ih =>
      cases i with
      | zero =>
          obtain ⟨a', rfl, ha⟩ := replacedAt_cons_zero.mp h
          exact replacedAt_cons_zero.mpr ⟨(a', k), rfl, ha, rfl⟩
      | succ i =>
          obtain ⟨rest, rfl, hrest⟩ := replacedAt_cons_succ.mp h
          exact replacedAt_cons_succ.mpr ⟨rest.zipIdx (k + 1), rfl, ih hrest (k + 1)⟩

/-- A replacement among values that are all computed is a replacement among the results. -/
theorem ReplacedAt.mapM {S : β → β → Prop} {f : α → Option β} {bs : List β} (h : ReplacedAt i R l l')
    (hf : ∀ a a' b, R a a' → f a = some b → ∃ b', f a' = some b' ∧ S b b') (hbs : l.mapM f = some bs) :
    ∃ bs', l'.mapM f = some bs' ∧ ReplacedAt i S bs bs' := by
  induction l generalizing l' i bs with
  | nil => exact absurd h replacedAt_nil
  | cons a l ih =>
      rw [List.mapM_cons] at hbs
      obtain ⟨b, hb, hbs⟩ := Option.bind_eq_some_iff.mp hbs
      obtain ⟨rest, hrest, hbs⟩ := Option.bind_eq_some_iff.mp hbs
      cases hbs
      cases i with
      | zero =>
          obtain ⟨a', rfl, ha⟩ := replacedAt_cons_zero.mp h
          obtain ⟨b', hb', hS⟩ := hf a a' b ha hb
          exact ⟨b' :: rest, by simp [List.mapM_cons, hb', hrest],
            replacedAt_cons_zero.mpr ⟨b', rfl, hS⟩⟩
      | succ i =>
          obtain ⟨l', rfl, hl'⟩ := replacedAt_cons_succ.mp h
          obtain ⟨rest', hrest', hS⟩ := ih hl' hrest
          exact ⟨b :: rest', by simp [List.mapM_cons, hb, hrest'],
            replacedAt_cons_succ.mpr ⟨rest', rfl, hS⟩⟩

/-- One value for which there is no result leaves the list without results. -/
theorem ReplacedAt.mapM_eq_none {f : α → Option β} (h : ReplacedAt i R l l')
    (hf : ∀ a a', R a a' → f a' = none) : l'.mapM f = none := by
  induction l generalizing l' i with
  | nil => exact absurd h replacedAt_nil
  | cons a l ih =>
      cases i with
      | zero =>
          obtain ⟨a', rfl, ha⟩ := replacedAt_cons_zero.mp h
          simp [List.mapM_cons, hf a a' ha]
      | succ i =>
          obtain ⟨rest, rfl, hrest⟩ := replacedAt_cons_succ.mp h
          simp [List.mapM_cons, ih hrest]

end ReplacedAt

/-- Edits one member of a list. -/
def editAt (i : Nat) (edit : α → Option α) (l : List α) : Option (List α) := do
  let a ← l[i]?
  let a' ← edit a
  some (l.set i a')

theorem editAt_eq_some {i : Nat} {edit : α → Option α} {l l' : List α} :
    editAt i edit l = some l' ↔ ReplacedAt i (fun a a' => edit a = some a') l l' := by
  simp only [editAt, ReplacedAt, Option.bind_eq_bind, Option.bind_eq_some_iff, Option.some.injEq]
  constructor
  · rintro ⟨a, ha, a', ha', rfl⟩
    exact ⟨a, a', ha, rfl, ha'⟩
  · rintro ⟨a, a', ha, rfl, ha'⟩
    exact ⟨a, ha, a', ha', rfl⟩

/-! ## Trees -/

namespace Yaml.Node

/-- Edits one item of a sequence. -/
def editItem (i : Nat) (edit : Node → Option Node) : Node → Option Node
  | .sequence p items => (editAt i edit items).map (.sequence p)
  | _ => none

/-- Edits one entry of a mapping. -/
def editEntry (i : Nat) (edit : Node × Node → Option (Node × Node)) : Node → Option Node
  | .mapping p entries => (editAt i edit entries).map (.mapping p)
  | _ => none

/-- Edits the value of an entry. -/
def editValue (edit : Node → Option Node) (e : Node × Node) : Option (Node × Node) :=
  (edit e.2).map (e.1, ·)

/-- Edits the key of an entry. -/
def editKey (edit : Node → Option Node) (e : Node × Node) : Option (Node × Node) :=
  (edit e.1).map (·, e.2)

/-- One item of a sequence. -/
def item? (i : Nat) : Node → Option Node
  | .sequence _ items => items[i]?
  | _ => none

/-- The value of one entry of a mapping. -/
def value? (i : Nat) : Node → Option Node
  | .mapping _ entries => entries[i]?.map Prod.snd
  | _ => none

/-- The value that stands first under a name. -/
def under? (targets : List (Nat × Node)) (name : String) : Node → Option Node
  | .mapping p entries => do
    let i ← entries.findIdx? fun e => scalarAt? targets e.1 == some name
    value? i (.mapping p entries)
  | _ => none

/-- The texts of the keys of a mapping. -/
def keys (targets : List (Nat × Node)) : Node → List (Option String)
  | .mapping _ entries => entries.map fun e => scalarAt? targets e.1
  | _ => []

/-- Edits the value that stands first under a name. -/
def editUnder (targets : List (Nat × Node)) (name : String) (edit : Node → Option Node) :
    Node → Option Node
  | .mapping p entries => do
    let i ← entries.findIdx? fun e => scalarAt? targets e.1 == some name
    editEntry i (editValue edit) (.mapping p entries)
  | _ => none

theorem editItem_eq_some {i : Nat} {edit : Node → Option Node} {node node' : Node} :
    editItem i edit node = some node' ↔ ∃ p items items', node = .sequence p items ∧
      node' = .sequence p items' ∧ ReplacedAt i (fun n n' => edit n = some n') items items' := by
  cases node with
  | sequence p items =>
      simp only [editItem, Option.map_eq_some_iff, editAt_eq_some, sequence.injEq]
      constructor
      · rintro ⟨items', h, rfl⟩
        exact ⟨p, items, items', ⟨rfl, rfl⟩, rfl, h⟩
      · rintro ⟨_, _, items', ⟨rfl, rfl⟩, rfl, h⟩
        exact ⟨items', h, rfl⟩
  | scalar | mapping | cut | _ => simp [editItem]

theorem editEntry_eq_some {i : Nat} {edit : Node × Node → Option (Node × Node)} {node node' : Node} :
    editEntry i edit node = some node' ↔ ∃ p es es', node = .mapping p es ∧
      node' = .mapping p es' ∧ ReplacedAt i (fun e e' => edit e = some e') es es' := by
  cases node with
  | mapping p es =>
      simp only [editEntry, Option.map_eq_some_iff, editAt_eq_some, mapping.injEq]
      constructor
      · rintro ⟨es', h, rfl⟩
        exact ⟨p, es, es', ⟨rfl, rfl⟩, rfl, h⟩
      · rintro ⟨_, _, es', ⟨rfl, rfl⟩, rfl, h⟩
        exact ⟨es', h, rfl⟩
  | scalar | sequence | cut | _ => simp [editEntry]

theorem editValue_eq_some {edit : Node → Option Node} {e e' : Node × Node} :
    editValue edit e = some e' ↔ e'.1 = e.1 ∧ edit e.2 = some e'.2 := by
  unfold editValue
  rw [Option.map_eq_some_iff]
  constructor
  · rintro ⟨v, hv, rfl⟩
    exact ⟨rfl, hv⟩
  · rintro ⟨hk, hv⟩
    exact ⟨e'.2, hv, by rw [← hk]⟩

theorem editKey_eq_some {edit : Node → Option Node} {e e' : Node × Node} :
    editKey edit e = some e' ↔ edit e.1 = some e'.1 ∧ e'.2 = e.2 := by
  unfold editKey
  rw [Option.map_eq_some_iff]
  constructor
  · rintro ⟨k, hk, rfl⟩
    exact ⟨hk, rfl⟩
  · rintro ⟨hk, hv⟩
    exact ⟨e'.1, hk, by rw [← hv]⟩

theorem of_editUnder {targets : List (Nat × Node)} {name : String} {edit : Node → Option Node}
    {node node' : Node} (h : editUnder targets name edit node = some node') :
    ∃ i p es es' e e', node = .mapping p es ∧ node' = .mapping p es' ∧ es[i]? = some e ∧
      es' = es.set i e' ∧ scalarAt? targets e.1 = some name ∧ editValue edit e = some e' ∧
      under? targets name node = some e.2 := by
  cases node with
  | mapping p es =>
      obtain ⟨i, hi, h⟩ := Option.bind_eq_some_iff.mp h
      obtain ⟨p, es, es', ⟨rfl, rfl⟩, rfl, e, e', he, hes, hedit⟩ := editEntry_eq_some.mp h
      obtain ⟨hlt, hname, -⟩ := List.findIdx?_eq_some_iff_getElem.mp hi
      have hfound : es[i] = e := by simpa [List.getElem?_eq_getElem hlt] using he
      refine ⟨i, p, es, es', e, e', rfl, rfl, he, hes, ?_, hedit, ?_⟩
      · simpa [hfound] using hname
      · simp [under?, hi, value?, he]
  | scalar | sequence | cut | _ => cases h

end Yaml.Node

/-! ## Decoders of edited trees -/

namespace Decoding

open Yaml.Node (editItem editEntry editValue editKey editUnder)

variable {γ : Type} {o : Option γ} {targets : List (Nat × Node)} {edit : Node → Option Node}
  {read : Context → Node → Decode α} {R : γ → Node → α → α → Prop}

/-- From an edited node a related value is decoded, or none if `o` is empty. The relation may depend
on the node as it was. -/
def Turns (targets : List (Nat × Node)) (edit : Node → Option Node) (read : Context → Node → Decode α)
    (o : Option γ) (R : γ → Node → α → α → Prop) : Prop :=
  ∀ ctx node node', ctx.targets = targets → edit node = some node' →
    Becomes (read ctx node) (o.map fun c => R c node) (read ctx node')

/-- The same is decoded from the same members; `P` holds between each of them and what was decoded
from it. -/
theorem becomes_mapM_same {ν : Type} {P : ν → α → Prop} {f : ν → Decode α}
    (hsame : ∀ n, Becomes (f n) (some fun a a' => a' = a ∧ P n a) (f n)) (ns : List ν) :
    Becomes (ns.mapM f) (some fun l l' => l' = l ∧ List.Forall₂ P ns l) (ns.mapM f) := by
  induction ns with
  | nil => exact becomes_pure ⟨rfl, .nil⟩
  | cons n ns ih =>
      rw [List.mapM_cons]
      refine (hsame n).bind ?_
      rintro a _ ⟨rfl, ha⟩
      refine ih.bind ?_
      rintro l _ ⟨rfl, hl⟩
      exact becomes_pure ⟨rfl, .cons ha hl⟩

/-- The edit of one member shows in the same place of what is decoded; `P` holds between the members
and what was decoded from them. -/
theorem becomes_mapM_replaced {ν : Type} {E : ν → ν → Prop} {P : ν → α → Prop} {f : ν → Decode α}
    {R : γ → ν → α → α → Prop}
    (hsame : ∀ n, Becomes (f n) (some fun a a' => a' = a ∧ P n a) (f n))
    (hedit : ∀ n n', E n n' →
      Becomes (f n) (o.map fun c a a' => R c n a a' ∧ P n a) (f n')) :
    ∀ {i : Nat} {ns ns' : List ν}, ReplacedAt i E ns ns' →
      Becomes (ns.mapM f) (o.map fun c l l' => List.Forall₂ P ns l ∧
        ∃ n, ns[i]? = some n ∧ ReplacedAt i (R c n) l l') (ns'.mapM f) := by
  intro i ns
  induction ns generalizing i with
  | nil => exact fun h => absurd h replacedAt_nil
  | cons n ns ih =>
      intro ns' h
      cases i with
      | zero =>
          obtain ⟨n', rfl, hn⟩ := replacedAt_cons_zero.mp h
          rw [List.mapM_cons, List.mapM_cons]
          refine (hedit n n' hn).bind_map ?_
          rintro c a a' ⟨hR, ha⟩
          refine (becomes_mapM_same hsame ns).bind ?_
          rintro l _ ⟨rfl, hl⟩
          exact becomes_pure ⟨.cons ha hl, n, rfl, replacedAt_cons_zero.mpr ⟨a', rfl, hR⟩⟩
      | succ i =>
          obtain ⟨rest, rfl, hrest⟩ := replacedAt_cons_succ.mp h
          rw [List.mapM_cons, List.mapM_cons]
          refine (hsame n).bind ?_
          rintro a _ ⟨rfl, ha⟩
          refine (ih hrest).bind_map ?_
          rintro c l l' ⟨hl, m, hm, hll'⟩
          exact becomes_pure ⟨.cons ha hl, m, hm, replacedAt_cons_succ.mpr ⟨l', rfl, hll'⟩⟩

/-! ### Items and values -/

/-- One item was replaced. -/
def OnItem (i : Nat) (R : Node → α → α → Prop) (node : Node) (l l' : List α) : Prop :=
  ∃ n, node.item? i = some n ∧ ReplacedAt i (R n) l l'

theorem turns_items {i : Nat} (h : Turns targets edit read o R) (hread : IgnoresMarks read) :
    Turns targets (editItem i edit) (items read) o fun c => OnItem i (R c) := by
  intro ctx node node' hctx hedit
  obtain ⟨p, nodes, nodes', rfl, rfl, hnodes⟩ := Yaml.Node.editItem_eq_some.mp hedit
  refine Becomes.placed (becomes_enter_same fun inner hinner => ?_) ctx ctx _ _
  have hloop := becomes_mapM_replaced (P := fun _ _ => True)
    (f := fun e => read (inner.step (.index e.2)) e.1) (R := fun c e => R c e.1) (o := o)
    (fun e => (hread.same _ e.1).imp fun a a' ha => ⟨ha.symm, trivial⟩) ?_ (hnodes.zipIdx 0)
  · refine hloop.imp_map ?_
    rintro c l l' ⟨-, e, he, hl⟩
    have hn : nodes[i]? = some e.1 := by
      rw [List.getElem?_zipIdx] at he
      obtain ⟨n, hn, rfl⟩ := Option.map_eq_some_iff.mp he
      exact hn
    exact ⟨e.1, hn, hl⟩
  · rintro ⟨n, _⟩ ⟨n', j⟩ ⟨hn, rfl⟩
    exact (h (inner.step (.index j)) n n' (hinner.trans hctx) hn).imp_map fun c a a' ha => ⟨ha, trivial⟩

/-- One item was replaced in a list that is there. -/
def OnPresentItem (i : Nat) (R : Node → α → α → Prop) (node : Node) (l l' : Option (List α)) : Prop :=
  ∃ as as', l = some as ∧ l' = some as' ∧ OnItem i R node as as'

/-- Only a sequence has items to edit, and it is no null. -/
theorem turns_optional_items {i : Nat} (h : Turns targets edit read o R) (hread : IgnoresMarks read) :
    Turns targets (editItem i edit) (optional (items read)) o fun c => OnPresentItem i (R c) := by
  intro ctx node node' hctx hedit
  have hitems := turns_items (i := i) h hread ctx node node' hctx hedit
  obtain ⟨p, nodes, nodes', rfl, rfl, -⟩ := Yaml.Node.editItem_eq_some.mp hedit
  exact hitems.bind_map fun c l l' hl => becomes_pure ⟨l, l', rfl, rfl, hl⟩

/-- One value was replaced; the names are those of the document. -/
def OnValue (targets : List (Nat × Node)) (i : Nat) (R : Node → α → α → Prop) (node : Node)
    (l l' : List (String × α)) : Prop :=
  node.keys targets = l.map (some ·.1) ∧
    ∃ n, node.value? i = some n ∧ ReplacedAt i (fun e e' => e'.1 = e.1 ∧ R n e.2 e'.2) l l'

theorem keys_mapping {β : Type} {f : β → String} {es : List (Node × Node)} {l : List β} {p : Yaml.Props}
    (h : List.Forall₂ (fun e b => scalarAt? targets e.1 = some (f b)) es l) :
    (Node.mapping p es).keys targets = l.map fun b => some (f b) := by
  induction h with
  | nil => rfl
  | cons he _ ih =>
      simp only [Node.keys] at ih ⊢
      rw [List.map_cons, List.map_cons, he, ih]

theorem turns_named {i : Nat} (h : Turns targets edit read o R) (hread : IgnoresMarks read) :
    Turns targets (editEntry i (editValue edit)) (named read) o fun c => OnValue targets i (R c) := by
  intro ctx node node' hctx hedit
  obtain ⟨p, es, es', rfl, rfl, hes⟩ := Yaml.Node.editEntry_eq_some.mp hedit
  rw [named_mapping, named_mapping]
  refine Becomes.placed (becomes_enter_same fun inner hinner => ?_) ctx ctx _ _
  have hkeys : inner.targets = targets := hinner.trans hctx
  have hloop := becomes_mapM_replaced (o := o) (f := namedEntry read inner)
    (P := fun e entry => scalarAt? targets e.1 = some entry.1)
    (R := fun c e entry entry' => entry'.1 = entry.1 ∧ R c e.2 entry.2 entry'.2) ?_ ?_ hes
  · refine hloop.imp_map ?_
    rintro c l l' ⟨hnames, e, he, hl⟩
    exact ⟨keys_mapping hnames, e.2, by simp [Node.value?, he], hl⟩
  · intro e
    refine (becomes_textOf _ (.refl inner) (.refl e.1)).bind ?_
    rintro name _ ⟨rfl, hname⟩
    rw [hkeys] at hname
    exact (hread.same _ e.2).bind_eq fun _ => becomes_pure ⟨rfl, hname⟩
  · intro e e' he
    obtain ⟨hkey, hvalue⟩ := Yaml.Node.editValue_eq_some.mp he
    unfold namedEntry
    rw [hkey]
    refine (becomes_textOf _ (.refl inner) (.refl e.1)).bind ?_
    rintro name _ ⟨rfl, hname⟩
    rw [hkeys] at hname
    exact (h (inner.under e.1) _ _ hkeys hvalue).bind_map fun c v v' hR =>
      becomes_pure ⟨⟨rfl, hR⟩, hname⟩

/-! ### Fields -/

variable {δ : Type} {fields : List (RecordField δ)} {name : String} {set : δ → α → δ}

/-- Two records differ in one field, whose values are related. -/
def SetBy (set : δ → α → δ) (R : α → α → Prop) (d d' : δ) : Prop :=
  ∃ start a a', R a a' ∧ d = set start a ∧ d' = set start a'

/-- Reading the field and setting another one may change places. -/
def Commutes (set : δ → α → δ) (field : RecordField δ) : Prop :=
  ∀ ctx node d a, field.read ctx node (set d a) = (set · a) <$> field.read ctx node d

theorem commutes_of {β : Type} {other : String} {readOther : Context → Node → Decode β}
    {setOther : δ → β → δ} (h : ∀ d a b, setOther (set d a) b = set (setOther d b) a) :
    Commutes set (.of other readOther setOther) := by
  intro ctx node d a
  have hset : setOther (set d a) = fun b => set (setOther d b) a := funext (h d a)
  simp [RecordField.of, hset]

/-- After the edited field has been read, the records differ in it. -/
def SetState (name : String) (set : δ → α → δ) (R : α → α → Prop) (state state' : List String × δ) :
    Prop :=
  state'.1 = state.1 ∧ name ∈ state.1 ∧ SetBy set R state.2 state'.2

theorem becomes_readField_set {R : α → α → Prop} (hfields : FieldsIgnoreMarks fields)
    (hcommutes : ∀ field ∈ fields, field.name ≠ name → Commutes set field)
    {state state' : List String × δ} (h : SetState name set R state state') (ctx : Context)
    (e : Node × Node) :
    Becomes (readField fields ctx state e) (some (SetState name set R))
      (readField fields ctx state' e) := by
  obtain ⟨seen, d⟩ := state
  obtain ⟨_, d'⟩ := state'
  obtain ⟨rfl, hseen, start, a, a', hR, rfl, rfl⟩ := h
  refine ((ignoresMarks_textOf _).same ctx e.1).bind_eq fun found => ?_
  split
  · refine (becomes_ignore (Node.Alike.refl e.2)).bind_eq fun _ => ?_
    exact becomes_pure ⟨rfl, hseen, start, a, a', hR, rfl, rfl⟩
  · rename_i field hfield
    refine Becomes.ite (fun _ => becomes_mismatch _) fun hnew => ?_
    have hmem := List.mem_of_find?_eq_some hfield
    have hfound : field.name = found := by simpa using List.find?_some hfield
    -- the edited field has been seen, so this is another one
    have hother : field.name ≠ name := by
      rintro rfl
      exact hnew (by simpa [← hfound] using hseen)
    rw [hcommutes field hmem hother, hcommutes field hmem hother]
    have hread := (hfields field hmem start).same (ctx.under e.1) e.2
    simp only [map_eq_pure_bind, bind_assoc, pure_bind]
    refine hread.bind_eq fun d => becomes_pure ⟨rfl, ?_, d, a, a', hR, rfl, rfl⟩
    exact List.mem_cons_of_mem _ hseen

/-- The edited entry sets its field to a related value. -/
theorem becomes_readField_edited (hfield : fields.find? (·.name == name) = some (.of name read set))
    (h : Turns targets edit read o R) {ctx : Context} (hctx : ctx.targets = targets)
    {e e' : Node × Node} (hkey : scalarAt? targets e.1 = some name) (he : editValue edit e = some e')
    (state : List String × δ) :
    Becomes (readField fields ctx state e) (o.map fun c => SetState name set (R c e.2))
      (readField fields ctx state e') := by
  obtain ⟨hsame, hvalue⟩ := Yaml.Node.editValue_eq_some.mp he
  subst hctx
  unfold readField
  rw [hsame]
  refine (becomes_textOf _ (.refl ctx) (.refl e.1)).bind ?_
  rintro _ found ⟨rfl, hfound⟩
  obtain rfl : name = found := Option.some.inj (hkey.symm.trans hfound)
  simp only [hfield]
  refine Becomes.ite (fun _ => becomes_mismatch _) fun _ => ?_
  simp only [RecordField.of, bind_assoc, pure_bind]
  refine (h (ctx.under e.1) _ _ rfl hvalue).bind_map fun c a a' hR => becomes_pure ?_
  exact ⟨rfl, List.mem_cons_self, state.2, a, a', hR, rfl, rfl⟩

theorem becomes_fields (hfields : FieldsIgnoreMarks fields)
    (hfield : fields.find? (·.name == name) = some (.of name read set))
    (hcommutes : ∀ field ∈ fields, field.name ≠ name → Commutes set field)
    (h : Turns targets edit read o R) {ctx : Context} (hctx : ctx.targets = targets) {i : Nat}
    {es : List (Node × Node)} {e e' : Node × Node} (hentry : es[i]? = some e)
    (hkey : scalarAt? targets e.1 = some name) (he : editValue edit e = some e')
    (state : List String × δ) :
    Becomes (es.foldlM (readField fields ctx) state) (o.map fun c => SetState name set (R c e.2))
      ((es.set i e').foldlM (readField fields ctx) state) := by
  induction es generalizing i state with
  | nil => simp at hentry
  | cons first es ih =>
      cases i with
      | zero =>
          obtain rfl : first = e := by simpa using hentry
          rw [List.set_cons_zero, List.foldlM_cons, List.foldlM_cons]
          refine (becomes_readField_edited hfield h hctx hkey he state).bind_map fun c s s' hs => ?_
          -- The entries behind the edited one read other fields, so the difference stays as it is.
          refine becomes_foldlM (List.forall₂_same.mpr fun e _ => Eq.refl e) ?_ hs
          rintro s s' e _ hs rfl
          exact becomes_readField_set hfields hcommutes hs ctx e
      | succ i =>
          rw [List.set_cons_succ, List.foldlM_cons, List.foldlM_cons]
          refine (becomes_readField hfields state (.refl ctx) ⟨.refl first.1, .refl first.2⟩).bind_eq ?_
          exact fun s => ih (by simpa using hentry) s

/-- The field under a name was set to another value. -/
def OnField (targets : List (Nat × Node)) (name : String) (set : δ → α → δ)
    (R : Node → α → α → Prop) (node : Node) (d d' : δ) : Prop :=
  ∃ n, node.under? targets name = some n ∧ SetBy set (R n) d d'

theorem turns_record {typeName : String} {needed : List String} {start : δ}
    (h : Turns targets edit read o R) (hfields : FieldsIgnoreMarks fields)
    (hfield : fields.find? (·.name == name) = some (.of name read set))
    (hcommutes : ∀ field ∈ fields, field.name ≠ name → Commutes set field) :
    Turns targets (editUnder targets name edit) (record typeName fields needed start) o
      fun c => OnField targets name set (R c) := by
  intro ctx node node' hctx hedit
  obtain ⟨i, p, es, _, e, e', rfl, rfl, hentry, rfl, hkey, he, hunder⟩ := Yaml.Node.of_editUnder hedit
  refine Becomes.placed (becomes_enter_same fun inner hinner => ?_) ctx ctx _ _
  refine (becomes_fields hfields hfield hcommutes h (hinner.trans hctx) hentry hkey he _).bind_map ?_
  rintro c ⟨seen, d⟩ ⟨_, d'⟩ ⟨rfl, -, hd⟩
  dsimp only
  split
  · exact becomes_mismatch _
  · exact becomes_pure ⟨e.2, hunder, hd⟩

end Decoding

end ContractAudit
