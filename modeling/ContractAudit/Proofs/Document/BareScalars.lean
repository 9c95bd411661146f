import ContractAudit.Proofs.Decimal.Integers
import ContractAudit.Proofs.Decoding.Edits

/-!
# Bare scalars in contract maps

A bare scalar may stand for the version, an enumerated value, a foreign key, a destination or the
label of an arm (`ScalarPlace`). The first three are decoded by their meaning, which is then written
out; the others have to mean text. The main statement says what becomes of a map that is accepted when
any bare scalar is put into one of these places: it is kept as it is written if it means text, it is
replaced by its meaning written out, or the map is refused.
-/

namespace ContractAudit

open Decoding
open Yaml (Node)

/-- A plain scalar without anchor and tag. -/
def Yaml.Node.bare (s : String) : Node := .scalar { mark := {} } .plain s

/-! ## Bare scalars as contents -/

namespace Decoding

variable {α : Type} {targets : List (Nat × Node)}

/-- What a bare scalar is taken apart into; integers beyond 64 bits are refused. -/
def bareContent? (s : String) : Option Content :=
  match Yaml.plainMeaning s with
  | .wide _ => none
  | m => some (.scalar m)

theorem contentAt_bare (levels : Nat) (ctx : Context) (s : String) :
    contentAt levels ctx (.bare s) = ctx.placed {} (match Yaml.plainMeaning s with
      | .wide n => mismatch (.invalidType (.wide n) "any value")
      | m => pure (Content.scalar m)) := by
  unfold contentAt Node.bare
  cases hmeaning : Yaml.plainMeaning s <;>
    simp [Context.visit, Node.mark, hasLocalTag, Yaml.scalarMeaning, hmeaning]

/-- A bare scalar put in place of a node is its content, or nothing. -/
theorem turns_contentAt_bare (levels : Nat) (s : String) :
    Turns targets (fun _ => some (.bare s)) (contentAt levels) (bareContent? s)
      fun c node old new => new = c ∧ KeyedBy targets node old := by
  rintro ctx node node' rfl hnode
  cases hnode
  have hold := becomes_contentAt levels (.refl ctx) (.refl node)
  rw [contentAt_bare]
  unfold bareContent?
  cases Yaml.plainMeaning s with
  | wide n => exact becomes_fault _
  | null | bool | int | float | text => exact hold.value fun _ _ h => ⟨rfl, h.2⟩

/-- A value, if there is one. -/
def orMismatch (m : Mismatch) : Option α → Decode α
  | some a => pure a
  | none => mismatch m

theorem scalarText_eq (ctx : Context) (node : Node) :
    scalarText ctx node =
      content ctx node >>= fun c => orMismatch (.noVariant "Scalar") c.scalarText? := by
  refine bind_congr fun c => ?_
  cases c.scalarText? <;> rfl

/-- What is picked from a bare scalar is decoded in place of a node. -/
theorem turns_pick (pick : Content → Option α) (m : Mismatch) (s : String) :
    Turns targets (fun _ => some (.bare s))
      (fun ctx node => content ctx node >>= fun c => orMismatch m (pick c))
      ((bareContent? s).bind pick) fun a _ _ a' => a' = a := by
  intro ctx node node' hctx hnode
  have h := turns_contentAt_bare ctx.levels s ctx node node' hctx hnode
  cases hbare : bareContent? s with
  | none =>
      rw [hbare] at h
      exact h.bind_none
  | some c =>
      rw [hbare] at h
      rw [Option.bind_some]
      refine Becomes.bind h ?_
      rintro old c ⟨rfl, -⟩
      cases pick c with
      | none => exact becomes_fault _
      | some a =>
          cases pick old with
          | none => exact becomes_mismatch _
          | some _ => exact becomes_pure rfl

theorem turns_scalarText (s : String) :
    Turns targets (fun _ => some (.bare s)) scalarText (Content.scalar (Yaml.plainMeaning s)).scalarText?
      fun t _ _ t' => t' = t := by
  have hpick : (bareContent? s).bind Content.scalarText? =
      (Content.scalar (Yaml.plainMeaning s)).scalarText? := by
    unfold bareContent?
    cases Yaml.plainMeaning s <;> rfl
  rw [← hpick]
  intro ctx node node' hctx hnode
  rw [scalarText_eq, scalarText_eq]
  exact turns_pick Content.scalarText? _ s ctx node node' hctx hnode

/-- The text of a bare scalar that means text. -/
def bareText? (s : String) : Option String := (Content.scalar (Yaml.plainMeaning s)).text?

theorem bareText?_eq (s : String) : bareText? s = (bareContent? s).bind Content.text? := by
  unfold bareContent? bareText?
  cases Yaml.plainMeaning s <;> rfl

theorem Content.text?_text (s : String) : (Content.scalar (.text s)).text? = some s := rfl

theorem Content.eq_of_text? {c : Content} {t : String} (h : c.text? = some t) :
    c = .scalar (.text t) := by
  unfold Content.text? at h
  split at h
  · cases h; rfl
  · cases h

/-! ### Entries -/

/-- The key and the value of an entry taken apart. -/
def contentEntry (levels : Nat) (ctx : Context) (e : Node × Node) : Decode (Content × Content) := do
  let k ← contentAt levels ctx e.1
  let v ← contentAt levels (ctx.under e.1) e.2
  pure (k, v)

theorem becomes_contentEntry (levels : Nat) (ctx : Context) (e : Node × Node) :
    Becomes (contentEntry levels ctx e) (some fun c c' => c' = c ∧ KeyedBy ctx.targets e.1 c.1)
      (contentEntry levels ctx e) := by
  refine (becomes_contentAt levels (.refl ctx) (.refl e.1)).bind ?_
  rintro k _ ⟨rfl, hk⟩
  exact ((ignoresMarks_contentAt levels).same _ e.2).bind_eq fun v => becomes_pure ⟨rfl, hk⟩

/-- The edit puts a bare scalar in place of one part of an entry. -/
def PutsBare (s : String) (edit : Node × Node → Option (Node × Node))
    (put : Content → Content × Content → Content × Content) : Prop :=
  ∀ levels ctx e e', edit e = some e' →
    Becomes (contentEntry levels ctx e)
      ((bareContent? s).map fun c k k' => k' = put c k ∧ KeyedBy ctx.targets e.1 k.1)
      (contentEntry levels ctx e')

theorem putsBare_key (s : String) :
    PutsBare s (Node.editKey fun _ => some (.bare s)) fun c e => (c, e.2) := by
  intro levels ctx e e' he
  obtain ⟨hkey, hvalue⟩ := Node.editKey_eq_some.mp he
  unfold contentEntry
  rw [hvalue]
  refine (turns_contentAt_bare levels s ctx e.1 e'.1 rfl hkey).bind_map ?_
  rintro c k _ ⟨rfl, hk⟩
  have hunder := (Context.Alike.refl ctx).under e.1 e'.1
  exact (ignoresMarks_contentAt levels _ _ _ _ hunder (.refl e.2)).bind_eq fun v =>
    becomes_pure ⟨rfl, hk⟩

theorem putsBare_value (s : String) :
    PutsBare s (Node.editValue fun _ => some (.bare s)) fun c e => (e.1, c) := by
  intro levels ctx e e' he
  obtain ⟨hkey, hvalue⟩ := Node.editValue_eq_some.mp he
  unfold contentEntry
  rw [hkey]
  refine (becomes_contentAt levels (.refl ctx) (.refl e.1)).bind ?_
  rintro k _ ⟨rfl, hk⟩
  refine (turns_contentAt_bare levels s (ctx.under e.1) e.2 e'.2 rfl hvalue).bind_map ?_
  rintro c v _ ⟨rfl, -⟩
  exact becomes_pure ⟨rfl, hk⟩

theorem turns_contentAt_entry {s : String} {edit : Node × Node → Option (Node × Node)}
    {put : Content → Content × Content → Content × Content} (h : PutsBare s edit put) (levels i : Nat) :
    Turns targets (Node.editEntry i edit) (contentAt levels) (bareContent? s) fun c node old new =>
      ∃ p entries es es', node = .mapping p entries ∧ old = .mapping es ∧ new = .mapping es' ∧
        List.Forall₂ (fun e k => KeyedBy targets e.1 k.1) entries es ∧
        ReplacedAt i (fun k k' => k' = put c k) es es' := by
  rintro ctx node node' rfl hedit
  obtain ⟨p, entries, entries', rfl, rfl, hentries⟩ := Node.editEntry_eq_some.mp hedit
  unfold contentAt
  refine Becomes.placed (Becomes.ite (fun _ => becomes_mismatch _) fun _ => ?_) ctx ctx _ _
  cases levels with
  | zero => exact becomes_throw _
  | succ below =>
      have hloop := becomes_mapM_replaced (becomes_contentEntry below ctx) (h below ctx) hentries
      refine hloop.bind_map ?_
      rintro c es es' ⟨hkeys, e, he, hes⟩
      exact becomes_pure ⟨p, entries, es, es', rfl, rfl, rfl, hkeys, hes⟩

end Decoding

/-! ## What follows a step -/

namespace Continuation

variable {targets : List (Nat × Node)}

theorem decode_eq (ctx : Context) (node : Node) :
    decode ctx node = content ctx node >>= fun c => orMismatch (.noVariant "Then") (ofContent? c) := by
  refine bind_congr fun c => ?_
  cases ofContent? c <;> rfl

theorem turns_target (s : String) :
    Turns targets (fun _ => some (.bare s)) decode (bareText? s) fun t _ _ next => next = .target t := by
  have hpick : (bareContent? s).bind ofContent? = (bareText? s).map .target := by
    unfold bareContent? bareText?
    cases Yaml.plainMeaning s <;> rfl
  intro ctx node node' hctx hnode
  have h := turns_pick ofContent? (.noVariant "Then") s ctx node node' hctx hnode
  rw [hpick, Option.map_map] at h
  rw [decode_eq, decode_eq]
  exact h

/-- Label and destination of an arm that is made of texts. -/
def armOf? (e : Content × Content) : Option (String × String) := do
  let label ← e.1.text?
  let raw ← e.2.text?
  some (label, raw)

/-- The change of one part of an entry changes the same part of an arm. -/
structure PutsIntoArm (put : Content → Content × Content → Content × Content)
    (putArm : String → String × String → String × String) : Prop where
  text : ∀ t e arm, armOf? e = some arm → armOf? (put (.scalar (.text t)) e) = some (putArm t arm)
  other : ∀ c e, c.text? = none → armOf? (put c e) = none

theorem putsIntoArm_label : PutsIntoArm (fun c e => (c, e.2)) fun t arm => (t, arm.2) where
  text t e arm h := by
    obtain ⟨label, -, h⟩ := Option.bind_eq_some_iff.mp h
    obtain ⟨raw, hraw, h⟩ := Option.bind_eq_some_iff.mp h
    cases h
    simp [armOf?, Content.text?_text, hraw]
  other c e h := by simp [armOf?, h]

theorem putsIntoArm_raw : PutsIntoArm (fun c e => (e.1, c)) fun t arm => (arm.1, t) where
  text t e arm h := by
    obtain ⟨label, hlabel, h⟩ := Option.bind_eq_some_iff.mp h
    obtain ⟨raw, -, h⟩ := Option.bind_eq_some_iff.mp h
    cases h
    simp [armOf?, Content.text?_text, hlabel]
  other c e h := by simp [armOf?, h]

/-- One arm was replaced; the labels are those of the document. -/
def OnArm (targets : List (Nat × Node)) (i : Nat) (R : String × String → String × String → Prop)
    (node : Node) (next next' : Continuation) : Prop :=
  ∃ arms arms', node.keys targets = arms.map (some ·.1) ∧ next = .branch (.ofList arms) ∧
    next' = .branch (.ofList arms') ∧ ReplacedAt i R arms arms'

theorem ofContent?_mapping (es : List (Content × Content)) :
    ofContent? (.mapping es) = (es.mapM armOf?).map fun arms => .branch (.ofList arms) := rfl

/-- Labels of arms are the texts of the keys. -/
theorem labels_of_keys {entries : List (Node × Node)} {es : List (Content × Content)}
    {arms : List (String × String)}
    (h : List.Forall₂ (fun e k => KeyedBy targets e.1 k.1) entries es)
    (harms : es.mapM armOf? = some arms) :
    List.Forall₂ (fun e arm => scalarAt? targets e.1 = some arm.1) entries arms := by
  induction h generalizing arms with
  | nil =>
      cases harms
      exact .nil
  | cons hk _ ih =>
      rw [List.mapM_cons] at harms
      obtain ⟨arm, harm, harms⟩ := Option.bind_eq_some_iff.mp harms
      obtain ⟨rest, hrest, harms⟩ := Option.bind_eq_some_iff.mp harms
      cases harms
      obtain ⟨label, hlabel, harm⟩ := Option.bind_eq_some_iff.mp harm
      obtain ⟨raw, -, harm⟩ := Option.bind_eq_some_iff.mp harm
      cases harm
      exact .cons (hk label hlabel) (ih hrest)

/-- A part of an arm takes any text, and nothing but text. -/
theorem turns_arm {s : String} {edit : Node × Node → Option (Node × Node)}
    {put : Content → Content × Content → Content × Content}
    {putArm : String → String × String → String × String} (h : PutsBare s edit put)
    (hput : PutsIntoArm put putArm) (i : Nat) :
    Turns targets (Node.editEntry i edit) decode (bareText? s) fun t =>
      OnArm targets i fun arm arm' => arm' = putArm t arm := by
  intro ctx node node' hctx hedit
  have hcontent := turns_contentAt_entry h ctx.levels i ctx node node' hctx hedit
  rw [decode_eq, decode_eq, bareText?_eq]
  cases hbare : bareContent? s with
  | none =>
      rw [hbare] at hcontent
      exact hcontent.bind_none
  | some c =>
      rw [hbare] at hcontent
      rw [Option.bind_some]
      refine Becomes.bind hcontent ?_
      rintro old new ⟨p, entries, es, es', rfl, rfl, rfl, hkeys, hes⟩
      rw [ofContent?_mapping, ofContent?_mapping]
      cases harms : es.mapM armOf? with
      | none => exact becomes_mismatch _
      | some arms =>
          cases hc : c.text? with
          | none =>
              rw [hes.mapM_eq_none (fun k k' hk => hk ▸ hput.other c k hc)]
              exact becomes_fault _
          | some t =>
              obtain rfl := Content.eq_of_text? hc
              obtain ⟨arms', harms', hreplaced⟩ := hes.mapM (S := fun arm arm' => arm' = putArm t arm)
                (fun k k' arm hk harm => ⟨putArm t arm, hk ▸ hput.text t k arm harm, rfl⟩) harms
              rw [harms']
              have hlabels := keys_mapping (p := p) (labels_of_keys hkeys harms)
              exact becomes_pure ⟨arms, arms', hlabels, rfl, rfl, hreplaced⟩

end Continuation

/-! ## Places of a map -/

/-- The field of a node for enumerated values. -/
def NodeRecord.setValues (n : NodeRecord) (l : Option (List String)) : NodeRecord :=
  { n with values := l.getD [] }

/-- The field of a node for foreign keys. -/
def NodeRecord.setForeignKeys (n : NodeRecord) (l : Option (List String)) : NodeRecord :=
  { n with fk := l.getD [] }

namespace Document

def setVersion (d : Document) (version : String) : Document := { d with version }

def setNodes (d : Document) (l : List (String × NodeRecord)) : Document := { d with nodes := .ofList l }

def setFlows (d : Document) (l : List (String × FlowRecord)) : Document := { d with flows := .ofList l }

/-! ### Fields are independent -/

theorem commutes_version (field : RecordField Document) (h : field ∈ fields)
    (hne : field.name ≠ "version") : Commutes setVersion field := by
  simp only [fields, List.mem_cons, List.not_mem_nil, or_false] at h
  rcases h with rfl | rfl | rfl | rfl | rfl | rfl <;>
    first | exact absurd rfl hne | exact commutes_of fun _ _ _ => rfl

theorem commutes_nodes (field : RecordField Document) (h : field ∈ fields)
    (hne : field.name ≠ "nodes") : Commutes setNodes field := by
  simp only [fields, List.mem_cons, List.not_mem_nil, or_false] at h
  rcases h with rfl | rfl | rfl | rfl | rfl | rfl <;>
    first | exact absurd rfl hne | exact commutes_of fun _ _ _ => rfl

theorem commutes_flows (field : RecordField Document) (h : field ∈ fields)
    (hne : field.name ≠ "flows") : Commutes setFlows field := by
  simp only [fields, List.mem_cons, List.not_mem_nil, or_false] at h
  rcases h with rfl | rfl | rfl | rfl | rfl | rfl <;>
    first | exact absurd rfl hne | exact commutes_of fun _ _ _ => rfl

theorem commutes_values (field : RecordField NodeRecord) (h : field ∈ NodeRecord.fields)
    (hne : field.name ≠ "values") : Commutes NodeRecord.setValues field := by
  simp only [NodeRecord.fields, List.mem_cons, List.not_mem_nil, or_false] at h
  rcases h with rfl | rfl | rfl | rfl | rfl | rfl | rfl | rfl | rfl | rfl | rfl | rfl | rfl | rfl |
      rfl <;>
    first | exact absurd rfl hne | exact commutes_of fun _ _ _ => rfl

theorem commutes_foreignKeys (field : RecordField NodeRecord) (h : field ∈ NodeRecord.fields)
    (hne : field.name ≠ "fk") : Commutes NodeRecord.setForeignKeys field := by
  simp only [NodeRecord.fields, List.mem_cons, List.not_mem_nil, or_false] at h
  rcases h with rfl | rfl | rfl | rfl | rfl | rfl | rfl | rfl | rfl | rfl | rfl | rfl | rfl | rfl |
      rfl <;>
    first | exact absurd rfl hne | exact commutes_of fun _ _ _ => rfl

theorem commutes_steps (field : RecordField FlowRecord) (h : field ∈ FlowRecord.fields)
    (hne : field.name ≠ "steps") :
    Commutes (fun f steps => { f with steps } : FlowRecord → List Step → FlowRecord) field := by
  simp only [FlowRecord.fields, List.mem_cons, List.not_mem_nil, or_false] at h
  rcases h with rfl | rfl
  · exact commutes_of fun _ _ _ => rfl
  · exact absurd rfl hne

theorem commutes_next (field : RecordField Step) (h : field ∈ Step.fields)
    (hne : field.name ≠ "then") :
    Commutes (fun s next => { s with next } : Step → Continuation → Step) field := by
  simp only [Step.fields, List.mem_cons, List.not_mem_nil, or_false] at h
  rcases h with rfl | rfl
  · exact commutes_of fun _ _ _ => rfl
  · exact absurd rfl hne

/-! ### Ways to the places -/

/-- Edits an item of a list that a node declares. -/
def editNodeItem (targets : List (Nat × Node)) (name : String) (node i : Nat)
    (edit : Node → Option Node) : Node → Option Node :=
  Node.editUnder targets "nodes" <| Node.editEntry node <| Node.editValue <|
  Node.editUnder targets name <| Node.editItem i edit

/-- One item of a list that a node declares was replaced. -/
def OnNodeItem (targets : List (Nat × Node)) (name : String)
    (set : NodeRecord → Option (List String) → NodeRecord) (node i : Nat)
    (R : Node → String → String → Prop) : Node → Document → Document → Prop :=
  OnField targets "nodes" setNodes <| OnValue targets node <|
  OnField targets name set <| OnPresentItem i R

/-- Edits what follows a step. -/
def editNext (targets : List (Nat × Node)) (flow step : Nat) (edit : Node → Option Node) :
    Node → Option Node :=
  Node.editUnder targets "flows" <| Node.editEntry flow <| Node.editValue <|
  Node.editUnder targets "steps" <| Node.editItem step <| Node.editUnder targets "then" edit

/-- What follows a step was replaced. -/
def OnNext (targets : List (Nat × Node)) (flow step : Nat)
    (R : Node → Continuation → Continuation → Prop) : Node → Document → Document → Prop :=
  OnField targets "flows" setFlows <| OnValue targets flow <|
  OnField targets "steps" (fun f steps => { f with steps }) <| OnItem step <|
  OnField targets "then" (fun s next => { s with next }) R

section Turns

variable {γ : Type} {o : Option γ} {targets : List (Nat × Node)} {edit : Node → Option Node}

theorem turns_nodeItem {name : String} {set : NodeRecord → Option (List String) → NodeRecord}
    {R : γ → Node → String → String → Prop} {node i : Nat}
    (h : Turns targets edit scalarText o R)
    (hfield : NodeRecord.fields.find? (·.name == name) =
      some (.of name (optional (items scalarText)) set))
    (hcommutes : ∀ field ∈ NodeRecord.fields, field.name ≠ name → Commutes set field) :
    Turns targets (editNodeItem targets name node i edit) decode o fun c =>
      OnNodeItem targets name set node i (R c) := by
  have hnode : Turns targets (Node.editUnder targets name (Node.editItem i edit)) NodeRecord.decode o
      fun c => OnField targets name set (OnPresentItem i (R c)) :=
    turns_record (turns_optional_items h ignoresMarks_scalarText) fieldsIgnoreMarks_node hfield
      hcommutes
  exact turns_record (turns_named hnode (ignoresMarks_record fieldsIgnoreMarks_node))
    fieldsIgnoreMarks_document rfl commutes_nodes

theorem turns_next {R : γ → Node → Continuation → Continuation → Prop} {flow step : Nat}
    (h : Turns targets edit Continuation.decode o R) :
    Turns targets (editNext targets flow step edit) decode o fun c =>
      OnNext targets flow step (R c) := by
  have hstep : Turns targets (Node.editUnder targets "then" edit) Step.decode o
      fun c => OnField targets "then" (fun s next => { s with next }) (R c) :=
    turns_record h fieldsIgnoreMarks_step rfl commutes_next
  have hflow : Turns targets (Node.editUnder targets "steps" (Node.editItem step
      (Node.editUnder targets "then" edit))) FlowRecord.decode o fun c =>
      OnField targets "steps" (fun f steps => { f with steps }) (OnItem step
        (OnField targets "then" (fun s next => { s with next }) (R c))) :=
    turns_record (turns_items hstep (ignoresMarks_record fieldsIgnoreMarks_step))
      fieldsIgnoreMarks_flow rfl commutes_steps
  exact turns_record (turns_named hflow (ignoresMarks_record fieldsIgnoreMarks_flow))
    fieldsIgnoreMarks_document rfl commutes_flows

end Turns

end Document

/-- The nodes that the aliases of a document stand for. -/
def Yaml.Loaded.targets (l : Yaml.Loaded) : List (Nat × Node) := l.root.anchored.reverse

/-- Where a bare scalar may stand. Nodes, flows, steps, arms and items are counted in the order of
the document. -/
inductive ScalarPlace where
  | version
  | value (node i : Nat)
  | foreignKey (node i : Nat)
  | target (flow step : Nat)
  | armLabel (flow step arm : Nat)
  | armTarget (flow step arm : Nat)

namespace ScalarPlace

open Document (editNodeItem OnNodeItem editNext OnNext turns_nodeItem turns_next)

variable {targets : List (Nat × Node)}

/-- Puts a bare scalar into the place. -/
def put? (targets : List (Nat × Node)) (s : String) : ScalarPlace → Node → Option Node
  | .version => Node.editUnder targets "version" fun _ => some (.bare s)
  | .value node i => editNodeItem targets "values" node i fun _ => some (.bare s)
  | .foreignKey node i => editNodeItem targets "fk" node i fun _ => some (.bare s)
  | .target flow step => editNext targets flow step fun _ => some (.bare s)
  | .armLabel flow step arm =>
    editNext targets flow step <| Node.editEntry arm <| Node.editKey fun _ => some (.bare s)
  | .armTarget flow step arm =>
    editNext targets flow step <| Node.editEntry arm <| Node.editValue fun _ => some (.bare s)

/-- What a bare scalar is decoded to in the place, if it may stand there. -/
def textOf? (s : String) : ScalarPlace → Option String
  | .version | .value .. | .foreignKey .. => (Content.scalar (Yaml.plainMeaning s)).scalarText?
  | .target .. | .armLabel .. | .armTarget .. => bareText? s

/-- Scalars that are sure to be kept: texts, and where numbers are written out also lower-case
booleans and integers of 64 bits in their usual spelling. -/
def Keeps (s : String) : ScalarPlace → Prop
  | .version | .value .. | .foreignKey .. => Yaml.plainMeaning s = .text s ∨ s = "true" ∨ s = "false" ∨
      ∃ n : Int, s = toString n ∧ -(Int.pow 2 63) ≤ n ∧ n < Int.pow 2 63
  | .target .. | .armLabel .. | .armTarget .. => Yaml.plainMeaning s = .text s

theorem scalarText?_toString {n : Int} (h : -(Int.pow 2 63) ≤ n) (hlt : n < Int.pow 2 63) :
    (Content.scalar (Yaml.plainMeaning (toString n))).scalarText? = some (toString n) := by
  rw [Yaml.plainMeaning_toString ⟨h, Int.lt_trans hlt (by decide)⟩]
  simp only [Content.scalarText?, if_pos hlt]

theorem textOf?_of_keeps {place : ScalarPlace} {s : String} (h : place.Keeps s) :
    place.textOf? s = some s := by
  have htext : Yaml.plainMeaning s = .text s → (Content.scalar (Yaml.plainMeaning s)).text? = some s :=
    fun hs => by rw [hs]; rfl
  have hwritten : (Yaml.plainMeaning s = .text s ∨ s = "true" ∨ s = "false" ∨
      ∃ n : Int, s = toString n ∧ -(Int.pow 2 63) ≤ n ∧ n < Int.pow 2 63) →
      (Content.scalar (Yaml.plainMeaning s)).scalarText? = some s := by
    rintro (hs | rfl | rfl | ⟨n, rfl, hle, hlt⟩)
    · rw [hs]; rfl
    · decide
    · decide
    · exact scalarText?_toString hle hlt
  cases place with
  | version | value | foreignKey => exact hwritten h
  | target | armLabel | armTarget => exact htext h

/-- The maps differ in the place only, and the second one has the text `t` there. -/
def Sets (targets : List (Nat × Node)) (t : String) : ScalarPlace → Node → Document → Document → Prop
  | .version => OnField targets "version" Document.setVersion fun _ _ version => version = t
  | .value node i => OnNodeItem targets "values" NodeRecord.setValues node i fun _ _ v => v = t
  | .foreignKey node i => OnNodeItem targets "fk" NodeRecord.setForeignKeys node i fun _ _ v => v = t
  | .target flow step => OnNext targets flow step fun _ _ next => next = .target t
  | .armLabel flow step arm =>
    OnNext targets flow step <| Continuation.OnArm targets arm fun old new => new = (t, old.2)
  | .armTarget flow step arm =>
    OnNext targets flow step <| Continuation.OnArm targets arm fun old new => new = (old.1, t)

theorem turns (place : ScalarPlace) (s : String) :
    Turns targets (place.put? targets s) Document.decode (place.textOf? s) fun t =>
      place.Sets targets t := by
  cases place with
  | version =>
      exact turns_record (turns_scalarText s) fieldsIgnoreMarks_document rfl Document.commutes_version
  | value node i => exact turns_nodeItem (turns_scalarText s) rfl Document.commutes_values
  | foreignKey node i => exact turns_nodeItem (turns_scalarText s) rfl Document.commutes_foreignKeys
  | target flow step => exact turns_next (Continuation.turns_target s)
  | armLabel flow step arm =>
      exact turns_next (Continuation.turns_arm (putsBare_key s) Continuation.putsIntoArm_label arm)
  | armTarget flow step arm =>
      exact turns_next (Continuation.turns_arm (putsBare_value s) Continuation.putsIntoArm_raw arm)

/-- The second document is the first one with a bare scalar in the place: marks aside its tree differs
there only, and the nodes that aliases may stand for are the same. -/
structure Put (place : ScalarPlace) (s : String) (l l' : Yaml.Loaded) : Prop where
  tree : ∃ root, place.put? l.targets s l.root = some root ∧ root.Alike l'.root
  anchored : List.Forall₂ (fun t t' : Nat × Node => t.1 = t'.1 ∧ t.2.Alike t'.2)
    l.root.anchored l'.root.anchored
  events : l'.events = l.events
  whole : l'.stop = none
  alone : l'.more = false

instance (place : ScalarPlace) (s : String) (l l' : Yaml.Loaded) : Decidable (place.Put s l l') :=
  decidable_of_iff
    ((place.put? l.targets s l.root).any (·.alike l'.root) = true ∧
      List.Forall₂ (fun t t' : Nat × Node => t.1 = t'.1 ∧ t.2.Alike t'.2)
        l.root.anchored l'.root.anchored ∧
      l'.events = l.events ∧ l'.stop = none ∧ l'.more = false)
    ⟨fun h => ⟨by simpa [Option.any_eq_true] using h.1, h.2.1, h.2.2.1, h.2.2.2.1, h.2.2.2.2⟩,
      fun h => ⟨by simpa [Option.any_eq_true] using h.tree, h.anchored, h.events, h.whole, h.alone⟩⟩

end ScalarPlace

/-! ## Maps -/

/-- Where decoding of a document starts. -/
def Yaml.Loaded.start (l : Yaml.Loaded) : Context :=
  { targets := l.targets, jumpLimit := 100 * l.events }

theorem Document.ofNode_eq_ok {l : Yaml.Loaded} {d : Document} :
    Document.ofNode l.root l.events = .ok d ↔
      ∃ after, (Document.decode l.start l.root).run 0 = .ok (d, after) := by
  have hofNode : Document.ofNode l.root l.events =
      ((Document.decode l.start l.root).run 0).map Prod.fst := rfl
  rw [hofNode]
  cases (Document.decode l.start l.root).run 0 with
  | error fault => simp [Except.map]
  | ok result =>
      obtain ⟨d', after⟩ := result
      simp [Except.map]

theorem Document.parse_eq_ok {text : String} {d : Document} :
    Document.parse text = .ok d ↔
      Document.ofNode (Yaml.load text).root (Yaml.load text).events = .ok d ∧
        (Yaml.load text).stop = none ∧ (Yaml.load text).more = false := by
  unfold Document.parse
  generalize Yaml.load text = l
  dsimp only
  cases Document.ofNode l.root l.events with
  | error fault =>
      cases fault <;> dsimp only <;> repeat' split
      all_goals simp
  | ok d' =>
      dsimp only
      split
      · simp_all
      · simp_all
      · split <;> simp_all

theorem ScalarPlace.Put.alike {place : ScalarPlace} {s : String} {l l' : Yaml.Loaded}
    (h : place.Put s l l') : l.start.Alike l'.start where
  targets := List.rel_reverse h.anchored
  jumpLimit := by unfold Yaml.Loaded.start; rw [h.events]
  levels := rfl

section Put

variable {place : ScalarPlace} {s : String} {text text' : String} {d : Document}

theorem ScalarPlace.Put.accepted (hput : place.Put s (Yaml.load text) (Yaml.load text'))
    (hparse : Document.parse text = .ok d) {t : String} (ht : place.textOf? s = some t) :
    ∃ d', Document.parse text' = .ok d' ∧
      place.Sets (Yaml.load text).targets t (Yaml.load text).root d d' := by
  obtain ⟨hnode, -, -⟩ := Document.parse_eq_ok.mp hparse
  obtain ⟨after, hrun⟩ := Document.ofNode_eq_ok.mp hnode
  obtain ⟨root, hroot, halike⟩ := hput.tree
  have hturns := place.turns s (Yaml.load text).start _ root rfl hroot
  rw [ht] at hturns
  obtain ⟨-, d', between, hbetween, -, hsets⟩ := hturns 0 d after hrun 0 (Nat.le_refl 0)
  obtain ⟨-, _, after', hrun', -, rfl⟩ :=
    ignoresMarks_document _ _ root _ hput.alike halike 0 d' between hbetween 0 (Nat.le_refl 0)
  have hnode' := Document.ofNode_eq_ok.mpr ⟨after', hrun'⟩
  exact ⟨d', Document.parse_eq_ok.mpr ⟨hnode', hput.whole, hput.alone⟩, hsets⟩

theorem ScalarPlace.Put.refused (hput : place.Put s (Yaml.load text) (Yaml.load text'))
    (hparse : Document.parse text = .ok d) (hnone : place.textOf? s = none) :
    ∃ e, Document.parse text' = .error e := by
  obtain ⟨hnode, -, -⟩ := Document.parse_eq_ok.mp hparse
  obtain ⟨after, hrun⟩ := Document.ofNode_eq_ok.mp hnode
  obtain ⟨root, hroot, halike⟩ := hput.tree
  have hturns := place.turns s (Yaml.load text).start _ root rfl hroot
  rw [hnone] at hturns
  obtain ⟨fault, hfault⟩ := hturns 0 d after hrun 0 (Nat.le_refl 0)
  cases hparse' : Document.parse text' with
  | error e => exact ⟨e, rfl⟩
  | ok d' =>
      -- what is accepted is accepted with the marks of the other document too
      obtain ⟨hnode', -, -⟩ := Document.parse_eq_ok.mp hparse'
      obtain ⟨after', hrun'⟩ := Document.ofNode_eq_ok.mp hnode'
      obtain ⟨-, _, _, hback, -⟩ := ignoresMarks_document _ _ _ root hput.alike.symm halike.symm
        0 d' after' hrun' 0 (Nat.le_refl 0)
      rw [hfault] at hback
      cases hback

/-- **A bare scalar is decoded by its meaning.** Put in a place of a map that is accepted, it gives a
map again that has the text of its meaning there and differs nowhere else, or the map is refused if
nothing in this place can mean that. Texts, and what else the place keeps, stand there as written. -/
theorem bare_scalars_are_decoded (place : ScalarPlace) (s : String) {text text' : String} {d : Document}
    (hput : place.Put s (Yaml.load text) (Yaml.load text')) (hparse : Document.parse text = .ok d) :
    (place.Keeps s → ∃ d', Document.parse text' = .ok d' ∧
      place.Sets (Yaml.load text).targets s (Yaml.load text).root d d') ∧
    (∀ t, place.textOf? s = some t → ∃ d', Document.parse text' = .ok d' ∧
      place.Sets (Yaml.load text).targets t (Yaml.load text).root d d') ∧
    (place.textOf? s = none → ∃ e, Document.parse text' = .error e) :=
  ⟨fun hkeeps => hput.accepted hparse (ScalarPlace.textOf?_of_keeps hkeeps),
    fun _ ht => hput.accepted hparse ht, fun hnone => hput.refused hparse hnone⟩

end Put

/-- Two values, the second one as given. -/
def Document.valuesText (value : String) : String :=
  "nodes:\n a:\n  note: &n b\n  values: [*n, " ++ value ++ "]\n"

def Document.withValue (value : String) : Document where
  nodes := .ofList [("a", { note := "b", values := ["b", value] })]

theorem integer_among_values :
    (ScalarPlace.value 0 1).Put "-40" (Yaml.load (Document.valuesText "007"))
      (Yaml.load (Document.valuesText "-40")) ∧
    Document.parse (Document.valuesText "007") = .ok (.withValue "007") ∧
    (ScalarPlace.value 0 1).Keeps "-40" ∧
    ∃ d', Document.parse (Document.valuesText "-40") = .ok d' ∧
      (ScalarPlace.value 0 1).Sets (Yaml.load (Document.valuesText "007")).targets "-40"
        (Yaml.load (Document.valuesText "007")).root (.withValue "007") d' := by
  have hypotheses : (ScalarPlace.value 0 1).Put "-40" (Yaml.load (Document.valuesText "007"))
      (Yaml.load (Document.valuesText "-40")) ∧
      Document.parse (Document.valuesText "007") = .ok (.withValue "007") := by decide +kernel
  obtain ⟨hput, hparse⟩ := hypotheses
  have hkeeps : (ScalarPlace.value 0 1).Keeps "-40" :=
    .inr (.inr (.inr ⟨-40, by decide +kernel, by decide, by decide⟩))
  have hdecoded := bare_scalars_are_decoded (.value 0 1) "-40" hput hparse
  exact ⟨hput, hparse, hkeeps, hdecoded.1 hkeeps⟩

/-- A branch with one arm. -/
def Document.branchText (label : String) : String :=
  "flows:\n f:\n  steps:\n  - node: a\n    then:\n     " ++ label ++ ": next\n"

def Document.withArm (label : String) : Document where
  flows := .ofList [("f", { steps := [⟨"a", .branch (.ofList [(label, "next")])⟩] })]

/-- A number loses its last zero among the values, and as a label it is refused. -/
theorem numbers_are_not_kept :
    (Document.parse (Document.valuesText "007") = .ok (.withValue "007") ∧
      (ScalarPlace.value 0 1).Put "1.50" (Yaml.load (Document.valuesText "007"))
        (Yaml.load (Document.valuesText "1.50")) ∧
      Document.parse (Document.valuesText "1.50") = .ok (.withValue "1.5")) ∧
    Document.parse (Document.branchText "ok") = .ok (.withArm "ok") ∧
      (ScalarPlace.armLabel 0 0 0).Put "404" (Yaml.load (Document.branchText "ok"))
        (Yaml.load (Document.branchText "404")) ∧
      ∀ d, Document.parse (Document.branchText "404") ≠ .ok d := by
  have hlabel : Document.parse (Document.branchText "ok") = .ok (.withArm "ok") ∧
      (ScalarPlace.armLabel 0 0 0).Put "404" (Yaml.load (Document.branchText "ok"))
        (Yaml.load (Document.branchText "404")) ∧
      (Document.parse (Document.branchText "404")).toOption = none := by decide +kernel
  obtain ⟨hparse, hput, hrefused⟩ := hlabel
  refine ⟨by decide +kernel, hparse, hput, fun d hd => ?_⟩
  rw [hd] at hrefused
  cases hrefused

end ContractAudit
