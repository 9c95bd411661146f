import ContractAudit.Proofs.Decoding.Origins
import ContractAudit.Proofs.Document.BareScalars

/-!
# The order of fields

In a contract map only the names of nodes and flows and the labels of arms stand in an order that
means something. Two trees are rearrangements of each other if the fields of any record in them,
from the map itself down to its steps, stand in another order, possibly with entries between them
that no record knows, and the fields of free values in another order (`Document.Rearranged`). The main
statement says that a rearrangement is accepted as the same map, and that the map has its names in the
order of the tree (`KeepsOrder`).
-/

namespace ContractAudit

open Decoding
open Yaml (Node)
open Yaml.Node (Alike ItemsLike EntriesLike RecordLike FreeLike)

/-! ## Rearrangements -/

def Meta.Rearranged : Node → Node → Prop := RecordLike [("name", Alike), ("root", Alike)]

def NodeRecord.Rearranged : Node → Node → Prop :=
  RecordLike [
    ("kind", Alike), ("loc", Alike), ("note", Alike), ("schema", Alike),
    ("values", ItemsLike Alike), ("fk", ItemsLike Alike),
    ("indexes", FreeLike), ("triggers", FreeLike), ("request", FreeLike), ("response", FreeLike),
    ("payload", FreeLike), ("pre", FreeLike), ("post", FreeLike), ("side_effects", FreeLike),
    ("errors", FreeLike)]

def EdgeRecord.Rearranged : Node → Node → Prop :=
  RecordLike [("from", Alike), ("to", Alike), ("rel", Alike), ("note", Alike)]

def Step.Rearranged : Node → Node → Prop := RecordLike [("node", Alike), ("then", Alike)]

def FlowRecord.Rearranged : Node → Node → Prop :=
  RecordLike [("trigger", Alike), ("steps", ItemsLike Step.Rearranged)]

def InvariantRecord.Rearranged : Node → Node → Prop :=
  RecordLike [("id", Alike), ("rule", Alike), ("scope", ItemsLike Alike), ("enforce", Alike)]

/-- Trees of contract maps that differ in the order of fields and in unknown entries. -/
def Document.Rearranged : Node → Node → Prop :=
  RecordLike [
    ("version", Alike), ("meta", Meta.Rearranged), ("nodes", EntriesLike NodeRecord.Rearranged),
    ("edges", ItemsLike EdgeRecord.Rearranged), ("flows", EntriesLike FlowRecord.Rearranged),
    ("invariants", ItemsLike InvariantRecord.Rearranged)]

/-! ## Decoders of records -/

theorem keepsTo_continuation : KeepsTo Alike Continuation.decode := by
  intro ctx ctx' node node' hlevels halias hnode
  refine (keepsTo_content _ _ _ _ hlevels halias hnode).bind fun c => ?_
  split
  · exact settles_pure _
  · exact settles_mismatch _

section Commutes

variable {α β δ : Type} {set : δ → α → δ} {fields : List (RecordField δ)}

theorem commutes_nil : ∀ field ∈ ([] : List (RecordField δ)), Commutes set field := nofun

theorem commutes_cons {name : String} {read : Context → Node → Decode β} {setOther : δ → β → δ}
    (h : ∀ d a b, setOther (set d a) b = set (setOther d b) a)
    (hrest : ∀ field ∈ fields, Commutes set field) :
    ∀ field ∈ .of name read setOther :: fields, Commutes set field :=
  List.forall_mem_cons.mpr ⟨commutes_of h, hrest⟩

end Commutes

theorem keepsTo_optionalText : KeepsTo Alike (optional text) :=
  keepsTo_optional (keepsTo_textOf _) Node.Alike.outer

theorem keepsTo_metadata : KeepsTo Meta.Rearranged Meta.decode := by
  refine keepsTo_record ?_ _ _ _
  refine keepsFields_cons (keepsTo_textOf _) ?_ <| keepsFields_cons (keepsTo_textOf _) ?_ keepsFields_nil
  all_goals repeat first | exact commutes_nil | refine commutes_cons (fun _ _ _ => rfl) ?_

theorem keepsTo_node : KeepsTo NodeRecord.Rearranged NodeRecord.decode := by
  have hscalars := keepsTo_optional (keepsTo_items keepsTo_scalarText) Node.ItemsLike.outer
  have hfree := keepsTo_optional keepsTo_free Node.FreeLike.outer
  refine keepsTo_record ?_ _ _ _
  refine keepsFields_cons keepsTo_optionalText ?_ <| keepsFields_cons keepsTo_optionalText ?_ <|
    keepsFields_cons keepsTo_optionalText ?_ <| keepsFields_cons keepsTo_optionalText ?_ <|
    keepsFields_cons hscalars ?_ <| keepsFields_cons hscalars ?_ <| keepsFields_cons hfree ?_ <|
    keepsFields_cons hfree ?_ <| keepsFields_cons hfree ?_ <| keepsFields_cons hfree ?_ <|
    keepsFields_cons hfree ?_ <| keepsFields_cons hfree ?_ <| keepsFields_cons hfree ?_ <|
    keepsFields_cons hfree ?_ <| keepsFields_cons hfree ?_ keepsFields_nil
  all_goals repeat first | exact commutes_nil | refine commutes_cons (fun _ _ _ => rfl) ?_

theorem keepsTo_edge : KeepsTo EdgeRecord.Rearranged EdgeRecord.decode := by
  refine keepsTo_record ?_ _ _ _
  refine keepsFields_cons (keepsTo_textOf _) ?_ <| keepsFields_cons (keepsTo_textOf _) ?_ <|
    keepsFields_cons (keepsTo_textOf _) ?_ <| keepsFields_cons keepsTo_optionalText ?_ keepsFields_nil
  all_goals repeat first | exact commutes_nil | refine commutes_cons (fun _ _ _ => rfl) ?_

theorem keepsTo_step : KeepsTo Step.Rearranged Step.decode := by
  refine keepsTo_record ?_ _ _ _
  refine keepsFields_cons (keepsTo_textOf _) ?_ <| keepsFields_cons keepsTo_continuation ?_ keepsFields_nil
  all_goals repeat first | exact commutes_nil | refine commutes_cons (fun _ _ _ => rfl) ?_

theorem keepsTo_flow : KeepsTo FlowRecord.Rearranged FlowRecord.decode := by
  refine keepsTo_record ?_ _ _ _
  refine keepsFields_cons (keepsTo_textOf _) ?_ <|
    keepsFields_cons (keepsTo_items keepsTo_step) ?_ keepsFields_nil
  all_goals repeat first | exact commutes_nil | refine commutes_cons (fun _ _ _ => rfl) ?_

theorem keepsTo_invariant : KeepsTo InvariantRecord.Rearranged InvariantRecord.decode := by
  refine keepsTo_record ?_ _ _ _
  refine keepsFields_cons (keepsTo_textOf _) ?_ <| keepsFields_cons (keepsTo_textOf _) ?_ <|
    keepsFields_cons (keepsTo_items (keepsTo_textOf _)) ?_ <|
    keepsFields_cons keepsTo_optionalText ?_ keepsFields_nil
  all_goals repeat first | exact commutes_nil | refine commutes_cons (fun _ _ _ => rfl) ?_

theorem keepsTo_document : KeepsTo Document.Rearranged Document.decode := by
  refine keepsTo_record ?_ _ _ _
  refine keepsFields_cons keepsTo_scalarText ?_ <| keepsFields_cons keepsTo_metadata ?_ <|
    keepsFields_cons (keepsTo_named keepsTo_node) ?_ <| keepsFields_cons (keepsTo_items keepsTo_edge) ?_ <|
    keepsFields_cons (keepsTo_named keepsTo_flow) ?_ <|
    keepsFields_cons (keepsTo_items keepsTo_invariant) ?_ keepsFields_nil
  all_goals repeat first | exact commutes_nil | refine commutes_cons (fun _ _ _ => rfl) ?_

/-! ## The order of names -/

theorem scalarAt?_eq_text? {node : Node} (halias : node.hasAlias = false) (targets : List (Nat × Node)) :
    scalarAt? targets node = node.text? := by
  cases node with
  | «alias» => cases halias
  | scalar | sequence | mapping | cut => rfl

/-- A mapping is taken apart entry by entry. -/
theorem forall₂_of_run_contentAt {levels : Nat} {ctx : Context} {node : Node} {jumps after : Nat}
    {es : List (Content × Content)} (halias : node.hasAlias = false)
    (hrun : (contentAt levels ctx node).run jumps = .ok (.mapping es, after)) :
    ∃ p entries, node = .mapping p entries ∧
      List.Forall₂ (fun e k => KeyedBy ctx.targets e.1 k.1) entries es := by
  unfold contentAt at hrun
  cases node with
  | scalar p style s =>
      have hrun := run_placed_eq_ok.mp hrun
      dsimp only at hrun
      split at hrun
      · cases hrun
      · split at hrun <;> cases hrun
  | sequence p nodes =>
      have hrun := run_placed_eq_ok.mp hrun
      dsimp only at hrun
      split at hrun
      · cases hrun
      · split at hrun
        · cases hrun
        · obtain ⟨_, _, -, hrun⟩ := run_bind_eq_ok.mp hrun
          cases hrun
  | mapping p entries =>
      have hrun := run_placed_eq_ok.mp hrun
      dsimp only at hrun
      split at hrun
      · cases hrun
      · split at hrun
        · cases hrun
        · rename_i below _
          obtain ⟨_, _, hentries, hrun⟩ := run_bind_eq_ok.mp hrun
          cases hrun
          refine ⟨p, entries, rfl, forall₂_of_run_mapM (fun e _ jumps k after hentry => ?_) hentries⟩
          obtain ⟨-, _, _, -, -, -, hkey⟩ :=
            becomes_contentEntry below ctx e jumps k after hentry jumps (Nat.le_refl _)
          exact hkey
  | «alias» => cases halias
  | cut => cases hrun

/-- Labels of arms are kept in their order. -/
theorem names_of_yields_branch {node : Node} (halias : node.hasAlias = false) {arms : Registry String}
    (h : Yields Continuation.decode node (.branch arms)) : arms.names = node.names.eraseDups := by
  obtain ⟨ctx, jumps, after, hrun⟩ := h
  rw [Continuation.decode_eq] at hrun
  obtain ⟨c, _, hcontent, hpick⟩ := run_bind_eq_ok.mp hrun
  cases c with
  | sequence => cases hpick
  | scalar m => cases m <;> cases hpick
  | mapping es =>
      rw [Continuation.ofContent?_mapping] at hpick
      cases harms : es.mapM Continuation.armOf? with
      | none =>
          rw [harms] at hpick
          cases hpick
      | some l =>
          rw [harms] at hpick
          cases hpick
          obtain ⟨p, entries, rfl, hkeys⟩ := forall₂_of_run_contentAt halias hcontent
          have hlabels := (List.forall₂_and_left _ _).mpr
            ⟨Node.hasAlias_entry halias, Continuation.labels_of_keys hkeys harms⟩
          rw [Registry.names_ofList, Node.names, filterMap_text?_eq (P := fun _ _ => True)
            (hlabels.imp fun e arm h => ⟨?_, trivial⟩)]
          rw [← scalarAt?_eq_text? h.1.1 ctx.targets]
          exact h.2

/-- The node of a step of a flow. -/
def Yaml.Node.stepOf? (flow : String) (i : Nat) (tree : Node) : Option Node := do
  let flows ← tree.valueOf? "flows"
  let record ← flows.valueOf? flow
  let steps ← record.valueOf? "steps"
  steps.item? i

/-- Nodes, flows and arms have their names in the order of the tree. -/
structure Document.KeepsOrder (tree : Node) (d : Document) : Prop where
  nodeIds : d.nodeIds = tree.namesUnder "nodes"
  flows : d.flows.names = tree.namesUnder "flows"
  arms : ∀ name flow i step arms, d.flows.get? name = some flow → flow.steps[i]? = some step →
    step.next = .branch arms → ∃ node, tree.stepOf? name i = some node ∧ arms.names = node.namesUnder "then"

section Fields

variable {node : Node} (halias : node.hasAlias = false)
include halias

/-- A registry has the names of the mapping that it was read from. -/
theorem names_of_field {α : Type} {read : Context → Node → Decode α} {name : String} {r : Registry α}
    (h : (∃ n l, node.valueOf? name = some n ∧ Yields (named read) n l ∧ r = .ofList l) ∨
      (node.valueOf? name = none ∧ r = .empty)) : r.names = node.namesUnder name := by
  rw [Node.namesUnder]
  rcases h with ⟨n, l, hn, hread, rfl⟩ | ⟨hn, rfl⟩
  · rw [hn, names_of_yields (hasAlias_of_valueOf? halias hn) hread]
    rfl
  · rw [hn]
    rfl

theorem nodes_of_yields {d : Document} (h : Yields Document.decode node d) :
    (∃ n l, node.valueOf? "nodes" = some n ∧ Yields (named NodeRecord.decode) n l ∧
      d.nodes = .ofList l) ∨ (node.valueOf? "nodes" = none ∧ d.nodes = .empty) := by
  refine yields_field "nodes" Document.nodes Registry.ofList rfl (fun _ _ => rfl) ?_ halias h
  intro field hmem hne
  simp only [Document.fields, List.mem_cons, List.not_mem_nil, or_false] at hmem
  rcases hmem with rfl | rfl | rfl | rfl | rfl | rfl <;>
    first | exact absurd rfl hne | exact preserves_of fun _ _ => rfl

theorem flows_of_yields {d : Document} (h : Yields Document.decode node d) :
    (∃ n l, node.valueOf? "flows" = some n ∧ Yields (named FlowRecord.decode) n l ∧
      d.flows = .ofList l) ∨ (node.valueOf? "flows" = none ∧ d.flows = .empty) := by
  refine yields_field "flows" Document.flows Registry.ofList rfl (fun _ _ => rfl) ?_ halias h
  intro field hmem hne
  simp only [Document.fields, List.mem_cons, List.not_mem_nil, or_false] at hmem
  rcases hmem with rfl | rfl | rfl | rfl | rfl | rfl <;>
    first | exact absurd rfl hne | exact preserves_of fun _ _ => rfl

theorem steps_of_yields {flow : FlowRecord} (h : Yields FlowRecord.decode node flow) :
    (∃ n steps, node.valueOf? "steps" = some n ∧ Yields (items Step.decode) n steps ∧
      flow.steps = steps) ∨ (node.valueOf? "steps" = none ∧ flow.steps = []) := by
  refine yields_field "steps" FlowRecord.steps id rfl (fun _ _ => rfl) ?_ halias h
  intro field hmem hne
  simp only [FlowRecord.fields, List.mem_cons, List.not_mem_nil, or_false] at hmem
  rcases hmem with rfl | rfl
  · exact preserves_of fun _ _ => rfl
  · exact absurd rfl hne

theorem next_of_yields {step : Step} (h : Yields Step.decode node step) :
    (∃ n next, node.valueOf? "then" = some n ∧ Yields Continuation.decode n next ∧
      step.next = next) ∨ (node.valueOf? "then" = none ∧ step.next = default) := by
  refine yields_field "then" Step.next id rfl (fun _ _ => rfl) ?_ halias h
  intro field hmem hne
  simp only [Step.fields, List.mem_cons, List.not_mem_nil, or_false] at hmem
  rcases hmem with rfl | rfl
  · exact preserves_of fun _ _ => rfl
  · exact absurd rfl hne

theorem keepsOrder_of_yields {d : Document} (h : Yields Document.decode node d) :
    d.KeepsOrder node where
  nodeIds := names_of_field halias (nodes_of_yields halias h)
  flows := names_of_field halias (flows_of_yields halias h)
  arms name flow i step arms hflow hstep hnext := by
    rcases flows_of_yields halias h with ⟨n, l, hn, hread, hflows⟩ | ⟨-, hflows⟩
    · have hn' := hasAlias_of_valueOf? halias hn
      rw [hflows] at hflow
      obtain ⟨record, hrecord, hread⟩ := yields_value hn' hread hflow
      have hrecord' := hasAlias_of_valueOf? hn' hrecord
      rcases steps_of_yields hrecord' hread with ⟨list, _, hlist, hread, rfl⟩ | ⟨-, hsteps⟩
      · have hlist' := hasAlias_of_valueOf? hrecord' hlist
        obtain ⟨item, hitem, hread⟩ := yields_item hlist' hread hstep
        have hitem' := hasAlias_of_item? hlist' hitem
        refine ⟨item, by simp [Node.stepOf?, hn, hrecord, hlist, hitem], ?_⟩
        rcases next_of_yields hitem' hread with ⟨branch, _, hbranch, hread, rfl⟩ | ⟨-, hdefault⟩
        · rw [hnext] at hread
          rw [names_of_yields_branch (hasAlias_of_valueOf? hitem' hbranch) hread, Node.namesUnder, hbranch]
          rfl
        · rw [hdefault] at hnext
          cases hnext
      · rw [hsteps] at hstep
        cases hstep
    · rw [hflows] at hflow
      cases hflow

end Fields

/-! ## The main statement -/

theorem run_of_ofNode {tree : Node} {events : Nat} {d : Document}
    (h : Document.ofNode tree events = .ok d) : ∃ ctx : Context, ctx.levels = 128 ∧
      ∃ after, (Document.decode ctx tree).run 0 = .ok (d, after) := by
  unfold Document.ofNode at h
  dsimp only at h
  cases hrun : (Document.decode ⟨tree.anchored.reverse, 100 * events, 128, []⟩ tree).run 0 with
  | error fault =>
      rw [hrun] at h
      cases h
  | ok r =>
      rw [hrun] at h
      cases h
      exact ⟨_, rfl, r.2, hrun⟩

theorem ofNode_of_rearranged {tree tree' : Node} {events : Nat} {d : Document}
    (halias : tree.hasAlias = false) (hlike : Document.Rearranged tree tree')
    (h : Document.ofNode tree events = .ok d) (events' : Nat) : Document.ofNode tree' events' = .ok d := by
  obtain ⟨ctx, hlevels, after, hrun⟩ := run_of_ofNode h
  have hpure := keepsTo_document ctx ⟨tree'.anchored.reverse, 100 * events', 128, []⟩ tree tree'
    hlevels.symm halias hlike 0 d after hrun
  unfold Document.ofNode
  dsimp only
  rw [hpure]
  rfl

/-- A text whose tree is a rearrangement of that of a map is the same map. -/
theorem parse_of_rearranged {text text' : String} {d : Document}
    (halias : (Yaml.load text).root.hasAlias = false)
    (hlike : Document.Rearranged (Yaml.load text).root (Yaml.load text').root)
    (hwhole : (Yaml.load text').stop = none) (halone : (Yaml.load text').more = false)
    (h : Document.parse text = .ok d) : Document.parse text' = .ok d := by
  obtain ⟨hnode, -, -⟩ := Document.parse_eq_ok.mp h
  exact Document.parse_eq_ok.mpr ⟨ofNode_of_rearranged halias hlike hnode _, hwhole, halone⟩

/-- **Decoding is insensitive to the order of fields and to unknown fields.** Only the order of nodes,
flows and arms is kept. -/
theorem field_order_is_free {tree tree' : Node} {events : Nat} {d : Document}
    (halias : tree.hasAlias = false) (hlike : Document.Rearranged tree tree')
    (h : Document.ofNode tree events = .ok d) (events' : Nat) :
    Document.ofNode tree' events' = .ok d ∧ d.KeepsOrder tree := by
  refine ⟨ofNode_of_rearranged halias hlike h events', ?_⟩
  obtain ⟨ctx, -, after, hrun⟩ := run_of_ofNode h
  exact keepsOrder_of_yields halias ⟨ctx, 0, after, hrun⟩

/-! ### A map with all records in it -/

namespace FieldOrder

/-- A name before its value. -/
def entry (e : String × Node) : Node × Node := (.bare e.1, e.2)

def ordered (es : List (String × Node)) : Node := .mapping { mark := {} } (es.map entry)

/-- The same entries in the opposite order, behind one more. -/
def shuffled (es : List (String × Node)) : Node := ordered (("x-note", .bare "none") :: es.reverse)

def list (ns : List Node) : Node := .sequence { mark := {} } ns

/-- A map whose records are written in one of the two ways. -/
def shop (records : List (String × Node) → Node) (limits : List (String × Node)) : Node :=
  records [
    ("version", .bare "1"),
    ("meta", records [("name", .bare "shop"), ("root", .bare "src")]),
    ("nodes", ordered [
      ("fn:pay", records [("loc", .bare "pay.ts"), ("pre", ordered limits)]),
      ("db:orders", records [("kind", .bare "table"), ("note", .bare "all of them")])]),
    ("edges", list [
      records [("from", .bare "fn:pay"), ("to", .bare "db:orders"), ("rel", .bare "writes")]]),
    ("flows", ordered [
      ("buy", records [("trigger", .bare "click"), ("steps", list [
        records [("node", .bare "fn:pay"),
          ("then", ordered [("paid", .bare "DONE"), ("else", .bare "FAIL")])]])])]),
    ("invariants", list [records [("id", .bare "once"), ("rule", .bare "pay once")]])]

/-- The map of these trees. -/
def shopMap : Document where
  version := "1"
  metadata := { name := "shop", root := "src" }
  nodes := .ofList [
    ("fn:pay", { loc := some "pay.ts", pre := some (.object [("high", .number (.int 9)),
      ("low", .number (.int 0))]) }),
    ("db:orders", { kind := some "table", note := some "all of them" })]
  edges := [{ source := "fn:pay", target := "db:orders", rel := "writes" }]
  flows := .ofList [("buy", { trigger := "click", steps := [
    { node := "fn:pay", next := .branch (.ofList [("paid", "DONE"), ("else", "FAIL")]) }] })]
  invariants := [{ id := "once", rule := "pay once" }]

theorem recordLike_shuffled {likeness : List (String × (Node → Node → Prop))}
    (hextra : likeness.lookup "x-note" = none) {es es' : List (String × Node)}
    (h : List.Forall₂ (fun e e' => e'.1 = e.1 ∧ ((likeness.lookup e.1).getD Alike) e.2 e'.2) es es') :
    RecordLike likeness (ordered es) (shuffled es') := by
  have hkept : List.Forall₂ (Node.FieldLike likeness) (es.map entry) (es'.map entry) := by
    rw [List.forall₂_map_left_iff, List.forall₂_map_right_iff]
    refine h.imp fun e e' he => ⟨?_, he.2⟩
    rw [entry, entry, he.1]
    exact .refl _
  have hunknown : ∀ e ∈ [entry ("x-note", .bare "none")], Node.IsExtra likeness e := by
    intro e he
    rw [List.mem_singleton] at he
    subst he
    exact ⟨⟨"x-note", rfl, hextra⟩, rfl⟩
  have hperm : ((("x-note", .bare "none") :: es'.reverse).map entry).Perm
      (es'.map entry ++ [entry ("x-note", .bare "none")]) := by
    rw [List.map_cons, List.map_reverse]
    exact ((List.reverse_perm _).cons _).trans (List.perm_append_singleton _ _).symm
  exact .mapping _ {} hkept hunknown hperm

theorem rearranged_shop :
    Document.Rearranged (shop ordered [("low", .bare "0"), ("high", .bare "9")])
      (shop shuffled [("high", .bare "9"), ("low", .bare "0")]) := by
  have hbare (name s : String) : name = name ∧ Alike (.bare s) (.bare s) := ⟨rfl, .refl _⟩
  have hlimits : FreeLike (ordered [("low", .bare "0"), ("high", .bare "9")])
      (ordered [("high", .bare "9"), ("low", .bare "0")]) :=
    .single (.swap { mark := {} } [] ⟨"low", "high", rfl, rfl, by decide⟩ [])
  refine recordLike_shuffled rfl <| .cons (hbare _ _) <|
    .cons ⟨rfl, recordLike_shuffled rfl (.cons (hbare _ _) (.cons (hbare _ _) .nil))⟩ <|
    .cons ⟨rfl, .mapping _ {} ?_⟩ <| .cons ⟨rfl, .sequence _ {} ?_⟩ <|
    .cons ⟨rfl, .mapping _ {} ?_⟩ <| .cons ⟨rfl, .sequence _ {} ?_⟩ .nil
  · refine .cons ⟨.refl _, recordLike_shuffled rfl ?_⟩ <| .cons ⟨.refl _, recordLike_shuffled rfl ?_⟩ .nil
    · exact .cons (hbare _ _) (.cons ⟨rfl, hlimits⟩ .nil)
    · exact .cons (hbare _ _) (.cons (hbare _ _) .nil)
  · exact .cons (recordLike_shuffled rfl
      (.cons (hbare _ _) (.cons (hbare _ _) (.cons (hbare _ _) .nil)))) .nil
  · refine .cons ⟨.refl _, recordLike_shuffled rfl <| .cons (hbare _ _) <|
      .cons ⟨rfl, .sequence _ {} (.cons ?_ .nil)⟩ .nil⟩ .nil
    exact recordLike_shuffled rfl (.cons (hbare _ _) (.cons ⟨rfl, .refl _⟩ .nil))
  · exact .cons (recordLike_shuffled rfl (.cons (hbare _ _) (.cons (hbare _ _) .nil))) .nil

/-- A map with a record of every kind, and a rearrangement of its tree. -/
theorem field_order_is_free_shop :
    (shop ordered [("low", .bare "0"), ("high", .bare "9")]).hasAlias = false ∧
    Document.Rearranged (shop ordered [("low", .bare "0"), ("high", .bare "9")])
      (shop shuffled [("high", .bare "9"), ("low", .bare "0")]) ∧
    Document.ofNode (shop ordered [("low", .bare "0"), ("high", .bare "9")]) 0 = .ok shopMap ∧
    Document.ofNode (shop shuffled [("high", .bare "9"), ("low", .bare "0")]) 0 = .ok shopMap ∧
    shopMap.KeepsOrder (shop ordered [("low", .bare "0"), ("high", .bare "9")]) := by
  have halias : (shop ordered [("low", .bare "0"), ("high", .bare "9")]).hasAlias = false := by decide
  have hmap : Document.ofNode (shop ordered [("low", .bare "0"), ("high", .bare "9")]) 0 = .ok shopMap := by
    decide +kernel
  exact ⟨halias, rearranged_shop, hmap, field_order_is_free halias rearranged_shop hmap 0⟩

end FieldOrder

end ContractAudit
