import ContractAudit.Proofs.Audit.Existence
import ContractAudit.Proofs.Audit.Footprint
import Mathlib.Data.List.Forall2

/-!
# Declared lines never gate

A location names a file and perhaps a line. Two maps may differ in these lines and in nothing else
(`Audit.SameButLines`): nodes keep their files, and each line may move, come or go. Their audits
then make the same records, except that an `exists` record may pass in one and warn in the other
(`declared_lines_never_gate`).

Edges, flows and invariants never see a line, which is what their views in `Footprint` say. Nodes
see it through windows alone, and existence fails only where the whole file has no evidence.
-/

namespace ContractAudit

/-! ## Maps that differ in lines -/

/-- A record with its location forgotten. -/
def NodeRecord.unlocated (n : NodeRecord) : NodeRecord := { n with loc := none }

/-- A map with its nodes forgotten. -/
def Document.withoutNodes (d : Document) : Document := { d with nodes := .empty }

/-- Records of a node that differ at most in the line of the location. -/
structure NodeRecord.SameButLine (n n' : NodeRecord) : Prop where
  rest : n'.unlocated = n.unlocated
  path : n'.loc.map (fun loc => (Location.ofString loc).path) =
    n.loc.map fun loc => (Location.ofString loc).path

/-- Audits of two maps that differ at most in the lines of their nodes' locations. -/
structure Audit.SameButLines (a a' : Audit) : Prop where
  sources : a'.sources = a.sources
  root : a'.root = a.root
  rest : a'.document.withoutNodes = a.document.withoutNodes
  nodes : List.Forall₂ (fun e e' => e'.1 = e.1 ∧ e.2.SameButLine e'.2)
    a.document.nodes.entries a'.document.nodes.entries

/-- What a declared line may change: an `exists` record may pass or warn, all else is fixed. -/
structure CheckRecord.SameGate (r r' : CheckRecord) : Prop where
  phase : r'.phase = r.phase
  subject : r'.subject = r.subject
  check : r'.check = r.check
  fail : r'.status = .fail ↔ r.status = .fail
  others : r.check ≠ "exists" → r' = r

/-- Reports that gate alike: only `exists` records differ, and they fail together. -/
structure Report.SameGates (r r' : Report) : Prop where
  node : ∀ id, List.Forall₂ CheckRecord.SameGate (r.recordsOf .nodes id) (r'.recordsOf .nodes id)
  edges : r'.phaseRecords .edges = r.phaseRecords .edges
  flows : r'.phaseRecords .flows = r.phaseRecords .flows
  invariants : r'.phaseRecords .invariants = r.phaseRecords .invariants
  total : r'.summary.total = r.summary.total
  fail : r'.summary.fail = r.summary.fail
  exitCode : r'.exitCode = r.exitCode

/-- No `exists` record warns about a node that declares no line. -/
def Audit.WarnsAboutLinesOnly (a : Audit) : Prop :=
  ∀ id node, a.document.node? id = some node → node.declaredLine = none →
    ∀ r ∈ a.report.recordsOf .nodes id, r.check = "exists" → r.status ≠ .warn

theorem CheckRecord.SameGate.refl (r : CheckRecord) : r.SameGate r :=
  ⟨rfl, rfl, rfl, Iff.rfl, fun _ => rfl⟩

/-- Two `exists` records about one node that fail together. -/
theorem CheckRecord.SameGate.of_exists {r r' : CheckRecord} {id : String}
    (h : r.IsAbout .nodes id) (h' : r'.IsAbout .nodes id) (hc : r.check = "exists")
    (hc' : r'.check = "exists") (hfail : r'.status = .fail ↔ r.status = .fail) : r.SameGate r' where
  phase := h'.1.trans h.1.symm
  subject := h'.2.trans h.2.symm
  check := hc'.trans hc.symm
  fail := hfail
  others := fun hne => absurd hc hne

/-! ## The records of a node -/

namespace NodeRecord.SameButLine

variable {n n' : NodeRecord}

theorem kind (h : n.SameButLine n') : n'.kind = n.kind := by
  have hrest := congrArg NodeRecord.kind h.rest
  exact hrest

theorem values (h : n.SameButLine n') : n'.values = n.values := by
  have hrest := congrArg NodeRecord.values h.rest
  exact hrest

theorem schema (h : n.SameButLine n') : n'.schema = n.schema := by
  have hrest := congrArg NodeRecord.schema h.rest
  exact hrest

theorem fk (h : n.SameButLine n') : n'.fk = n.fk := by
  have hrest := congrArg NodeRecord.fk h.rest
  exact hrest

/-- Both records have a location with the same path, or neither has one. -/
theorem loc_cases (h : n.SameButLine n') : (n.loc = none ∧ n'.loc = none) ∨
    ∃ loc loc', n.loc = some loc ∧ n'.loc = some loc' ∧
      (Location.ofString loc').path = (Location.ofString loc).path := by
  have hpath := h.path
  cases hl : n.loc with
  | none =>
      rw [hl, Option.map_none, Option.map_eq_none_iff] at hpath
      exact Or.inl ⟨rfl, hpath⟩
  | some loc =>
      rw [hl, Option.map_some, Option.map_eq_some_iff] at hpath
      obtain ⟨loc', hl', hp⟩ := hpath
      exact Or.inr ⟨loc, loc', rfl, hl', hp⟩

end NodeRecord.SameButLine

namespace SourceFile

variable {f f' : SourceFile} (h : f'.unlined = f.unlined)
include h

theorem text_eq : f'.text = f.text := by
  have htext := congrArg SourceFile.text h
  exact htext

theorem display_eq : f'.display = f.display := by
  have hdisplay := congrArg SourceFile.display h
  exact hdisplay

/-! The further checks of a node look at the whole text and at no line. -/

theorem valueRecords_eq : f'.valueRecords = f.valueRecords := by
  funext id values
  unfold valueRecords
  rw [text_eq h, display_eq h]

theorem schemaRecords_eq : f'.schemaRecords = f.schemaRecords := by
  funext id schema
  unfold schemaRecords namesSchema
  rw [text_eq h, display_eq h]

theorem foreignKeyRecord_eq : f'.foreignKeyRecord = f.foreignKeyRecord := by
  funext id entry
  unfold foreignKeyRecord
  rw [text_eq h, display_eq h]

theorem furtherRecords_eq {node node' : NodeRecord} (hnode : node.SameButLine node') (id : String)
    (kind : NodeKind) : f'.furtherRecords id node' kind = f.furtherRecords id node kind := by
  unfold furtherRecords
  split
  · rfl
  · cases kind with
    | type => rw [valueRecords_eq h, schemaRecords_eq h, hnode.values, hnode.schema]
    | table => rw [foreignKeyRecord_eq h, hnode.fk]
    | _ => rfl

/-- **A line moves no record of a node** but the first, and that one between pass and warning. -/
theorem nodeRecords_sameGate (hf : Text.ReturnFree f.text.toList)
    (id : String) {node node' : NodeRecord} (hnode : node.SameButLine node') {kind : NodeKind}
    (hk : kind.isCustom = false) :
    List.Forall₂ CheckRecord.SameGate (f.nodeRecords id node kind)
      (f'.nodeRecords id node' kind) := by
  have hf' : Text.ReturnFree f'.text.toList := by
    rw [text_eq h]
    exact hf
  have hfail : (f'.existsRecord id kind).status = .fail ↔ (f.existsRecord id kind).status = .fail := by
    rw [existsRecord_fail_iff hf', existsRecord_fail_iff hf, text_eq h]
  rw [nodeRecords_eq f id node hk, nodeRecords_eq f' id node' hk, furtherRecords_eq h hnode]
  refine .cons ?_ (List.forall₂_same.mpr fun r _ => .refl r)
  exact .of_exists (existsRecord_isAbout ..) (existsRecord_isAbout ..) (existsRecord_check ..)
    (existsRecord_check ..) hfail

end SourceFile

/-! ## Blocks -/

namespace Audit

variable {a a' : Audit} {n n' : NodeRecord}

theorem source_unlined (hg : SameGround a a') (h : n.SameButLine n') :
    (a'.source n').map SourceFile.unlined = (a.source n).map SourceFile.unlined := by
  unfold source
  rcases h.loc_cases with ⟨hl, hl'⟩ | ⟨loc, loc', hl, hl', hp⟩
  · rw [hl, hl']
  · rw [hl, hl']
    exact hg.sourceAt_unlined hp

/-- The file of a custom node is there in both maps or in neither. -/
theorem customExistence_sameGate (hg : SameGround a a') (h : n.SameButLine n') (id kind : String) :
    (a.customExistence id kind n).SameGate (a'.customExistence id kind n') := by
  unfold customExistence
  rcases h.loc_cases with ⟨hl, hl'⟩ | ⟨loc, loc', hl, hl', hp⟩
  · rw [hl, hl']
    exact .refl _
  · rw [hl, hl']
    dsimp only
    rw [hg.isReadable_eq hp, hg.shown_eq, hg.resolve_path hp]
    split
    · exact .of_exists ⟨rfl, rfl⟩ ⟨rfl, rfl⟩ rfl rfl Iff.rfl
    · exact .refl _

theorem nodeBlock_sameGate (hg : SameGround a a') (h : n.SameButLine n') (id : String) :
    List.Forall₂ CheckRecord.SameGate (a.nodeBlock id n).records (a'.nodeBlock id n').records := by
  have hkind : Document.kindOf id (some n') = Document.kindOf id (some n) := by
    unfold Document.kindOf
    rw [Option.bind_some, Option.bind_some, h.kind]
  cases hc : (Document.kindOf id (some n)).isCustom with
  | true =>
      obtain ⟨kind, hk⟩ := NodeKind.exists_of_isCustom hc
      rw [nodeBlock_records_of_custom hk, nodeBlock_records_of_custom (hkind.trans hk)]
      exact .cons (customExistence_sameGate hg h id kind) .nil
  | false =>
      have hc' : (Document.kindOf id (some n')).isCustom = false := by rw [hkind, hc]
      -- Two of the four cases are void: the sources are both there or both missing.
      have hsource := source_unlined hg h
      cases hs : a.source n with
      | error fault =>
          cases hs' : a'.source n' with
          | ok file' =>
              rw [hs, hs'] at hsource
              cases hsource
          | error fault' =>
              rw [hs, hs'] at hsource
              cases hsource
              rw [nodeBlock_records_of_error hc hs, nodeBlock_records_of_error hc' hs']
              exact .cons (.refl _) .nil
      | ok file =>
          cases hs' : a'.source n' with
          | error fault' =>
              rw [hs, hs'] at hsource
              cases hsource
          | ok file' =>
              rw [hs, hs'] at hsource
              have hfile : file'.unlined = file.unlined := Except.ok.inj hsource
              rw [nodeBlock_records_of_ok hc hs, nodeBlock_records_of_ok hc' hs', hkind]
              exact SourceFile.nodeRecords_sameGate hfile (returnFree_source hs) id h hc

/-! ## Records of the other phases

Edges, flows and invariants see of a node what no line changes. -/

theorem map_eq_of_rel {α β : Type} {R : α → α → Prop} {g g' : α → β} {x x' : Option α}
    (h : Option.Rel R x x') (hg : ∀ u u', R u u' → g' u' = g u) : x'.map g' = x.map g := by
  cases h with
  | none => rfl
  | some hR => exact congrArg some (hg _ _ hR)

/-- Entries that correspond name by name have corresponding values under every name. -/
theorem rel_lookup {α : Type} {R : α → α → Prop} {l l' : List (String × α)}
    (h : List.Forall₂ (fun e e' => e'.1 = e.1 ∧ R e.2 e'.2) l l') (id : String) :
    Option.Rel R (l.lookup id) (l'.lookup id) := by
  induction h with
  | nil => exact .none
  | @cons e e' _ _ he _ ih =>
      obtain ⟨name, value⟩ := e
      obtain ⟨name', value'⟩ := e'
      obtain ⟨rfl, hR⟩ := he
      rw [List.lookup_cons, List.lookup_cons]
      cases id == name' with
      | true => exact .some hR
      | false => exact ih

namespace SameButLines

variable (h : a.SameButLines a')
include h

theorem sameGround : SameGround a a' where
  sources := h.sources
  root := h.root
  mapRoot := by
    have hrest := congrArg (fun d => d.metadata.root) h.rest
    exact hrest

/-- The same ids are declared, with records that differ at most in a line. -/
theorem rel_node? (id : String) :
    Option.Rel NodeRecord.SameButLine (a.document.node? id) (a'.document.node? id) :=
  rel_lookup h.nodes id

theorem sourceSeen_eq (id : String) : a'.sourceSeen id = a.sourceSeen id :=
  map_eq_of_rel (h.rel_node? id) fun _ _ hn => source_unlined h.sameGround hn

theorem schemaSeen_eq (id : String) : a'.schemaSeen id = a.schemaSeen id :=
  map_eq_of_rel (h.rel_node? id) fun _ _ hn => hn.schema

theorem fileSeen_eq (id : String) : a'.fileSeen id = a.fileSeen id := by
  apply map_eq_of_rel (h.rel_node? id)
  intro n n' hn
  rcases hn.loc_cases with ⟨hl, hl'⟩ | ⟨loc, loc', hl, hl', hp⟩
  · rw [hl, hl']
    rfl
  · rw [hl, hl', Option.map_some, Option.map_some, h.sameGround.isReadable_eq hp,
      h.sameGround.shown_eq, h.sameGround.resolve_path hp]

theorem phaseRecords_edges : a'.phaseRecords .edges = a.phaseRecords .edges := by
  have hedges : a'.document.edges = a.document.edges := by
    have hrest := congrArg Document.edges h.rest
    exact hrest
  have hblock : a'.edgeBlock = a.edgeBlock := by
    funext e
    exact edgeBlock_congr (h.sourceSeen_eq e.source) (h.schemaSeen_eq e.target)
  unfold phaseRecords blocks edgeBlocks
  rw [hblock, hedges]

theorem phaseRecords_flows : a'.phaseRecords .flows = a.phaseRecords .flows := by
  have hflows : a'.document.flows = a.document.flows := by
    have hrest := congrArg Document.flows h.rest
    exact hrest
  have hblock : a'.flowBlock = a.flowBlock := by
    funext name f
    apply flowBlock_congr
    intro id _
    rw [declares_eq_schemaSeen, declares_eq_schemaSeen, h.schemaSeen_eq]
  unfold phaseRecords blocks flowBlocks
  rw [hblock, hflows]

theorem phaseRecords_invariants : a'.phaseRecords .invariants = a.phaseRecords .invariants := by
  have hinvariants : a'.document.invariants = a.document.invariants := by
    have hrest := congrArg Document.invariants h.rest
    exact hrest
  have hblock : a'.invariantBlock = a.invariantBlock := by
    funext i
    exact invariantBlock_congr fun id _ => h.fileSeen_eq id
  unfold phaseRecords blocks invariantBlocks
  rw [hblock, hinvariants]

/-- Block by block, the records of the nodes gate alike. -/
theorem phaseRecords_nodes : List.Forall₂ CheckRecord.SameGate (a.phaseRecords .nodes)
    (a'.phaseRecords .nodes) := by
  unfold phaseRecords blocks nodeBlocks
  rw [List.flatMap_map, List.flatMap_map]
  refine List.rel_flatMap h.nodes ?_
  rintro ⟨id, n⟩ ⟨id', n'⟩ ⟨rfl, hn⟩
  exact nodeBlock_sameGate h.sameGround hn id'

end SameButLines

end Audit

/-! ## Warnings and lines -/

theorem Audit.customExistence_ne_warn (a : Audit) (id kind : String) (node : NodeRecord) :
    (a.customExistence id kind node).status ≠ .warn := by
  unfold Audit.customExistence
  split
  · simp
  · dsimp only
    split <;> simp

/-- Without a line nothing is near or elsewhere, so nothing warns. -/
theorem Audit.warnsAboutLinesOnly (a : Audit) : a.WarnsAboutLinesOnly := by
  intro id node hnode hline r hr hc
  rw [Audit.recordsOf_nodes, hnode, Option.map_some, Option.getD_some] at hr
  cases hk : (Document.kindOf id (some node)).isCustom with
  | true =>
      obtain ⟨kind, hk⟩ := NodeKind.exists_of_isCustom hk
      rw [Audit.nodeBlock_records_of_custom hk] at hr
      rw [List.mem_singleton.mp hr]
      exact a.customExistence_ne_warn id kind node
  | false =>
      cases hs : a.source node with
      | error fault =>
          rw [Audit.nodeBlock_records_of_error hk hs] at hr
          rw [List.mem_singleton.mp hr, Audit.faultRecord_status]
          decide
      | ok file =>
          rw [Audit.nodeBlock_records_of_ok hk hs] at hr
          have hnone : file.line = none := (Audit.line_source hs).trans hline
          rw [SourceFile.nodeRecords_eq file id node hk] at hr
          rcases List.mem_cons.mp hr with hr | hr
          · rw [hr]
            exact SourceFile.existsRecord_ne_warn hnone id _
          · exact absurd hc (SourceFile.furtherRecords_check_ne hr)

/-! ## Gates -/

/-- Records that gate alike are as many, and as many of them fail. -/
theorem countP_fail_eq {rs rs' : List CheckRecord} (h : List.Forall₂ CheckRecord.SameGate rs rs') :
    rs'.countP (·.status = .fail) = rs.countP (·.status = .fail) := by
  induction h with
  | nil => rfl
  | cons hr _ ih =>
      rw [List.countP_cons, List.countP_cons, ih]
      simp only [hr.fail]

/-- **Declared lines never gate.** -/
theorem declared_lines_never_gate {a a' : Audit} (h : a.SameButLines a') :
    a.report.SameGates a'.report ∧ a.WarnsAboutLinesOnly ∧ a'.WarnsAboutLinesOnly := by
  have hrefl : ∀ rs : List CheckRecord, List.Forall₂ CheckRecord.SameGate rs rs :=
    fun rs => List.forall₂_same.mpr fun r _ => .refl r
  -- Over the whole report the records correspond; the counts need no more.
  have hrecords : List.Forall₂ CheckRecord.SameGate a.report.records a'.report.records := by
    rw [Audit.report_records, Audit.report_records, h.phaseRecords_edges, h.phaseRecords_flows,
      h.phaseRecords_invariants]
    exact List.rel_append (List.rel_append (List.rel_append h.phaseRecords_nodes (hrefl _))
      (hrefl _)) (hrefl _)
  have htotal : a'.report.summary.total = a.report.summary.total := hrecords.length_eq.symm
  have hfail : a'.report.summary.fail = a.report.summary.fail := countP_fail_eq hrecords
  refine ⟨?_, a.warnsAboutLinesOnly, a'.warnsAboutLinesOnly⟩
  constructor
  case node =>
    intro id
    rw [Audit.recordsOf_eq, Audit.recordsOf_eq]
    refine List.rel_filter ?_ h.phaseRecords_nodes
    intro r r' hr
    simp [hr.subject]
  case edges =>
    rw [Audit.report_phaseRecords, Audit.report_phaseRecords, h.phaseRecords_edges]
  case flows =>
    rw [Audit.report_phaseRecords, Audit.report_phaseRecords, h.phaseRecords_flows]
  case invariants =>
    rw [Audit.report_phaseRecords, Audit.report_phaseRecords, h.phaseRecords_invariants]
  case total => exact htotal
  case fail => exact hfail
  case exitCode =>
    unfold Report.exitCode
    rw [hfail]

/-- A map with one route, which stands in the first of twelve lines. -/
def oneRouteAt (loc : String) : Audit where
  sources := .ofList [(⟨"a.ts"⟩, some "/x\n\n\n\n\n\n\n\n\n\n\n\n")]
  document := { nodes := .ofList [("endpoint:/x", { loc := some loc })] }
  root := ⟨""⟩

/-- A line behind the end of the file makes the record warn, and moves no gate. -/
theorem moved_line_only_warns :
    (oneRouteAt "a.ts:1").SameButLines (oneRouteAt "a.ts:99") ∧
      (oneRouteAt "a.ts:1").report.SameGates (oneRouteAt "a.ts:99").report ∧
      (oneRouteAt "a.ts:1").report.records.map CheckRecord.status = [.pass] ∧
      (oneRouteAt "a.ts:99").report.records.map CheckRecord.status = [.warn] := by
  have h : (oneRouteAt "a.ts:1").SameButLines (oneRouteAt "a.ts:99") :=
    { sources := rfl
      root := rfl
      rest := rfl
      nodes := .cons ⟨rfl, rfl, by decide⟩ .nil }
  exact ⟨h, (declared_lines_never_gate h).1, by decide, by decide⟩

end ContractAudit
