import ContractAudit.Proofs.Audit.Footprint
import ContractAudit.Proofs.Audit.ReportStructure

/-!
# What a verdict depends on

Two audits look for locations in the same places and may differ in everything else, in their maps
and in their files. The *footprint* of an element lists the data that decide its records: what the
map says about the element, which ids it names are declared, and what stands at the locations its
checks look at. Where the footprints agree the records agree (`verdicts_by_footprint`).

A footprint holds no fault of a file that could not be read, since faults go to the log and to no
record, and no text but that of the node's own file. What is in none of the footprints is data that
nothing checks: an audit of the map without them makes the same records (`records_checked`).
-/

namespace ContractAudit

/-! ## Footprints -/

/-- What the records of a node depend on. -/
structure NodeFootprint where
  kind : NodeKind
  loc : Option String
  schema : Option String
  values : List String
  fk : List String
  text : Option String
  readable : Bool
  deriving DecidableEq

/-- What an edge sees of two ends that are declared: of its source the location and what is written
there, of its target the schema. -/
structure EndsSeen where
  loc : Option String
  text : Option String
  schema : Option String
  deriving DecidableEq

/-- What the record of an edge depends on. -/
structure EdgeFootprint where
  source : String
  target : String
  rel : String
  declaresSource : Bool
  declaresTarget : Bool
  ends : Option EndsSeen
  deriving DecidableEq

/-- What the records of a flow depend on. -/
structure FlowFootprint where
  steps : List Step
  declared : List Bool
  deriving DecidableEq

/-- What the record of an invariant depends on: for each id in the scope whether it is declared, its
location, and whether a file is there. -/
structure InvariantFootprint where
  invariant : InvariantRecord
  scope : List (Option (Option (String × Bool)))
  deriving DecidableEq

namespace Audit

/-- The text at a location, with uniform line ends, if there is one. -/
def textAt (a : Audit) (loc : String) : Option String :=
  (a.sources.read (a.resolve loc).path).toOption.map Text.withUniformLineEnds

def nodeFootprint (a : Audit) (id : String) (n : NodeRecord) : NodeFootprint where
  kind := Document.kindOf id (some n)
  loc := n.loc
  schema := n.schema
  values := n.values
  fk := n.fk
  text := n.loc.bind a.textAt
  readable := n.loc.any a.isReadable

def endsSeen (a : Audit) (e : EdgeRecord) : Option EndsSeen :=
  (a.document.node? e.source).bind fun source => (a.document.node? e.target).map fun target =>
    ⟨source.loc, source.loc.bind a.textAt, target.schema⟩

def edgeFootprint (a : Audit) (e : EdgeRecord) : EdgeFootprint where
  source := e.source
  target := e.target
  rel := e.rel
  declaresSource := a.document.declares e.source
  declaresTarget := a.document.declares e.target
  ends := a.endsSeen e

def flowFootprint (a : Audit) (f : FlowRecord) : FlowFootprint where
  steps := f.steps
  declared := f.references.map a.document.declares

/-- What an invariant sees of an id in its scope. -/
def scopeSeen (a : Audit) (id : String) : Option (Option (String × Bool)) :=
  (a.document.node? id).map fun n => n.loc.map fun loc => (loc, a.isReadable loc)

def invariantFootprint (a : Audit) (i : InvariantRecord) : InvariantFootprint where
  invariant := i
  scope := i.scope.map a.scopeSeen

end Audit

/-! ## Sources -/

/-- Sources that no record tells apart: one file, or the same file missing for whatever fault. -/
inductive SameSource : Except SourceFault SourceFile → Except SourceFault SourceFile → Prop where
  | file (f : SourceFile) : SameSource (.ok f) (.ok f)
  | noLocation : SameSource (.error .noLocation) (.error .noLocation)
  | unreadable (shown fault fault' : String) :
    SameSource (.error (.unreadable ⟨shown, fault⟩)) (.error (.unreadable ⟨shown, fault'⟩))

namespace Audit

variable {a a' : Audit}

theorem sourceAt_of_text {loc text : String} (h : a.textAt loc = some text) :
    a.sourceAt loc = .ok ⟨a.shown (a.resolve loc).path, (a.resolve loc).line, text⟩ := by
  unfold textAt at h
  obtain ⟨raw, hraw, rfl⟩ := Option.map_eq_some_iff.mp h
  unfold sourceAt
  dsimp only
  cases hread : a.sources.read (a.resolve loc).path with
  | error detail =>
      rw [hread] at hraw
      exact absurd hraw (by simp [Except.toOption])
  | ok read =>
      rw [hread] at hraw
      rw [Option.some.inj hraw]

theorem sourceAt_of_no_text {loc : String} (h : a.textAt loc = none) :
    ∃ fault, a.sourceAt loc = .error (.unreadable ⟨a.shown (a.resolve loc).path, fault⟩) := by
  unfold textAt at h
  rw [Option.map_eq_none_iff] at h
  unfold sourceAt
  dsimp only
  cases hread : a.sources.read (a.resolve loc).path with
  | error detail => exact ⟨_, rfl⟩
  | ok read =>
      rw [hread] at h
      exact absurd h (by simp [Except.toOption])

theorem SamePlaces.sourceAt (h : SamePlaces a a') {loc : String}
    (htext : a'.textAt loc = a.textAt loc) : SameSource (a.sourceAt loc) (a'.sourceAt loc) := by
  cases ht : a.textAt loc with
  | none =>
      obtain ⟨fault, hs⟩ := sourceAt_of_no_text ht
      obtain ⟨fault', hs'⟩ := sourceAt_of_no_text (htext.trans ht)
      rw [hs, hs', h.resolve_eq, h.shown_eq]
      exact .unreadable _ _ _
  | some text =>
      rw [sourceAt_of_text ht, sourceAt_of_text (htext.trans ht), h.resolve_eq, h.shown_eq]
      exact .file _

theorem SamePlaces.source (h : SamePlaces a a') {n n' : NodeRecord} (hloc : n'.loc = n.loc)
    (htext : n'.loc.bind a'.textAt = n.loc.bind a.textAt) :
    SameSource (a.source n) (a'.source n') := by
  unfold Audit.source
  rw [hloc] at htext ⊢
  cases hl : n.loc with
  | none => exact .noLocation
  | some loc =>
      rw [hl] at htext
      exact h.sourceAt htext

/-! ## Blocks -/

theorem nodeRecords_congr (f : SourceFile) (id : String) (kind : NodeKind) {n n' : NodeRecord}
    (hschema : n'.schema = n.schema) (hvalues : n'.values = n.values) (hfk : n'.fk = n.fk) :
    f.nodeRecords id n' kind = f.nodeRecords id n kind := by
  unfold SourceFile.nodeRecords
  rw [hschema, hvalues, hfk]

theorem SamePlaces.customExistence (h : SamePlaces a a') {id kind : String} {n n' : NodeRecord}
    (hloc : n'.loc = n.loc) (hreadable : n'.loc.any a'.isReadable = n.loc.any a.isReadable) :
    a'.customExistence id kind n' = a.customExistence id kind n := by
  unfold Audit.customExistence
  rw [hloc] at hreadable ⊢
  rw [h.resolve_eq, h.shown_eq]
  cases hl : n.loc with
  | none => rfl
  | some loc =>
      rw [hl, Option.any_some, Option.any_some] at hreadable
      dsimp only
      rw [hreadable]

theorem nodeBlock_records_congr (h : SamePlaces a a') {id : String} {n n' : NodeRecord}
    (hf : a'.nodeFootprint id n' = a.nodeFootprint id n) :
    (a'.nodeBlock id n').records = (a.nodeBlock id n).records := by
  simp only [nodeFootprint, NodeFootprint.mk.injEq] at hf
  obtain ⟨hkind, hloc, hschema, hvalues, hfk, htext, hreadable⟩ := hf
  cases hc : (Document.kindOf id (some n)).isCustom with
  | true =>
      obtain ⟨kind, hk⟩ := NodeKind.exists_of_isCustom hc
      rw [nodeBlock_records_of_custom hk, nodeBlock_records_of_custom (hkind.trans hk),
        h.customExistence hloc hreadable]
  | false =>
      have hc' : (Document.kindOf id (some n')).isCustom = false := by rw [hkind, hc]
      have hsource := h.source hloc htext
      generalize hs : a.source n = s at hsource
      generalize hs' : a'.source n' = s' at hsource
      cases hsource with
      | file f =>
          rw [nodeBlock_records_of_ok hc hs, nodeBlock_records_of_ok hc' hs', hkind,
            nodeRecords_congr f id _ hschema hvalues hfk]
      | noLocation => rw [nodeBlock_records_of_error hc hs, nodeBlock_records_of_error hc' hs']
      | unreadable shown fault fault' =>
          rw [nodeBlock_records_of_error hc hs, nodeBlock_records_of_error hc' hs']
          rfl

/-- The note of an edge is in no record. -/
theorem edgeBlock_eq_of_note {e e' : EdgeRecord} (hsource : e'.source = e.source)
    (htarget : e'.target = e.target) (hrel : e'.rel = e.rel) : a.edgeBlock e' = a.edgeBlock e := by
  have hrecord : edgeRecord e' = edgeRecord e := by
    funext status message
    unfold edgeRecord EdgeRecord.label
    rw [hsource, htarget, hrel]
  have hverdict : ∀ f : SourceFile, f.edgeVerdict e' = f.edgeVerdict e := by
    intro f
    funext schema
    unfold SourceFile.edgeVerdict EdgeRecord.relation
    rw [htarget, hrel]
  unfold edgeBlock declaredEdgeBlock missingEnds
  simp only [hrecord, hverdict, hsource, htarget]

theorem endsSeen_eq_some_iff {e : EdgeRecord} {seen : EndsSeen} :
    a.endsSeen e = some seen ↔ ∃ source target, a.document.node? e.source = some source ∧
      a.document.node? e.target = some target ∧
      ⟨source.loc, source.loc.bind a.textAt, target.schema⟩ = seen := by
  unfold endsSeen
  simp only [Option.bind_eq_some_iff, Option.map_eq_some_iff]
  constructor
  · rintro ⟨source, hs, target, ht, rfl⟩
    exact ⟨source, target, hs, ht, rfl⟩
  · rintro ⟨source, target, hs, ht, rfl⟩
    exact ⟨source, hs, target, ht, rfl⟩

/-- An edge without its ends is judged by which of them are declared. -/
theorem edgeBlock_records_of_endsSeen {e : EdgeRecord} (h : a.endsSeen e = none) :
    (a.edgeBlock e).records =
      [edgeRecord e .fail (Text.joinWith "; " (a.missingEnds e))] := by
  rcases a.edgeBlock_cases e with ⟨source, target, hs, ht⟩ | hmissing
  · rw [endsSeen_eq_some_iff.mpr ⟨source, target, hs, ht, rfl⟩] at h
    cases h
  · exact hmissing

theorem edgeBlock_records_congr (h : SamePlaces a a') {e e' : EdgeRecord}
    (hf : a'.edgeFootprint e' = a.edgeFootprint e) :
    (a'.edgeBlock e').records = (a.edgeBlock e).records := by
  simp only [edgeFootprint, EdgeFootprint.mk.injEq] at hf
  obtain ⟨hsource, htarget, hrel, hds, hdt, hends⟩ := hf
  rw [edgeBlock_eq_of_note hsource htarget hrel]
  rw [hsource] at hds
  rw [htarget] at hdt
  have hmissing : a'.missingEnds e = a.missingEnds e := by
    unfold missingEnds
    rw [hds, hdt]
  have hends' : a'.endsSeen e = a.endsSeen e := by
    rw [← hends]
    unfold endsSeen
    rw [hsource, htarget]
  cases hseen : a.endsSeen e with
  | none =>
      rw [edgeBlock_records_of_endsSeen hseen, edgeBlock_records_of_endsSeen (hends'.trans hseen),
        hmissing]
  | some seen =>
      obtain ⟨source, target, hs, ht, rfl⟩ := endsSeen_eq_some_iff.mp hseen
      obtain ⟨source', target', hs', ht', hsame⟩ := endsSeen_eq_some_iff.mp (hends'.trans hseen)
      simp only [EndsSeen.mk.injEq] at hsame
      obtain ⟨hloc, htext, hschema⟩ := hsame
      have hsources := h.source hloc htext
      generalize hf : a.source source = s at hsources
      generalize hf' : a'.source source' = s' at hsources
      cases hsources with
      | file f =>
          rw [edgeBlock_records_of_ok hs ht hf, edgeBlock_records_of_ok hs' ht' hf', hschema]
      | noLocation =>
          rw [edgeBlock_records_of_error hs ht hf, edgeBlock_records_of_error hs' ht' hf']
      | unreadable shown fault fault' =>
          rw [edgeBlock_records_of_error hs ht hf, edgeBlock_records_of_error hs' ht' hf']
          rfl

/-- What sets a flow off is in no record. -/
theorem flowBlock_eq_of_steps {name : String} {f f' : FlowRecord} (h : f'.steps = f.steps) :
    a.flowBlock name f' = a.flowBlock name f := by
  obtain ⟨trigger, steps⟩ := f
  obtain ⟨trigger', steps'⟩ := f'
  cases h
  rfl

theorem flowBlock_congr_of_footprint {name : String} {f f' : FlowRecord}
    (hf : a'.flowFootprint f' = a.flowFootprint f) : a'.flowBlock name f' = a.flowBlock name f := by
  simp only [flowFootprint, FlowFootprint.mk.injEq] at hf
  obtain ⟨hsteps, hdeclared⟩ := hf
  have hrefs : f'.references = f.references := by
    unfold FlowRecord.references
    rw [hsteps]
  rw [hrefs, List.map_inj_left] at hdeclared
  rw [flowBlock_eq_of_steps hsteps]
  exact flowBlock_congr hdeclared

/-- How a file is shown follows from its location. -/
theorem fileSeen_eq_scopeSeen (a : Audit) (id : String) : a.fileSeen id =
    (a.scopeSeen id).map (Option.map fun seen => (seen.2, a.shown (a.resolve seen.1).path)) := by
  unfold fileSeen scopeSeen
  cases a.document.node? id with
  | none => rfl
  | some n =>
      rw [Option.map_some, Option.map_some, Option.map_some, Option.map_map]
      rfl

theorem invariantBlock_congr_of_footprint (h : SamePlaces a a') {i i' : InvariantRecord}
    (hf : a'.invariantFootprint i' = a.invariantFootprint i) :
    a'.invariantBlock i' = a.invariantBlock i := by
  simp only [invariantFootprint, InvariantFootprint.mk.injEq] at hf
  obtain ⟨rfl, hscope⟩ := hf
  rw [List.map_inj_left] at hscope
  apply invariantBlock_congr
  intro id hid
  rw [fileSeen_eq_scopeSeen, fileSeen_eq_scopeSeen, hscope id hid, h.shown_eq, h.resolve_eq]

end Audit

/-! ## Data that nothing checks -/

/-- The part of a node's record that is checked. -/
def NodeRecord.checked (n : NodeRecord) : NodeRecord where
  kind := n.kind
  loc := n.loc
  schema := n.schema
  values := n.values
  fk := n.fk

def EdgeRecord.checked (e : EdgeRecord) : EdgeRecord := { e with note := none }

def FlowRecord.checked (f : FlowRecord) : FlowRecord := { f with trigger := "" }

/-- The part of a map that is checked. -/
def Document.checked (d : Document) : Document where
  metadata := { root := d.metadata.root }
  nodes := d.nodes.map NodeRecord.checked
  edges := d.edges.map EdgeRecord.checked
  flows := d.flows.map FlowRecord.checked
  invariants := d.invariants

namespace Audit

/-- The audit of the checked part of a map. -/
def checked (a : Audit) : Audit := { a with document := a.document.checked }

theorem sameGround_checked (a : Audit) : SameGround a a.checked := ⟨rfl, rfl, rfl⟩

theorem node?_checked (a : Audit) (id : String) :
    a.checked.document.node? id = (a.document.node? id).map NodeRecord.checked :=
  Registry.get?_map NodeRecord.checked a.document.nodes id

theorem declares_checked (a : Audit) (id : String) :
    a.checked.document.declares id = a.document.declares id := by
  rw [declares_eq, declares_eq, node?_checked, Option.isSome_map]

theorem nodeBlock_checked (a : Audit) (id : String) (n : NodeRecord) :
    a.checked.nodeBlock id n.checked = a.nodeBlock id n := by
  rw [(sameGround_checked a).nodeBlock_eq]
  rfl

theorem edgeBlock_checked (a : Audit) (e : EdgeRecord) :
    a.checked.edgeBlock e.checked = a.edgeBlock e := by
  have hnote : a.checked.edgeBlock e.checked = a.checked.edgeBlock e :=
    edgeBlock_eq_of_note rfl rfl rfl
  rw [hnote]
  apply edgeBlock_congr
  · unfold sourceSeen
    rw [node?_checked, Option.map_map, (sameGround_checked a).source_eq]
    rfl
  · unfold schemaSeen
    rw [node?_checked, Option.map_map]
    rfl

theorem flowBlock_checked (a : Audit) (name : String) (f : FlowRecord) :
    a.checked.flowBlock name f.checked = a.flowBlock name f := by
  have htrigger : a.checked.flowBlock name f.checked = a.checked.flowBlock name f :=
    flowBlock_eq_of_steps rfl
  rw [htrigger]
  exact flowBlock_congr fun id _ => declares_checked a id

theorem invariantBlock_checked (a : Audit) (i : InvariantRecord) :
    a.checked.invariantBlock i = a.invariantBlock i := by
  apply invariantBlock_congr
  intro id _
  unfold fileSeen
  rw [node?_checked, Option.map_map]
  rfl

/-- **What nothing checks is in no record.** -/
theorem records_checked (a : Audit) : a.checked.report.records = a.report.records := by
  have hnodes : a.checked.nodeBlocks = a.nodeBlocks := by
    show (a.document.nodes.entries.map fun e => (e.1, e.2.checked)).map _ = _
    rw [List.map_map]
    exact List.map_congr_left fun e _ => nodeBlock_checked a e.1 e.2
  have hedges : a.checked.edgeBlocks = a.edgeBlocks := by
    show (a.document.edges.map EdgeRecord.checked).map _ = _
    rw [List.map_map]
    exact List.map_congr_left fun e _ => edgeBlock_checked a e
  have hflows : a.checked.flowBlocks = a.flowBlocks := by
    show (a.document.flows.entries.map fun e => (e.1, e.2.checked)).map _ = _
    rw [List.map_map]
    exact List.map_congr_left fun e _ => flowBlock_checked a e.1 e.2
  have hinvariants : a.checked.invariantBlocks = a.invariantBlocks :=
    List.map_congr_left fun i _ => invariantBlock_checked a i
  rw [report_records, report_records]
  unfold phaseRecords blocks
  rw [hnodes, hedges, hflows, hinvariants]

end Audit

/-! ## Verdicts -/

/-- The records of an element that is in both maps are the same where its footprint is. -/
structure Audit.DecidedByFootprints (a a' : Audit) : Prop where
  nodes : ∀ id n n', a.document.node? id = some n → a'.document.node? id = some n' →
    a'.nodeFootprint id n' = a.nodeFootprint id n →
    a'.report.recordsOf .nodes id = a.report.recordsOf .nodes id
  edges : ∀ (i j : Nat) (e e' : EdgeRecord), a.document.edges[i]? = some e →
    a'.document.edges[j]? = some e' → a'.edgeFootprint e' = a.edgeFootprint e →
    (a'.report.phaseRecords .edges)[j]? = (a.report.phaseRecords .edges)[i]?
  flows : ∀ name f f', a.document.flows.get? name = some f →
    a'.document.flows.get? name = some f' → a'.flowFootprint f' = a.flowFootprint f →
    a'.report.recordsOf .flows name = a.report.recordsOf .flows name
  invariants : ∀ (i j : Nat) (inv inv' : InvariantRecord), a.document.invariants[i]? = some inv →
    a'.document.invariants[j]? = some inv' →
    a'.invariantFootprint inv' = a.invariantFootprint inv →
    (a'.report.phaseRecords .invariants)[j]? = (a.report.phaseRecords .invariants)[i]?
  /-- Notes, triggers and free values of a map change nothing. -/
  unchecked : a'.checked = a.checked → a'.report.records = a.report.records
  /-- No file but that of its source changes the record of an edge. -/
  otherFiles : a'.document = a.document → ∀ (i : Nat) (e : EdgeRecord),
    a.document.edges[i]? = some e →
    (∀ n loc, a.document.node? e.source = some n → n.loc = some loc →
      a'.textAt loc = a.textAt loc) →
    (a'.report.phaseRecords .edges)[i]? = (a.report.phaseRecords .edges)[i]?

/-- In one map, files apart from that of its source are not in the footprint of an edge. -/
theorem Audit.edgeFootprint_eq {a a' : Audit} {e : EdgeRecord} (hd : a'.document = a.document)
    (htext : ∀ n loc, a.document.node? e.source = some n → n.loc = some loc →
      a'.textAt loc = a.textAt loc) : a'.edgeFootprint e = a.edgeFootprint e := by
  unfold edgeFootprint endsSeen
  rw [hd]
  cases hn : a.document.node? e.source with
  | none => rfl
  | some n =>
      cases hl : n.loc with
      | none => simp only [Option.bind_some, hl, Option.bind_none]
      | some loc => simp only [Option.bind_some, hl, htext n loc hn hl]

/-- **Footprints decide verdicts.** -/
theorem verdicts_by_footprint {a a' : Audit} (h : a.SamePlaces a') : a.DecidedByFootprints a' where
  nodes := by
    intro id n n' hn hn' hf
    rw [Audit.recordsOf_nodes, Audit.recordsOf_nodes, hn, hn', Option.map_some, Option.map_some,
      Audit.nodeBlock_records_congr h hf]
  edges := by
    intro i j e e' he he' hf
    rw [Audit.edge_record, Audit.edge_record, he, he', Option.bind_some, Option.bind_some,
      Audit.edgeBlock_records_congr h hf]
  flows := by
    intro name f f' hn hn' hf
    rw [Audit.recordsOf_flows, Audit.recordsOf_flows, hn, hn', Option.map_some, Option.map_some,
      Audit.flowBlock_congr_of_footprint hf]
  invariants := by
    intro i j inv inv' hi hi' hf
    rw [Audit.invariant_record, Audit.invariant_record, hi, hi', Option.bind_some,
      Option.bind_some, Audit.invariantBlock_congr_of_footprint h hf]
  unchecked := by
    intro hc
    rw [← Audit.records_checked a', ← Audit.records_checked a, hc]
  otherFiles := by
    intro hd i e he htext
    rw [Audit.edge_record, Audit.edge_record, hd, he, Option.bind_some, Option.bind_some,
      Audit.edgeBlock_records_congr h (Audit.edgeFootprint_eq hd htext)]

/-! A service checks what it gets against a schema. Open are the file of the schema, which only the
schema's own node reads, and notes and triggers, which nothing reads. -/

def serviceNode (note : String) : NodeRecord := { loc := some "svc.ts", note := some note }

def validatesEdge (note : String) : EdgeRecord where
  source := "method:Svc.add"
  target := "type:Req"
  rel := "validates"
  note := some note

def addFlow (trigger : String) : FlowRecord := { trigger, steps := [{ node := "method:Svc.add" }] }

def reqInvariant : InvariantRecord := { id := "i", scope := ["type:Req"] }

def serviceMap (note trigger : String) : Document where
  nodes := .ofList [("method:Svc.add", serviceNode note),
    ("type:Req", { loc := some "req.ts", schema := some "Req" })]
  edges := [validatesEdge note]
  flows := .ofList [("add", addFlow trigger)]
  invariants := [reqInvariant]

def serviceAudit (schemaFile note trigger : String) : Audit where
  sources := .ofList [(⟨"svc.ts"⟩, some "add = Req.parse(x)"), (⟨"req.ts"⟩, some schemaFile)]
  document := serviceMap note trigger
  root := ⟨""⟩

/-- When the file of the schema is emptied, its own node fails and no other record moves. -/
theorem emptied_schema_file :
    let a := serviceAudit "type Req" "old" "cron"
    let a' := serviceAudit "" "new" "POST"
    a.SamePlaces a' ∧
      a'.report.recordsOf .nodes "type:Req" ≠ a.report.recordsOf .nodes "type:Req" ∧
      a'.report.recordsOf .nodes "method:Svc.add" = a.report.recordsOf .nodes "method:Svc.add" ∧
      (a'.report.phaseRecords .edges)[0]? = (a.report.phaseRecords .edges)[0]? ∧
      a'.report.recordsOf .flows "add" = a.report.recordsOf .flows "add" ∧
      (a'.report.phaseRecords .invariants)[0]? = (a.report.phaseRecords .invariants)[0]? := by
  intro a a'
  have h : a.SamePlaces a' := ⟨rfl, rfl⟩
  have hd := verdicts_by_footprint h
  refine ⟨h, ?_, ?_, ?_, ?_, ?_⟩
  · rw [Audit.recordsOf_nodes, Audit.recordsOf_nodes]
    decide +kernel
  · exact hd.nodes _ (serviceNode "old") (serviceNode "new") (by decide) (by decide) (by decide +kernel)
  · exact hd.edges 0 0 (validatesEdge "old") (validatesEdge "new") rfl rfl (by decide +kernel)
  · exact hd.flows _ (addFlow "cron") (addFlow "POST") (by decide) (by decide) (by decide +kernel)
  · exact hd.invariants 0 0 reqInvariant reqInvariant rfl rfl (by decide +kernel)

end ContractAudit
