import ContractAudit.Audit.Run
import Mathlib.Data.List.Basic

/-!
# What a block looks at

A block depends on little of an audit. An edge sees the file of the node it leaves, without the
line declared there, and the schema of the node it reaches (`sourceSeen`, `schemaSeen`). A flow sees
which of the ids it refers to are declared. An invariant sees of the nodes in its scope whether
their files are there and how they are shown (`fileSeen`). Two audits that agree on what an element
sees give it the same block; the lemmas `…Block_congr` say so, and comparisons of two audits go
through them and need no case analysis of their own.
-/

namespace ContractAudit

/-- A source file with its declared line forgotten. -/
def SourceFile.unlined (f : SourceFile) : SourceFile := { f with line := none }

namespace Audit

/-! ## Views of a node -/

/-- What an edge sees of the node it leaves. -/
def sourceSeen (a : Audit) (id : String) : Option (Except SourceFault SourceFile) :=
  (a.document.node? id).map fun node => (a.source node).map SourceFile.unlined

/-- What an edge sees of the node it reaches. -/
def schemaSeen (a : Audit) (id : String) : Option (Option String) :=
  (a.document.node? id).map NodeRecord.schema

/-- What an invariant sees of a node in its scope. -/
def fileSeen (a : Audit) (id : String) : Option (Option (Bool × String)) :=
  (a.document.node? id).map fun node =>
    node.loc.map fun loc => (a.isReadable loc, a.shown (a.resolve loc).path)

theorem declares_eq (a : Audit) (id : String) :
    a.document.declares id = (a.document.node? id).isSome :=
  Registry.contains_eq_isSome ..

theorem declares_eq_schemaSeen (a : Audit) (id : String) :
    a.document.declares id = (a.schemaSeen id).isSome := by
  rw [declares_eq]
  simp [schemaSeen]

theorem declares_eq_sourceSeen (a : Audit) (id : String) :
    a.document.declares id = (a.sourceSeen id).isSome := by
  rw [declares_eq]
  simp [sourceSeen]

theorem declares_eq_fileSeen (a : Audit) (id : String) :
    a.document.declares id = (a.fileSeen id).isSome := by
  rw [declares_eq]
  simp [fileSeen]

/-! ## Blocks from views -/

variable {a a' : Audit}

/-- Where the two sources agree up to the line, an edge with declared ends has one block. -/
theorem declaredEdgeBlock_congr {e : EdgeRecord} {source source' target target' : NodeRecord}
    (hs : (a'.source source').map SourceFile.unlined = (a.source source).map SourceFile.unlined)
    (ht : target'.schema = target.schema) :
    a'.declaredEdgeBlock e source' target' = a.declaredEdgeBlock e source target := by
  unfold declaredEdgeBlock
  rw [ht]
  cases h : a.source source with
  | error fault =>
      cases h' : a'.source source' with
      | error fault' =>
          rw [h, h'] at hs
          cases hs
          rfl
      | ok file' =>
          rw [h, h'] at hs
          cases hs
  | ok file =>
      cases h' : a'.source source' with
      | error fault' =>
          rw [h, h'] at hs
          cases hs
      | ok file' =>
          rw [h, h'] at hs
          obtain ⟨display, line, text⟩ := file
          obtain ⟨display', line', text'⟩ := file'
          cases hs
          rfl

theorem edgeBlock_congr {e : EdgeRecord} (hs : a'.sourceSeen e.source = a.sourceSeen e.source)
    (ht : a'.schemaSeen e.target = a.schemaSeen e.target) : a'.edgeBlock e = a.edgeBlock e := by
  have hmissing : a'.missingEnds e = a.missingEnds e := by
    unfold missingEnds
    rw [declares_eq_sourceSeen a', declares_eq_schemaSeen a', hs, ht,
      ← declares_eq_sourceSeen, ← declares_eq_schemaSeen]
  unfold edgeBlock
  rw [hmissing]
  unfold sourceSeen at hs
  unfold schemaSeen at ht
  cases h₁ : a.document.node? e.source with
  | none =>
      rw [h₁, Option.map_none, Option.map_eq_none_iff] at hs
      rw [hs]
  | some source =>
      rw [h₁, Option.map_some, Option.map_eq_some_iff] at hs
      obtain ⟨source', h₁', hs⟩ := hs
      cases h₂ : a.document.node? e.target with
      | none =>
          rw [h₂, Option.map_none, Option.map_eq_none_iff] at ht
          rw [h₁', ht]
      | some target =>
          rw [h₂, Option.map_some, Option.map_eq_some_iff] at ht
          obtain ⟨target', h₂', ht⟩ := ht
          rw [h₁', h₂']
          exact declaredEdgeBlock_congr hs ht

/-- Only the ids a flow refers to are looked up; its arms are settled within the flow. -/
theorem flowBlock_congr {name : String} {f : FlowRecord}
    (h : ∀ id ∈ f.references, a'.document.declares id = a.document.declares id) :
    a'.flowBlock name f = a.flowBlock name f := by
  have hmissing : f.references.filter (!a'.document.declares ·) =
      f.references.filter (!a.document.declares ·) :=
    List.filter_congr fun id hid => by rw [h id hid]
  unfold flowBlock FlowRecord.existence
  rw [hmissing]

theorem missingFile?_eq (a : Audit) (id : String) :
    a.missingFile? id = match (a.fileSeen id).join with
      | none => some (id ++ " (no loc)")
      | some (readable, shown) => if readable then none else some shown := by
  unfold missingFile? fileSeen
  cases a.document.node? id with
  | none => rfl
  | some node =>
      rw [Option.bind_some, Option.map_some, Option.join_some]
      cases node.loc with
      | none => rfl
      | some loc => rfl

theorem invariantBlock_congr {i : InvariantRecord}
    (h : ∀ id ∈ i.scope, a'.fileSeen id = a.fileSeen id) :
    a'.invariantBlock i = a.invariantBlock i := by
  have hmissing : i.scope.filter (!a'.document.declares ·) =
      i.scope.filter (!a.document.declares ·) :=
    List.filter_congr fun id hid => by
      rw [declares_eq_fileSeen, declares_eq_fileSeen, h id hid]
  have hfiles : i.scope.filterMap a'.missingFile? = i.scope.filterMap a.missingFile? :=
    List.filterMap_congr fun id hid => by
      rw [missingFile?_eq, missingFile?_eq, h id hid]
  unfold invariantBlock invariantVerdict
  rw [hmissing, hfiles]

/-! ## The same places -/

/-- Two audits for which a location means the same place. What stands there may differ. -/
structure SamePlaces (a a' : Audit) : Prop where
  root : a'.root = a.root
  mapRoot : a'.document.metadata.root = a.document.metadata.root

namespace SamePlaces

theorem resolve_eq (h : SamePlaces a a') : a'.resolve = a.resolve := by
  funext loc
  unfold resolve
  rw [h.root, h.mapRoot]

theorem shown_eq (h : SamePlaces a a') : a'.shown = a.shown := by
  funext p
  unfold shown
  rw [h.root]

end SamePlaces

/-! ## The same ground -/

/-- Two audits that look for a location in the same place. Their maps may differ otherwise. -/
structure SameGround (a a' : Audit) : Prop where
  sources : a'.sources = a.sources
  root : a'.root = a.root
  mapRoot : a'.document.metadata.root = a.document.metadata.root

namespace SameGround

/-- Only the path of a location decides where it leads. -/
theorem resolve_path (h : SameGround a a') {loc loc' : String}
    (hp : (Location.ofString loc').path = (Location.ofString loc).path) :
    (a'.resolve loc').path = (a.resolve loc).path := by
  unfold resolve Location.resolve
  dsimp only
  rw [h.root, h.mapRoot, hp]

theorem samePlaces (h : SameGround a a') : SamePlaces a a' := ⟨h.root, h.mapRoot⟩

theorem shown_eq (h : SameGround a a') : a'.shown = a.shown := h.samePlaces.shown_eq

theorem isReadable_eq (h : SameGround a a') {loc loc' : String}
    (hp : (Location.ofString loc').path = (Location.ofString loc).path) :
    a'.isReadable loc' = a.isReadable loc := by
  unfold isReadable
  rw [h.sources, h.resolve_path hp]

theorem sourceAt_unlined (h : SameGround a a') {loc loc' : String}
    (hp : (Location.ofString loc').path = (Location.ofString loc).path) :
    (a'.sourceAt loc').map SourceFile.unlined = (a.sourceAt loc).map SourceFile.unlined := by
  unfold sourceAt
  dsimp only
  rw [h.sources, h.shown_eq, h.resolve_path hp]
  cases a.sources.read (a.resolve loc).path <;> rfl

theorem resolve_eq (h : SameGround a a') : a'.resolve = a.resolve := h.samePlaces.resolve_eq

theorem source_eq (h : SameGround a a') : a'.source = a.source := by
  funext node
  unfold source sourceAt
  dsimp only
  rw [h.sources, h.shown_eq, h.resolve_eq]

/-- On the same ground the block of a node depends on its record alone. -/
theorem nodeBlock_eq (h : SameGround a a') : a'.nodeBlock = a.nodeBlock := by
  funext id node
  unfold nodeBlock customExistence isReadable
  rw [h.source_eq, h.sources, h.shown_eq, h.resolve_eq]

theorem sourceSeen_eq (h : SameGround a a') {id : String}
    (hn : a'.document.node? id = a.document.node? id) : a'.sourceSeen id = a.sourceSeen id := by
  unfold sourceSeen
  rw [hn, h.source_eq]

theorem schemaSeen_eq {id : String}
    (hn : a'.document.node? id = a.document.node? id) : a'.schemaSeen id = a.schemaSeen id := by
  unfold schemaSeen
  rw [hn]

theorem fileSeen_eq (h : SameGround a a') {id : String}
    (hn : a'.document.node? id = a.document.node? id) : a'.fileSeen id = a.fileSeen id := by
  unfold fileSeen isReadable
  rw [hn, h.sources, h.shown_eq, h.resolve_eq]

end SameGround

end Audit

end ContractAudit
