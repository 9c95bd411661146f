import ContractAudit.Proofs.Audit.ReportStructure
import ContractAudit.Proofs.Evidence.Windows

/-!
# When existence fails

A declared line puts a window over a file, and evidence in the window is near. Windows are blocks
of lines, so evidence that is near is also in the file: existence fails exactly if the whole file
has no evidence (`existence_locate_fail_iff`), whatever line is declared. The line only decides
between near and elsewhere, and without one nothing is elsewhere (`locateWith_ne_elsewhere`).
-/

namespace ContractAudit

/-! ## Sources of nodes -/

/-- The line a node declares. -/
def NodeRecord.declaredLine (n : NodeRecord) : Option Nat :=
  n.loc.bind fun loc => (Location.ofString loc).line

namespace Audit

variable {a : Audit} {n : NodeRecord} {f : SourceFile}

/-- A node has a source exactly if it has a location whose file is a text. -/
theorem source_eq_ok_iff : a.source n = .ok f ↔ ∃ loc text, n.loc = some loc ∧
    a.sources.read (a.resolve loc).path = .ok text ∧
    f = ⟨a.shown (a.resolve loc).path, (a.resolve loc).line, Text.withUniformLineEnds text⟩ := by
  unfold source sourceAt
  cases n.loc with
  | none => simp
  | some loc =>
      dsimp only
      constructor
      · intro h
        cases hread : a.sources.read (a.resolve loc).path with
        | error detail =>
            rw [hread] at h
            cases h
        | ok text =>
            rw [hread] at h
            exact ⟨loc, text, rfl, hread, (Except.ok.inj h).symm⟩
      · rintro ⟨loc', text, hloc, hread, rfl⟩
        cases hloc
        rw [hread]

/-- Sources are looked at without carriage returns. -/
theorem returnFree_source (h : a.source n = .ok f) : Text.ReturnFree f.text.toList := by
  obtain ⟨loc, text, -, -, rfl⟩ := source_eq_ok_iff.mp h
  exact Text.returnFree_withUniformLineEnds text

theorem line_source (h : a.source n = .ok f) : f.line = n.declaredLine := by
  obtain ⟨loc, text, hloc, -, rfl⟩ := source_eq_ok_iff.mp h
  unfold NodeRecord.declaredLine
  rw [hloc]
  rfl

end Audit

namespace SourceFile

open Text

variable {f : SourceFile} {radius : Nat} {has : String → Bool}

/-! ## Where evidence stands -/

/-- Evidence is absent exactly if the whole file has none, provided that what a block of lines has
the file has. -/
theorem locateWith_eq_absent_iff (hf : ReturnFree f.text.toList) (hr : 0 < radius)
    (hhas : Evidence.Blockwise has) :
    f.locateWith radius has = .absent ↔ has f.text = false := by
  unfold locateWith
  cases hw : f.window radius with
  | none => cases has f.text <;> simp
  | some w =>
      -- Near is never more than the file has, so only near and elsewhere are told apart here.
      have hblock := hhas _ _ (isLineBlock_of_window hf (fun _ _ => by omega) hw)
      cases hnear : has w with
      | true =>
          have hfar := hblock hnear
          simp [hnear, hfar]
      | false => cases has f.text <;> simp [hnear]

/-- Without a declared line no evidence is elsewhere. -/
theorem locateWith_ne_elsewhere (h : f.line = none) : f.locateWith radius has ≠ .elsewhere := by
  have hw : f.window radius = none := by
    unfold window
    rw [h, Option.map_none]
  unfold locateWith
  rw [hw]
  cases has f.text <;> simp

/-! ## The status of an existence record -/

theorem existence_fail_iff (f : SourceFile) (id what : String) (ev : Evidence) :
    (f.existence id what ev).status = .fail ↔ ev = .absent := by
  cases ev <;> simp [existence, existenceVerdict, nodeRecord, CheckRecord.located]

theorem existence_warn_iff (f : SourceFile) (id what : String) (ev : Evidence) :
    (f.existence id what ev).status = .warn ↔ ev = .elsewhere := by
  cases ev <;> simp [existence, existenceVerdict, nodeRecord, CheckRecord.located]

/-- **Existence fails exactly if the file has no evidence.** -/
theorem existence_locate_fail_iff (hf : ReturnFree f.text.toList) (hr : 0 < radius)
    (id what : String) (ps : List Pattern) :
    (f.existence id what (f.locate ps radius)).status = .fail ↔
      Evidence.anyFound ps f.text = false := by
  rw [existence_fail_iff]
  exact locateWith_eq_absent_iff hf hr (Evidence.blockwise_anyFound ps)

/-- Likewise for a route without a method, where the path itself is looked for. -/
theorem existence_contains_fail_iff (hf : ReturnFree f.text.toList) (hr : 0 < radius)
    (id what path : String) :
    (f.existence id what (f.locateWith radius (contains · path))).status = .fail ↔
      contains f.text path = false := by
  rw [existence_fail_iff]
  exact locateWith_eq_absent_iff hf hr (Evidence.blockwise_contains path)

/-! ## By kind -/

/-- Whether a text has a route: the path as it stands, or a pattern for method and path. -/
def hasRoute (text : String) (route : Route) : Bool :=
  match route.method with
  | none => contains text route.path
  | some method => Evidence.anyFound (Evidence.endpointPatterns method route.path) text

theorem endpointExistence_fail_iff (hf : ReturnFree f.text.toList) (id name : String) :
    (f.endpointExistence id name).status = .fail ↔
      ((Route.ofIdentifier name).path = "" ∨ hasRoute f.text (Route.ofIdentifier name) = false) := by
  unfold endpointExistence hasRoute
  dsimp only
  by_cases hp : (Route.ofIdentifier name).path = ""
  · simp [hp, nodeRecord, CheckRecord.located]
  · have hpath : (Route.ofIdentifier name).path.isEmpty = false := by simpa using hp
    rw [if_neg (by simp [hpath]), or_iff_right hp]
    cases (Route.ofIdentifier name).method with
    | none => exact existence_contains_fail_iff hf (by decide) ..
    | some method => exact existence_locate_fail_iff hf (by decide) ..

/-- Whether a text has what a node of this kind needs to exist. -/
def hasEvidence (text id : String) (kind : NodeKind) : Prop :=
  let name := (NodeId.ofString id).name
  name ≠ "" ∧ match kind with
    | .type => Evidence.anyFound (Evidence.typePatterns name) text = true
    | .method =>
      Evidence.anyFound (Evidence.methodPatterns (NodeId.ofString id).methodName) text = true
    | .table => Evidence.anyFound (Evidence.tablePatterns name) text = true
    | .endpoint =>
      (Route.ofIdentifier name).path ≠ "" ∧ hasRoute text (Route.ofIdentifier name) = true
    | .event | .custom _ => Evidence.anyFound (Evidence.eventPatterns name) text = true

/-- **A node exists exactly if the whole file has evidence of it**, whatever line is declared. -/
theorem existsRecord_fail_iff (hf : ReturnFree f.text.toList) (id : String) (kind : NodeKind) :
    (f.existsRecord id kind).status = .fail ↔ ¬ hasEvidence f.text id kind := by
  unfold existsRecord hasEvidence
  dsimp only
  by_cases hname : (NodeId.ofString id).name = ""
  · simp [hname]
  · have hfull : (NodeId.ofString id).name.isEmpty = false := by simpa using hname
    rw [if_neg (by simp [hfull]), and_iff_right hname]
    cases kind with
    | endpoint =>
        rw [endpointExistence_fail_iff hf, not_and_or, not_not, Bool.not_eq_true]
    | _ =>
        rw [Bool.not_eq_true]
        exact existence_locate_fail_iff hf (by decide) ..

/-! ## Without a line -/

section

variable (hline : f.line = none)
include hline

theorem existence_ne_warn (id what : String) (radius : Nat) (has : String → Bool) :
    (f.existence id what (f.locateWith radius has)).status ≠ .warn := by
  intro h
  rw [existence_warn_iff] at h
  exact locateWith_ne_elsewhere hline h

theorem endpointExistence_ne_warn (id name : String) :
    (f.endpointExistence id name).status ≠ .warn := by
  unfold endpointExistence
  dsimp only
  split
  · simp
  · split
    · exact existence_ne_warn hline _ _ _ _
    · exact existence_ne_warn hline _ _ _ _

theorem existsRecord_ne_warn (id : String) (kind : NodeKind) :
    (f.existsRecord id kind).status ≠ .warn := by
  unfold existsRecord
  dsimp only
  split
  · simp
  · cases kind with
    | endpoint => exact endpointExistence_ne_warn hline _ _
    | _ => exact existence_ne_warn hline _ _ _ _

end

end SourceFile

/-! ## In the report -/

/-- The node has one `exists` record, and this is its status. -/
def Report.ExistsWith (r : Report) (id : String) (status : Status) : Prop :=
  ((r.recordsOf .nodes id).filter (·.check = "exists")).map (·.status) = [status]

instance (r : Report) (id : String) (status : Status) : Decidable (r.ExistsWith id status) := by
  unfold Report.ExistsWith
  infer_instance

/-- A node whose source can be read exists as that source says. -/
theorem Audit.existsWith_iff {a : Audit} {id : String} {n : NodeRecord} {f : SourceFile}
    {status : Status} (hn : a.document.node? id = some n)
    (hk : (Document.kindOf id (some n)).isCustom = false) (hf : a.source n = .ok f) :
    a.report.ExistsWith id status ↔
      (f.existsRecord id (Document.kindOf id (some n))).status = status := by
  have hfurther : (f.furtherRecords id n (Document.kindOf id (some n))).filter
      (·.check = "exists") = [] := by
    rw [List.filter_eq_nil_iff]
    intro r hr
    simpa using SourceFile.furtherRecords_check_ne hr
  unfold Report.ExistsWith
  rw [Audit.recordsOf_nodes, hn, Option.map_some, Option.getD_some,
    Audit.nodeBlock_records_of_ok hk hf, SourceFile.nodeRecords_eq f id n hk,
    List.filter_cons_of_pos (by simp [SourceFile.existsRecord_check]), hfurther]
  simp

/-- A method whose source can be read is looked at once. -/
theorem Audit.recordsOf_method {a : Audit} {id : String} {n : NodeRecord} {f : SourceFile}
    (hn : a.document.node? id = some n) (hk : Document.kindOf id (some n) = .method)
    (hf : a.source n = .ok f) : a.report.recordsOf .nodes id = [f.existsRecord id .method] := by
  have hcustom : (Document.kindOf id (some n)).isCustom = false := by rw [hk]; rfl
  have hfurther : f.furtherRecords id n .method = [] := by
    unfold SourceFile.furtherRecords
    split
    · rfl
    · rfl
  rw [Audit.recordsOf_nodes, hn, Option.map_some, Option.getD_some,
    Audit.nodeBlock_records_of_ok hcustom hf, SourceFile.nodeRecords_eq f id n hcustom, hk,
    hfurther]

/-- Its only record fails where no pattern of its family occurs, whatever line is declared. -/
theorem Audit.method_fails {a : Audit} {id : String} {n : NodeRecord} {f : SourceFile}
    (hn : a.document.node? id = some n) (hk : Document.kindOf id (some n) = .method)
    (hf : a.source n = .ok f)
    (hnone : ∀ p ∈ Evidence.methodPatterns (NodeId.ofString id).methodName,
      ¬ p.OccursIn f.text.toList) :
    (a.report.recordsOf .nodes id).map (·.status) = [.fail] := by
  have hfail : (f.existsRecord id .method).status = .fail := by
    rw [SourceFile.existsRecord_fail_iff (returnFree_source hf)]
    rintro ⟨-, hfound⟩
    obtain ⟨p, hp, hocc⟩ := Evidence.anyFound_iff.mp hfound
    exact hnone p hp hocc
  rw [recordsOf_method hn hk hf, List.map_singleton, hfail]

/-- Without a declared line there is no third verdict. -/
theorem Audit.existsWith_pass_iff {a : Audit} {id : String} {n : NodeRecord} {f : SourceFile}
    (hn : a.document.node? id = some n) (hk : (Document.kindOf id (some n)).isCustom = false)
    (hline : n.declaredLine = none) (hf : a.source n = .ok f) :
    a.report.ExistsWith id .pass ↔ ¬ a.report.ExistsWith id .fail := by
  have hwarn := SourceFile.existsRecord_ne_warn ((line_source hf).trans hline) id
    (Document.kindOf id (some n))
  rw [existsWith_iff hn hk hf, existsWith_iff hn hk hf]
  cases hs : (f.existsRecord id (Document.kindOf id (some n))).status with
  | pass => decide
  | warn => exact absurd hs hwarn
  | fail => decide

/-- Without a source it fails. -/
theorem Audit.existsWith_fail_of_error {a : Audit} {id : String} {n : NodeRecord}
    {fault : SourceFault} (hn : a.document.node? id = some n)
    (hk : (Document.kindOf id (some n)).isCustom = false) (hf : a.source n = .error fault) :
    a.report.ExistsWith id .fail := by
  unfold Report.ExistsWith
  rw [Audit.recordsOf_nodes, hn, Option.map_some, Option.getD_some,
    Audit.nodeBlock_records_of_error hk hf]
  simp

end ContractAudit
