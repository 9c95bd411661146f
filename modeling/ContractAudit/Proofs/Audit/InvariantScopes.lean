import ContractAudit.Proofs.Audit.FilePresence

/-!
# Scopes of invariants

An invariant is left to people once its scope is in order: it is not empty, its nodes are declared
and their files are there. The first of these that does not hold decides, and names all ids that do
not meet it (`Audit.DecidesScope`). So a scope is in order exactly if each id in it is in order on
its own (`invariantVerdict_warn_iff`), and it cannot be put in order by more ids
(`scopes_are_decided_in_order`).
-/

namespace ContractAudit

namespace Audit

/-! ## What decides a scope -/

/-- The node has no location, or what its location leads to is not readable. -/
def lacksScopedFile (a : Audit) (id : String) : Bool :=
  match (a.document.node? id).bind NodeRecord.loc with
  | none => true
  | some loc => !a.sources.readable (a.resolve loc).path

/-- How a node without a file is listed: by its path, or by its id if it has no location. -/
def scopeEntry (a : Audit) (id : String) : String :=
  match (a.document.node? id).bind NodeRecord.loc with
  | none => id ++ " (no loc)"
  | some loc => a.shown (a.resolve loc).path

/-- The record that the order of the checks asks for. An empty scope comes first, then ids that are
not declared, then nodes without a file, and what is left is a review. -/
structure DecidesScope (a : Audit) (i : InvariantRecord) (row : CheckRecord) : Prop where
  not_pass : row.status ≠ .pass
  empty : row = invariantRecord i .fail "scope is empty" ↔ i.scope = []
  undeclared : (∃ id ∈ i.scope, a.document.declares id = false) →
    row = invariantRecord i .fail ("scope nodes missing: " ++
      Text.joinWith ", " (i.scope.filter (!a.document.declares ·)))
  withoutFile : (∀ id ∈ i.scope, a.document.declares id = true) →
    (∃ id ∈ i.scope, a.lacksScopedFile id = true) →
    row = invariantRecord i .fail ("scoped files not found: " ++
      Text.joinWith ", " ((i.scope.filter a.lacksScopedFile).map a.scopeEntry))
  inOrder : i.scope ≠ [] → (∀ id ∈ i.scope, a.document.declares id = true) →
    (∀ id ∈ i.scope, a.lacksScopedFile id = false) →
    ∃ enforce, row = invariantRecord i .warn ("manual review: " ++ Text.trim i.rule ++ enforce) ∧
      ((∀ text, i.enforce = some text → Text.trim text = "") → enforce = "") ∧
      ∀ text, i.enforce = some text → Text.trim text ≠ "" →
        enforce = " (enforce: " ++ Text.trim text ++ ")"

/-- The same audit with another invariant at a place. -/
def withInvariant (a : Audit) (place : Nat) (i : InvariantRecord) : Audit :=
  { a with document := { a.document with invariants := a.document.invariants.set place i } }

/-- The same audit of other sources. -/
def withSources (a : Audit) (s : Sources) : Audit := { a with sources := s }

/-- The record of the invariant at a place has this status. -/
def ScopeEndsWith (a : Audit) (place : Nat) (status : Status) : Prop :=
  (a.report.phaseRecords .invariants)[place]?.map (·.status) = some status

instance (a : Audit) (place : Nat) (status : Status) :
    Decidable (a.ScopeEndsWith place status) :=
  inferInstanceAs (Decidable (_ = _))

/-! ## The verdict, check by check -/

section

variable {a : Audit} {i : InvariantRecord}

theorem missingFile?_eq_ite (a : Audit) (id : String) :
    a.missingFile? id = if a.lacksScopedFile id then some (a.scopeEntry id) else none := by
  unfold missingFile? lacksScopedFile scopeEntry isReadable
  cases (a.document.node? id).bind NodeRecord.loc with
  | none => rfl
  | some loc =>
      by_cases hread : a.sources.readable (a.resolve loc).path = true
      · simp [hread]
      · simp [hread]

/-- The entries are made for the nodes without a file and for no others. -/
theorem filterMap_missingFile? (a : Audit) (ids : List String) :
    ids.filterMap a.missingFile? = (ids.filter a.lacksScopedFile).map a.scopeEntry := by
  rw [← List.filterMap_eq_map, List.filterMap_filter]
  apply List.filterMap_congr
  intro id _
  exact a.missingFile?_eq_ite id

theorem invariantVerdict_of_empty (h : i.scope = []) :
    a.invariantVerdict i = (.fail, "scope is empty") := by
  unfold invariantVerdict
  rw [h]
  rfl

theorem invariantVerdict_of_undeclared (h : ∃ id ∈ i.scope, a.document.declares id = false) :
    a.invariantVerdict i = (.fail, "scope nodes missing: " ++
      Text.joinWith ", " (i.scope.filter (!a.document.declares ·))) := by
  obtain ⟨id, hid, hdeclares⟩ := h
  have hnonempty : i.scope.isEmpty = false := by
    rw [List.isEmpty_eq_false_iff]
    exact List.ne_nil_of_mem hid
  have hmem : id ∈ i.scope.filter (!a.document.declares ·) :=
    List.mem_filter.mpr ⟨hid, by simp [hdeclares]⟩
  unfold invariantVerdict
  rw [hnonempty]
  cases hmissing : i.scope.filter (!a.document.declares ·) with
  | nil =>
      rw [hmissing] at hmem
      cases hmem
  | cons first rest => rfl

variable (hdeclared : ∀ id ∈ i.scope, a.document.declares id = true)
include hdeclared

theorem invariantVerdict_of_declared (h : i.scope ≠ []) :
    a.invariantVerdict i = match (i.scope.filter a.lacksScopedFile).map a.scopeEntry with
      | [] => (.warn, i.reviewMessage)
      | entry :: entries =>
        (.fail, "scoped files not found: " ++ Text.joinWith ", " (entry :: entries)) := by
  have hnonempty : i.scope.isEmpty = false := List.isEmpty_eq_false_iff.mpr h
  have hmissing : i.scope.filter (!a.document.declares ·) = [] := by
    rw [List.filter_eq_nil_iff]
    intro id hid
    rw [hdeclared id hid]
    decide
  unfold invariantVerdict
  rw [hnonempty, hmissing, filterMap_missingFile?]
  cases (i.scope.filter a.lacksScopedFile).map a.scopeEntry with
  | nil => rfl
  | cons entry entries => rfl

theorem invariantVerdict_of_withoutFile (h : ∃ id ∈ i.scope, a.lacksScopedFile id = true) :
    a.invariantVerdict i = (.fail, "scoped files not found: " ++
      Text.joinWith ", " ((i.scope.filter a.lacksScopedFile).map a.scopeEntry)) := by
  obtain ⟨id, hid, hlacks⟩ := h
  have hmem : a.scopeEntry id ∈ (i.scope.filter a.lacksScopedFile).map a.scopeEntry :=
    List.mem_map_of_mem (List.mem_filter.mpr ⟨hid, hlacks⟩)
  rw [invariantVerdict_of_declared hdeclared (List.ne_nil_of_mem hid)]
  cases hentries : (i.scope.filter a.lacksScopedFile).map a.scopeEntry with
  | nil =>
      rw [hentries] at hmem
      cases hmem
  | cons entry entries => rfl

theorem invariantVerdict_of_inOrder (hscope : i.scope ≠ [])
    (hfiles : ∀ id ∈ i.scope, a.lacksScopedFile id = false) :
    a.invariantVerdict i = (.warn, i.reviewMessage) := by
  have hnone : i.scope.filter a.lacksScopedFile = [] := by
    rw [List.filter_eq_nil_iff]
    intro id hid
    rw [hfiles id hid]
    decide
  rw [invariantVerdict_of_declared hdeclared hscope, hnone]
  rfl

end

section

variable {a : Audit} {i : InvariantRecord}

/-- **A scope is in order exactly if it is not empty and each of its ids is in order.** -/
theorem invariantVerdict_warn_iff : (a.invariantVerdict i).1 = .warn ↔ i.scope ≠ [] ∧
    ∀ id ∈ i.scope, a.document.declares id = true ∧ a.lacksScopedFile id = false := by
  constructor
  · intro hwarn
    by_cases hempty : i.scope = []
    · rw [invariantVerdict_of_empty hempty] at hwarn
      cases hwarn
    · refine ⟨hempty, ?_⟩
      by_cases hdeclared : ∀ id ∈ i.scope, a.document.declares id = true
      · intro id hid
        refine ⟨hdeclared id hid, ?_⟩
        by_contra hlacks
        rw [Bool.not_eq_false] at hlacks
        rw [invariantVerdict_of_withoutFile hdeclared ⟨id, hid, hlacks⟩] at hwarn
        cases hwarn
      · rw [invariantVerdict_of_undeclared (by simpa using hdeclared)] at hwarn
        cases hwarn
  · rintro ⟨hscope, hgood⟩
    rw [invariantVerdict_of_inOrder (fun id hid => (hgood id hid).1) hscope
      fun id hid => (hgood id hid).2]

theorem invariantVerdict_fail_iff :
    (a.invariantVerdict i).1 = .fail ↔ (a.invariantVerdict i).1 ≠ .warn := by
  unfold invariantVerdict
  split
  · simp
  · split
    · simp
    · split
      · simp
      · simp

/-- The part of a review that asks for enforcement is left out if it is blank. -/
theorem exists_reviewMessage (i : InvariantRecord) :
    ∃ enforce, i.reviewMessage = "manual review: " ++ Text.trim i.rule ++ enforce ∧
      ((∀ text, i.enforce = some text → Text.trim text = "") → enforce = "") ∧
      ∀ text, i.enforce = some text → Text.trim text ≠ "" →
        enforce = " (enforce: " ++ Text.trim text ++ ")" := by
  unfold InvariantRecord.reviewMessage
  refine ⟨_, rfl, ?_⟩
  rcases Text.bind_nonBlank?_cases i.enforce with ⟨hblank, hnone⟩ | ⟨text, henforce, hne, hsome⟩
  · rw [hnone]
    exact ⟨fun _ => rfl, fun text htext hne => absurd (hblank text htext) hne⟩
  · rw [hsome]
    constructor
    · intro hall
      exact absurd (hall text henforce) hne
    · intro text' htext' _
      rw [henforce] at htext'
      cases htext'
      rfl

theorem decidesScope_invariantVerdict (a : Audit) (i : InvariantRecord) :
    a.DecidesScope i (invariantRecord i (a.invariantVerdict i).1 (a.invariantVerdict i).2) := by
  constructor
  case not_pass =>
    intro hpass
    have hpass' : (a.invariantVerdict i).1 = .pass := hpass
    by_cases hwarn : (a.invariantVerdict i).1 = .warn
    · rw [hwarn] at hpass'
      cases hpass'
    · rw [invariantVerdict_fail_iff.mpr hwarn] at hpass'
      cases hpass'
  case empty =>
    constructor
    · intro hrow
      have hstatus : (a.invariantVerdict i).1 = .fail := congrArg CheckRecord.status hrow
      have hmessage : (a.invariantVerdict i).2 = "scope is empty" :=
        congrArg CheckRecord.message hrow
      by_contra hscope
      by_cases hdeclared : ∀ id ∈ i.scope, a.document.declares id = true
      · by_cases hfiles : ∀ id ∈ i.scope, a.lacksScopedFile id = false
        · rw [invariantVerdict_of_inOrder hdeclared hscope hfiles] at hstatus
          cases hstatus
        · rw [invariantVerdict_of_withoutFile hdeclared (by simpa using hfiles)] at hmessage
          exact append_ne_of_char 5 rfl rfl (by decide) _ hmessage.symm
      · rw [invariantVerdict_of_undeclared (by simpa using hdeclared)] at hmessage
        exact append_ne_of_char 6 rfl rfl (by decide) _ hmessage.symm
    · intro hscope
      rw [invariantVerdict_of_empty hscope]
  case undeclared =>
    intro hsome
    rw [invariantVerdict_of_undeclared hsome]
  case withoutFile =>
    intro hdeclared hsome
    rw [invariantVerdict_of_withoutFile hdeclared hsome]
  case inOrder =>
    intro hscope hdeclared hfiles
    rw [invariantVerdict_of_inOrder hdeclared hscope hfiles]
    obtain ⟨enforce, hreview, hblank, hfull⟩ := exists_reviewMessage i
    exact ⟨enforce, by rw [hreview], hblank, hfull⟩

end

/-! ## In the report -/

theorem invariant_row (a : Audit) {place : Nat} {i : InvariantRecord}
    (hi : a.document.invariants[place]? = some i) :
    (a.report.phaseRecords .invariants)[place]? =
      some (invariantRecord i (a.invariantVerdict i).1 (a.invariantVerdict i).2) := by
  rw [invariant_record, hi]
  rfl

theorem scopeEndsWith_withInvariant (a : Audit) {place : Nat}
    (h : place < a.document.invariants.length) (i : InvariantRecord) (status : Status) :
    (a.withInvariant place i).ScopeEndsWith place status ↔ (a.invariantVerdict i).1 = status := by
  have hi : (a.withInvariant place i).document.invariants[place]? = some i := by
    show (a.document.invariants.set place i)[place]? = some i
    rw [List.getElem?_set_self h]
  unfold ScopeEndsWith
  rw [invariant_row _ hi, Option.map_some, Option.some.injEq]
  exact Iff.rfl

end Audit

/-- **Scopes are decided in a fixed order**, and never as passed. Ids that are not declared decide
before any file is asked for. A scope that fails fails with any more ids in it, and one ends in a
review exactly if it is not empty and each of its ids would end in one alone. -/
theorem scopes_are_decided_in_order (a : Audit) {place : Nat} {i : InvariantRecord}
    (hi : a.document.invariants[place]? = some i) :
    ∃ row, (a.report.phaseRecords .invariants)[place]? = some row ∧ a.DecidesScope i row ∧
      ((∃ id ∈ i.scope, a.document.declares id = false) → ∀ s : Sources,
        ((a.withSources s).report.phaseRecords .invariants)[place]? = some row) ∧
      (i.scope ≠ [] → row.status = .fail → ∀ wider : InvariantRecord, i.scope ⊆ wider.scope →
        (a.withInvariant place wider).ScopeEndsWith place .fail) ∧
      (row.status = .warn ↔ i.scope ≠ [] ∧ ∀ id ∈ i.scope,
        (a.withInvariant place { i with scope := [id] }).ScopeEndsWith place .warn) := by
  have hplace : place < a.document.invariants.length := (List.getElem?_eq_some_iff.mp hi).1
  refine ⟨_, a.invariant_row hi, a.decidesScope_invariantVerdict i, ?_, ?_, ?_⟩
  · intro hundeclared s
    have hi' : (a.withSources s).document.invariants[place]? = some i := hi
    have hverdict : (a.withSources s).invariantVerdict i = a.invariantVerdict i := by
      rw [Audit.invariantVerdict_of_undeclared hundeclared,
        Audit.invariantVerdict_of_undeclared (a := a.withSources s) hundeclared]
      rfl
    rw [Audit.invariant_row _ hi', hverdict]
  · intro hscope hfail wider hwider
    rw [Audit.scopeEndsWith_withInvariant a hplace, Audit.invariantVerdict_fail_iff]
    intro hwarn
    obtain ⟨-, hgood⟩ := Audit.invariantVerdict_warn_iff.mp hwarn
    have hwarn' : (a.invariantVerdict i).1 = .warn :=
      Audit.invariantVerdict_warn_iff.mpr ⟨hscope, fun id hid => hgood id (hwider hid)⟩
    exact Audit.invariantVerdict_fail_iff.mp hfail hwarn'
  · show (a.invariantVerdict i).1 = .warn ↔ _
    rw [Audit.invariantVerdict_warn_iff]
    apply and_congr_right
    intro _
    apply forall₂_congr
    intro id _
    rw [Audit.scopeEndsWith_withInvariant a hplace, Audit.invariantVerdict_warn_iff]
    simp

/-- A node with a file, one without, and one without a location. -/
def shopScopes (scope : List String) : Audit where
  sources := .ofList [(⟨"/repo/a.ts"⟩, some "")]
  document :=
    { nodes := .ofList [("type:A", { loc := some "a.ts" }), ("type:B", { loc := some "b.ts:3" }),
        ("type:C", {})]
      invariants := [{ id := "INV-1", rule := " same\n", scope, enforce := some " test " }] }
  root := ⟨"/repo"⟩

/-- A scope with all that can be wrong in it names the ids that are not declared; without these it
lists the files, one entry for each time a node is named; and a node with a file is a review. -/
theorem mixed_scope_fails :
    let i : InvariantRecord :=
      { id := "INV-1", rule := " same\n", enforce := some " test "
        scope := ["type:B", "type:D", "type:A", "type:C", "type:D"] }
    let a := shopScopes i.scope
    a.document.invariants[0]? = some i ∧
      (∃ id ∈ i.scope, a.document.declares id = false) ∧ i.scope ≠ [] ∧
      (a.report.phaseRecords .invariants).map (·.message) =
        ["scope nodes missing: type:D, type:D"] ∧
      ((shopScopes ["type:B", "type:A", "type:C", "type:B"]).report.phaseRecords .invariants).map
        (·.message) = ["scoped files not found: b.ts, type:C (no loc), b.ts"] ∧
      ((shopScopes ["type:A"]).report.phaseRecords .invariants).map (·.message) =
        ["manual review: same (enforce: test)"] ∧
      (a.withInvariant 0 { i with scope := "type:A" :: i.scope }).ScopeEndsWith 0 .fail ∧
      ∃ row, (a.report.phaseRecords .invariants)[0]? = some row ∧ a.DecidesScope i row ∧
        ∀ s : Sources, ((a.withSources s).report.phaseRecords .invariants)[0]? = some row := by
  intro i a
  have hi : a.document.invariants[0]? = some i := by decide
  have hundeclared : ∃ id ∈ i.scope, a.document.declares id = false := by decide
  have hscope : i.scope ≠ [] := by decide
  obtain ⟨row, hrow, hdecides, hblind, hwider, -⟩ := scopes_are_decided_in_order a hi
  have hfail : row.status = .fail := by
    rw [hdecides.undeclared hundeclared]
    rfl
  exact ⟨hi, hundeclared, hscope, by decide +kernel, by decide +kernel, by decide +kernel,
    hwider hscope hfail _ (List.subset_cons_self ..), row, hrow, hdecides, hblind hundeclared⟩

end ContractAudit
