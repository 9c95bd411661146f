import ContractAudit.Proofs.Audit.Existence
import ContractAudit.Proofs.Evidence.EmptyNames

/-!
# Checks on empty names

An id may have no name behind its kind, or nothing behind the last dot of it. A node without an
identifier fails, but a method whose own name is empty is looked for like any other, and so is the
target of an edge. Such a check passes on whatever the file has that is left of the pattern
(`empty_names_are_looked_for`), and ordinary code has plenty of it (`empty_names_are_found`).
-/

namespace ContractAudit

open Text

/-- The name that an edge is looked for by, if its relation is looked for by a name. -/
def EdgeRecord.soughtName? (e : EdgeRecord) : Option String :=
  match e.relation with
  | .calls => some (NodeId.ofString e.target).methodName
  | .reads | .writes | .emits | .listens => some (NodeId.ofString e.target).name
  | _ => none

/-- An edge that is looked for by an empty name. -/
def EdgeRecord.LacksName (e : EdgeRecord) : Prop := e.soughtName? = some ""

instance (e : EdgeRecord) : Decidable e.LacksName := by
  unfold EdgeRecord.LacksName
  infer_instance

/-- The text has what is left of the relation's patterns without a name. -/
structure Relation.HoldsWithNothing (rel : Relation) (text : List Char) : Prop where
  calls : rel = .calls → HasBareBracket text
  access : rel = .reads ∨ rel = .writes → HasBareAccess text ∨ HasPlaceInString text
  literal : rel = .emits ∨ rel = .listens → HasEmptyQuotes text

namespace Relation

variable {text : List Char}

theorem calls_holdsWithNothing_iff : calls.HoldsWithNothing text ↔ HasBareBracket text := by
  constructor
  · intro h
    exact h.calls rfl
  · intro h
    exact { calls := fun _ => h, access := by simp, literal := by simp }

theorem access_holdsWithNothing_iff {rel : Relation} (hrel : rel = .reads ∨ rel = .writes) :
    rel.HoldsWithNothing text ↔ HasBareAccess text ∨ HasPlaceInString text := by
  constructor
  · intro h
    exact h.access hrel
  · intro h
    refine { calls := ?_, access := fun _ => h, literal := ?_ } <;>
      rcases hrel with rfl | rfl <;> simp

theorem literal_holdsWithNothing_iff {rel : Relation} (hrel : rel = .emits ∨ rel = .listens) :
    rel.HoldsWithNothing text ↔ HasEmptyQuotes text := by
  constructor
  · intro h
    exact h.literal hrel
  · intro h
    refine { calls := ?_, access := ?_, literal := fun _ => h } <;>
      rcases hrel with rfl | rfl <;> simp

end Relation

namespace SourceFile

variable {f : SourceFile}

/-! ## Edges -/

theorem verdict_pass_iff {ps : List Pattern} {found : String} {otherwise : Status × String}
    (h : otherwise.1 ≠ .pass) :
    (f.verdict ps found otherwise).1 = .pass ↔ ∃ p ∈ ps, p.OccursIn f.text.toList := by
  rw [← Evidence.anyFound_iff]
  unfold verdict
  split
  · rename_i hfound
    exact iff_of_true rfl hfound
  · rename_i hfound
    exact iff_of_false h hfound

theorem accessVerdict_empty_pass_iff (rel : Relation) : (f.accessVerdict rel "").1 = .pass ↔
    HasBareAccess f.text.toList ∨ HasPlaceInString f.text.toList := by
  unfold accessVerdict
  rw [verdict_pass_iff (by decide), ← Pattern.tableStatement_empty_occursIn_iff,
    ← Pattern.tableInString_empty_occursIn_iff]
  simp [Evidence.tableAccessPatterns]

theorem quotedVerdict_empty_pass_iff {found : String} {otherwise : Status × String}
    (h : otherwise.1 ≠ .pass) :
    (f.verdict (Evidence.quotedLiteralPatterns "") found otherwise).1 = .pass ↔
      HasEmptyQuotes f.text.toList := by
  rw [verdict_pass_iff h, ← Pattern.quoted_empty_occursIn_iff]
  simp [Evidence.quotedLiteralPatterns]

/-- **An edge to an empty name passes exactly if the text has what is left of the pattern.** -/
theorem edgeVerdict_pass_iff_of_lacksName {e : EdgeRecord} (h : e.LacksName)
    (schema : Option String) :
    (f.edgeVerdict e schema).1 = .pass ↔ e.relation.HoldsWithNothing f.text.toList := by
  unfold EdgeRecord.LacksName EdgeRecord.soughtName? at h
  unfold edgeVerdict
  dsimp only
  cases hr : e.relation with
  | calls =>
      rw [hr, Option.some.injEq] at h
      dsimp only
      unfold callsVerdict
      rw [h, verdict_pass_iff (by decide), Relation.calls_holdsWithNothing_iff,
        ← Pattern.callOf_empty_occursIn_iff]
      simp [Evidence.callPatterns]
  | reads | writes =>
      rw [hr, Option.some.injEq] at h
      dsimp only
      rw [h, accessVerdict_empty_pass_iff, Relation.access_holdsWithNothing_iff (by simp)]
  | emits | listens =>
      rw [hr, Option.some.injEq] at h
      dsimp only
      rw [h, Relation.literal_holdsWithNothing_iff (by simp)]
      exact quotedVerdict_empty_pass_iff (by decide)
  | coChange | validates | custom =>
      rw [hr] at h
      cases h

/-! ## Methods -/

/-- What is left of the patterns for a method. -/
theorem hasEvidence_method_iff {text id : String} (h : (NodeId.ofString id).methodName = "") :
    hasEvidence text id .method ↔ (NodeId.ofString id).name ≠ "" ∧
      ∃ p ∈ Evidence.methodPatterns "", p.OccursIn text.toList := by
  unfold hasEvidence
  dsimp only
  rw [h, Evidence.anyFound_iff]

end SourceFile

namespace Audit

variable {a : Audit}

/-- A declared method whose own name is empty. -/
structure DeclaresNamelessMethod (a : Audit) (id : String) (n : NodeRecord) : Prop where
  node : a.document.node? id = some n
  kind : Document.kindOf id (some n) = .method
  methodName : (NodeId.ofString id).methodName = ""

variable {id : String} {n : NodeRecord} {f : SourceFile}

theorem DeclaresNamelessMethod.isCustom (h : a.DeclaresNamelessMethod id n) :
    (Document.kindOf id (some n)).isCustom = false := by
  rw [h.kind]
  rfl

/-- Its existence fails unless its source has what is left of a pattern. -/
theorem DeclaresNamelessMethod.existsWith_fail_iff (h : a.DeclaresNamelessMethod id n) :
    a.report.ExistsWith id .fail ↔ ¬ ((NodeId.ofString id).name ≠ "" ∧ ∃ f, a.source n = .ok f ∧
      ∃ p ∈ Evidence.methodPatterns "", p.OccursIn f.text.toList) := by
  cases hf : a.source n with
  | error fault =>
      refine iff_of_true (existsWith_fail_of_error h.node h.isCustom hf) ?_
      rintro ⟨-, f, hok, -⟩
      cases hok
  | ok f =>
      rw [existsWith_iff h.node h.isCustom hf, h.kind,
        SourceFile.existsRecord_fail_iff (returnFree_source hf),
        SourceFile.hasEvidence_method_iff h.methodName]
      simp

/-- A function without a name is taken for it. -/
theorem DeclaresNamelessMethod.existsWith_pass (h : a.DeclaresNamelessMethod id n)
    (hname : (NodeId.ofString id).name ≠ "") (hline : n.declaredLine = none)
    (hf : a.source n = .ok f) (hanonymous : HasAnonymousMethod f.text.toList) :
    a.report.ExistsWith id .pass := by
  have hfail : ¬ a.report.ExistsWith id .fail := by
    rw [h.existsWith_fail_iff, not_not]
    refine ⟨hname, f, hf, Pattern.keywordMethod "", ?_, ?_⟩
    · simp [Evidence.methodPatterns]
    · exact Pattern.keywordMethod_empty_occursIn hanonymous
  rw [existsWith_pass_iff h.node h.isCustom hline hf]
  exact hfail

/-- The record of an edge to an empty name. -/
theorem edge_record_pass_iff_of_lacksName {place : Nat} {e : EdgeRecord}
    (he : a.document.edges[place]? = some e) (h : e.LacksName) :
    ∃ row, (a.report.phaseRecords .edges)[place]? = some row ∧
      (row.status = .pass ↔ ∃ source target f, a.document.node? e.source = some source ∧
        a.document.node? e.target = some target ∧ a.source source = .ok f ∧
        e.relation.HoldsWithNothing f.text.toList) := by
  rw [edge_record, he, Option.bind_some]
  rcases a.edgeBlock_cases e with ⟨source, target, hsource, htarget⟩ | hmissing
  · cases hf : a.source source with
    | error fault =>
        rw [edgeBlock_records_of_error hsource htarget hf]
        refine ⟨_, rfl, iff_of_false (by simp) ?_⟩
        rintro ⟨source', -, f, hsource', -, hok, -⟩
        rw [hsource, Option.some.injEq] at hsource'
        rw [← hsource', hf] at hok
        cases hok
    | ok f =>
        rw [edgeBlock_records_of_ok hsource htarget hf]
        refine ⟨_, rfl, ?_⟩
        rw [located_status, edgeRecord_status, SourceFile.edgeVerdict_pass_iff_of_lacksName h]
        constructor
        · intro hholds
          exact ⟨source, target, f, hsource, htarget, hf, hholds⟩
        · rintro ⟨source', -, f', hsource', -, hok, hholds⟩
          rw [hsource, Option.some.injEq] at hsource'
          rw [← hsource', hf, Except.ok.injEq] at hok
          rw [hok]
          exact hholds
  · rw [hmissing]
    refine ⟨_, rfl, iff_of_false (by simp) ?_⟩
    rintro ⟨source, target, f, hsource, htarget, hok, -⟩
    -- A record made from a source shows its file, and a fault of the ends shows none.
    rw [edgeBlock_records_of_ok hsource htarget hok] at hmissing
    have hfile : [some f.display] = [none] := congrArg (List.map CheckRecord.file) hmissing
    simp at hfile

end Audit

/-- **Empty names are looked for.** The existence of a method whose own name is empty fails only if
its source has nothing that is left of a pattern, and a function without a name is enough. An edge
to an empty name passes exactly if the source has what is left of the patterns of its relation. -/
theorem empty_names_are_looked_for (a : Audit) :
    (∀ id n, a.DeclaresNamelessMethod id n →
      (a.report.ExistsWith id .fail ↔ ¬ ((NodeId.ofString id).name ≠ "" ∧ ∃ f,
        a.source n = .ok f ∧ ∃ p ∈ Evidence.methodPatterns "", p.OccursIn f.text.toList)) ∧
      ((NodeId.ofString id).name ≠ "" → n.declaredLine = none →
        (∃ f, a.source n = .ok f ∧ HasAnonymousMethod f.text.toList) →
        a.report.ExistsWith id .pass)) ∧
    (∀ (place : Nat) (e : EdgeRecord), a.document.edges[place]? = some e → e.LacksName → ∃ row,
      (a.report.phaseRecords .edges)[place]? = some row ∧
        (row.status = .pass ↔ ∃ source target f, a.document.node? e.source = some source ∧
          a.document.node? e.target = some target ∧ a.source source = .ok f ∧
          e.relation.HoldsWithNothing f.text.toList)) := by
  constructor
  · intro id n h
    refine ⟨h.existsWith_fail_iff, ?_⟩
    rintro hname hline ⟨f, hf, hanonymous⟩
    exact h.existsWith_pass hname hline hf hanonymous
  · intro place e he h
    exact Audit.edge_record_pass_iff_of_lacksName he h

/-- A map without names over a function without a name. -/
def anonymousFunction : Audit where
  sources := .ofList [(⟨"a.ts"⟩, some "function () \x7b return '' \x7d")]
  document :=
    { nodes := .ofList [("method:Repo.", { loc := some "a.ts" }), ("table:", { loc := some "a.ts" }),
        ("event:", { loc := some "a.ts" })]
      edges := [
        { source := "method:Repo.", target := "method:Repo.", rel := "calls" },
        { source := "method:Repo.", target := "table:", rel := "reads" },
        { source := "method:Repo.", target := "table:", rel := "writes" },
        { source := "method:Repo.", target := "event:", rel := "emits" },
        { source := "method:Repo.", target := "event:", rel := "listens" }] }
  root := ⟨""⟩

theorem anonymousFunction_declaresNamelessMethod :
    anonymousFunction.DeclaresNamelessMethod "method:Repo." { loc := some "a.ts" } where
  node := by decide +kernel
  kind := by decide
  methodName := by decide

theorem anonymousFunction_source : anonymousFunction.source { loc := some "a.ts" } =
    .ok ⟨"a.ts", none, "function () \x7b return '' \x7d"⟩ := by decide +kernel

/-- The method is found, and the call of it too. -/
theorem anonymous_function_is_taken :
    anonymousFunction.DeclaresNamelessMethod "method:Repo." { loc := some "a.ts" } ∧
      anonymousFunction.report.ExistsWith "method:Repo." .pass ∧
      ∃ row, (anonymousFunction.report.phaseRecords .edges)[0]? = some row ∧ row.status = .pass := by
  have hmethod := (empty_names_are_looked_for anonymousFunction).1 _ _
    anonymousFunction_declaresNamelessMethod
  obtain ⟨row, hrow, hpass⟩ := (empty_names_are_looked_for anonymousFunction).2 0 _ rfl (by decide)
  refine ⟨anonymousFunction_declaresNamelessMethod, hmethod.2 (by decide) (by decide) ?_, row, hrow,
    hpass.mpr ?_⟩
  · exact ⟨_, anonymousFunction_source, [], "function", [' '], ") \x7b return '' \x7d".toList,
      by decide +kernel, by rintro c ⟨⟩, by decide, by decide⟩
  · refine ⟨_, _, _, anonymousFunction_declaresNamelessMethod.node,
      anonymousFunction_declaresNamelessMethod.node, anonymousFunction_source,
      Relation.calls_holdsWithNothing_iff.mpr
        ⟨"function ".toList, ") \x7b return '' \x7d".toList, ?_, ?_⟩⟩
    · decide +kernel
    · rintro c ⟨⟩
      decide

/-- All of the checks pass, although none of the names is there. -/
theorem empty_names_are_found :
    (NodeId.ofString "method:Repo.").methodName = "" ∧
      anonymousFunction.report.ExistsWith "method:Repo." .pass ∧
      (∀ e ∈ anonymousFunction.document.edges, e.LacksName) ∧
      (anonymousFunction.report.phaseRecords .edges).map CheckRecord.status =
        [.pass, .pass, .pass, .pass, .pass] := by decide +kernel

end ContractAudit
