import ContractAudit.Proofs.Audit.EdgePolicy
import ContractAudit.Proofs.Evidence.Identifiers

/-!
# Longer identifiers

A name inside a longer identifier is no evidence. Whatever pattern for a method, a call or a
validation is found in a text, the name is a token of it (`NeedsName`). Read the other way round, a
file that never has the name as a token says nothing for it, and the report follows: its methods
fail, and edges that call or validate do not pass (`longer_identifiers_are_no_evidence`).
-/

namespace ContractAudit

open Text Pattern

/-! ## In a text -/

/-- What is found for a name in a text shows where the name stands there. -/
structure NeedsName (name text : String) : Prop where
  method : ∀ p ∈ Evidence.methodPatterns name, p.found text.toList = true →
    HasToken name.toList text.toList
  call : ∀ p ∈ Evidence.callPatterns name, p.found text.toList = true →
    HasToken name.toList text.toList
  validation : ∀ p ∈ Evidence.validationPatterns name, p.found text.toList = true →
    HasToken name.toList text.toList
  /-- A type may go on behind its name. -/
  type : ∀ p ∈ Evidence.typePatterns name, p.found text.toList = true →
    HasIdentifierFrom name.toList text.toList
  typeKeyword : (typeDeclaration name).found text.toList = true →
    HasToken name.toList text.toList

theorem needsName (name text : String) : NeedsName name text where
  method _ hp h := Evidence.hasToken_of_methodPatterns hp (found_iff.mp h)
  call _ hp h := Evidence.hasToken_of_callPatterns hp (found_iff.mp h)
  validation _ hp h := Evidence.hasToken_of_validationPatterns hp (found_iff.mp h)
  type _ hp h := Evidence.hasIdentifierFrom_of_typePatterns hp (found_iff.mp h)
  typeKeyword h := Evidence.hasToken_of_typeDeclaration (found_iff.mp h)

/-! ## In a report -/

/-- The report takes a name from a file, read with uniform line ends, only if it is a token of it. -/
structure Audit.ReadsTokens (a : Audit) : Prop where
  /-- A method has one record, and it fails. -/
  method : ∀ (id : String) (n : NodeRecord) (f : SourceFile), a.document.node? id = some n →
    Document.kindOf id (some n) = .method → a.source n = .ok f →
    ¬ HasToken (NodeId.ofString id).methodName.toList f.text.toList →
    (a.report.recordsOf .nodes id).map (·.status) = [.fail]
  calls : ∀ (i : Nat) (e : EdgeRecord) (row : CheckRecord) (source target : NodeRecord)
    (f : SourceFile), a.document.edges[i]? = some e →
    (a.report.phaseRecords .edges)[i]? = some row → a.HasEnds e source target →
    a.source source = .ok f → e.relation = .calls →
    ¬ HasToken (NodeId.ofString e.target).methodName.toList f.text.toList → row.status ≠ .pass
  validates : ∀ (i : Nat) (e : EdgeRecord) (row : CheckRecord) (source target : NodeRecord)
    (f : SourceFile) (schema : String), a.document.edges[i]? = some e →
    (a.report.phaseRecords .edges)[i]? = some row → a.HasEnds e source target →
    a.source source = .ok f → e.relation = .validates → target.schema = some schema →
    ¬ HasToken (trim schema).toList f.text.toList → row.status ≠ .pass

/-- An edge validates by the schema of its target, and a schema of blanks only warns. -/
theorem FollowsRelation.hasToken_of_validates {e : EdgeRecord} {schema text : String}
    {status : Status} (h : FollowsRelation e (some schema) text status)
    (hrel : trim e.rel = "validates") (hpass : status = .pass) :
    HasToken (trim schema).toList text.toList := by
  by_cases hblank : trim schema = ""
  · have hlacks : LacksSchema (some schema) := by
      intro s hs
      obtain rfl := Option.some.inj hs
      exact hblank
    rw [h.validatesNothing hrel hlacks] at hpass
    cases hpass
  · have hdecided := h.validates schema hrel rfl hblank
    have hfound := (hdecided.pass_iff (by decide)).mp hpass
    obtain ⟨p, hp, hocc⟩ := EdgeFamily.foundIn_iff_occursIn.mp hfound
    exact Evidence.hasToken_of_validationPatterns hp hocc

theorem Audit.readsTokens (a : Audit) : a.ReadsTokens where
  method id n f hn hk hf hnone := by
    apply method_fails hn hk hf
    intro p hp hocc
    exact hnone (Evidence.hasToken_of_methodPatterns hp hocc)
  calls i e row source target f he hrow hends hf hrel hnone hpass := by
    have hpolicy := (followsPolicy_of_places he hrow).relation_of_source hends hf
    have hdecided := hpolicy.calls (EdgeRecord.trim_rel hrel)
    have hfound := (hdecided.pass_iff (by decide)).mp hpass
    obtain ⟨p, hp, hocc⟩ := EdgeFamily.foundIn_iff_occursIn.mp hfound
    exact hnone (Evidence.hasToken_of_callPatterns hp hocc)
  validates i e row source target f schema he hrow hends hf hrel hschema hnone hpass := by
    have hpolicy := (followsPolicy_of_places he hrow).relation_of_source hends hf
    rw [hschema] at hpolicy
    exact hnone (hpolicy.hasToken_of_validates (EdgeRecord.trim_rel hrel) hpass)

/-- **A name inside a longer identifier is no evidence.** Whatever is found for a method, a call or a
validation, in whatever text, the name is a token there; what is found for a type begins an
identifier, and behind a keyword it is a token too. So a file without the token lets no method pass
or warn, and no edge pass that calls or validates. -/
theorem longer_identifiers_are_no_evidence (a : Audit) :
    (∀ name text : String, NeedsName name text) ∧ a.ReadsTokens :=
  ⟨needsName, a.readsTokens⟩

/-- A map of a method and a type in a file that names them inside longer names only. -/
def longerNames : Audit where
  sources := .ofList
    [(⟨"a.ts"⟩, some "function createAll(x) \x7b $Task.parse(recreate(x)) \x7d\r\n")]
  document :=
    { nodes := .ofList [("method:Repo.create", { loc := some "a.ts:1" }),
        ("type:Task", { loc := some "a.ts", schema := some " Task " })]
      edges := [{ source := "method:Repo.create", target := "method:Repo.create", rel := "calls" },
        { source := "method:Repo.create", target := "type:Task", rel := "validates" }] }
  root := ⟨""⟩

/-- The method fails and no edge passes, while a name that is found is a token. -/
theorem longer_names_fail :
    HasToken "create".toList "  async create(x) \x7b".toList ∧
      (longerNames.report.recordsOf .nodes "method:Repo.create").map (·.status) = [.fail] ∧
      ∃ calls validates, longerNames.report.phaseRecords .edges = [calls, validates] ∧
        calls.status ≠ .pass ∧ validates.status ≠ .pass := by
  obtain ⟨hneeds, hreads⟩ := longer_identifiers_are_no_evidence longerNames
  have hf : longerNames.source { loc := some "a.ts:1" } =
      .ok ⟨"a.ts", some 1, "function createAll(x) \x7b $Task.parse(recreate(x)) \x7d\n"⟩ := by
    decide +kernel
  have hcreate : ¬ HasToken "create".toList
      "function createAll(x) \x7b $Task.parse(recreate(x)) \x7d\n".toList := by
    rw [← token_occursIn_iff, ← found_iff]
    decide +kernel
  have htask : ¬ HasToken "Task".toList
      "function createAll(x) \x7b $Task.parse(recreate(x)) \x7d\n".toList := by
    rw [← token_occursIn_iff, ← found_iff]
    decide +kernel
  have hnumber : (longerNames.report.phaseRecords .edges).length = 2 :=
    longerNames.forall₂_followsPolicy.length_eq.symm
  obtain ⟨calls, validates, hrows⟩ := List.length_eq_two.mp hnumber
  refine ⟨(hneeds "create" "  async create(x) \x7b").method (bareMethod "create") (by decide)
    (by decide +kernel), hreads.method "method:Repo.create" _ _ rfl (by decide) hf hcreate, calls,
    validates, hrows, ?_, ?_⟩
  · exact hreads.calls 0 _ calls _ _ _ rfl (by rw [hrows]; rfl) ⟨rfl, rfl⟩ hf (by decide) hcreate
  · exact hreads.validates 1 _ validates _ _ _ " Task " rfl (by rw [hrows]; rfl) ⟨rfl, rfl⟩ hf
      (by decide) rfl htask

end ContractAudit
