import ContractAudit.Proofs.Audit.EdgePolicy
import ContractAudit.Proofs.Evidence.CallStatements

/-!
# Files of call statements

A file with nothing but calls of a name declares no method of that name, so the method fails there
wherever its line is said to be, and it has the evidence that a calling edge asks for
(`calls_are_no_declarations`). The names and the arguments are free, and words that declare methods
elsewhere are names like all others here.
-/

namespace ContractAudit

open Text

namespace Audit

variable {a : Audit} {n : NodeRecord} {text : String}

/-- The location of the node leads to a file with this text. -/
def LocatedIn (a : Audit) (n : NodeRecord) (text : String) : Prop :=
  ∃ loc, n.loc = some loc ∧ a.sources.read (a.resolve loc).path = .ok text

/-- A text without carriage returns is looked at as it stands. -/
theorem LocatedIn.exists_source (h : a.LocatedIn n text) (htext : ReturnFree text.toList) :
    ∃ f, a.source n = .ok f ∧ f.text = text := by
  obtain ⟨loc, hloc, hread⟩ := h
  exact ⟨_, source_eq_ok_iff.mpr ⟨loc, text, hloc, hread, rfl⟩,
    withUniformLineEnds_of_returnFree htext⟩

end Audit

section

variable {a : Audit} {name : PlainName} {first : CallStatement} {others : List CallStatement}

theorem Evidence.anyFound_methodPatterns_callText :
    Evidence.anyFound (Evidence.methodPatterns name.text) (callText name first others) = false := by
  rw [← Bool.not_eq_true, Evidence.anyFound_iff]
  rintro ⟨p, hp, hocc⟩
  exact Evidence.not_occursIn_callText hp hocc

theorem Evidence.anyFound_callPatterns_callText :
    Evidence.anyFound (Evidence.callPatterns name.text) (callText name first others) = true :=
  Evidence.anyFound_iff.mpr ⟨_, List.mem_singleton_self _, Evidence.callOf_occursIn_callText⟩

/-- A method does not exist by its calls. -/
theorem Audit.LocatedIn.method_fails {id : String} {n : NodeRecord}
    (h : a.LocatedIn n (callText name first others)) (hn : a.document.node? id = some n)
    (hk : Document.kindOf id (some n) = .method)
    (hname : (NodeId.ofString id).methodName = name.text) :
    (a.report.recordsOf .nodes id).map (·.status) = [.fail] := by
  obtain ⟨f, hf, htext⟩ := h.exists_source returnFree_callText
  apply Audit.method_fails hn hk hf
  intro p hp
  rw [hname] at hp
  rw [htext]
  exact Evidence.not_occursIn_callText hp

theorem FollowsPolicy.calls_pass {e : EdgeRecord} {row : CheckRecord} {source target : NodeRecord}
    (hrow : FollowsPolicy a e row) (hends : a.HasEnds e source target) (hrel : e.relation = .calls)
    (h : a.LocatedIn source (callText name first others))
    (hname : (NodeId.ofString e.target).methodName = name.text) : row.status = .pass := by
  obtain ⟨f, hf, htext⟩ := h.exists_source returnFree_callText
  have hdecided := (hrow.relation_of_source hends hf).calls (EdgeRecord.trim_rel hrel)
  rw [hdecided.pass_iff (by decide), EdgeFamily.foundIn_iff, hname, htext]
  exact Evidence.anyFound_callPatterns_callText

end

/-- **A call is no declaration.** In a text of one or more call statements of a name no pattern for
a method of that name is found, and the pattern for its call is. A method of the name that is
located in such a file has one record, which fails whether a line is declared or not, and an edge
from there that calls a method of the name passes. -/
theorem calls_are_no_declarations (a : Audit) (name : PlainName) (first : CallStatement)
    (others : List CallStatement) :
    Evidence.anyFound (Evidence.methodPatterns name.text) (callText name first others) = false ∧
    Evidence.anyFound (Evidence.callPatterns name.text) (callText name first others) = true ∧
    (∀ (id : String) (n : NodeRecord), a.document.node? id = some n →
      Document.kindOf id (some n) = .method → (NodeId.ofString id).methodName = name.text →
      a.LocatedIn n (callText name first others) →
      (a.report.recordsOf .nodes id).map (·.status) = [.fail]) ∧
    (∀ (i : Nat) (e : EdgeRecord) (row : CheckRecord) (source target : NodeRecord),
      a.document.edges[i]? = some e → (a.report.phaseRecords .edges)[i]? = some row →
      a.HasEnds e source target → e.relation = .calls →
      (NodeId.ofString e.target).methodName = name.text →
      a.LocatedIn source (callText name first others) → row.status = .pass) := by
  refine ⟨Evidence.anyFound_methodPatterns_callText, Evidence.anyFound_callPatterns_callText,
    ?_, ?_⟩
  · intro id n hn hk hname h
    exact h.method_fails hn hk hname
  · intro i e row source target he hrow hends hrel hname h
    exact (Audit.followsPolicy_of_places he hrow).calls_pass hends hrel h hname

/-- A map of a method whose name is a keyword, in a file that calls it twice. -/
def keywordCalls : Audit where
  sources := .ofList [(⟨"a.ts"⟩, some "  repo.fn(public, 2);\n\tfn();")]
  document :=
    { nodes := .ofList [("method:Repo.fn", { loc := some "a.ts:2" })]
      edges := [{ source := "method:Repo.fn", target := "method:Repo.fn", rel := "calls" }] }
  root := ⟨""⟩

/-- The method fails and the edge passes. -/
theorem keyword_calls : ∃ row,
    (keywordCalls.report.recordsOf .nodes "method:Repo.fn").map (·.status) = [.fail] ∧
      keywordCalls.report.phaseRecords .edges = [row] ∧ row.status = .pass := by
  have hlocated : keywordCalls.LocatedIn { loc := some "a.ts:2" }
      (callText ⟨"fn", by decide⟩
        { indentation := [' ', ' '], receiver := some ⟨"repo", by decide⟩
          arguments := "public, 2".toList }
        [{ indentation := ['\t'] }]) :=
    ⟨"a.ts:2", rfl, by decide +kernel⟩
  have hnumber : (keywordCalls.report.phaseRecords .edges).length = 1 :=
    keywordCalls.forall₂_followsPolicy.length_eq.symm
  obtain ⟨row, hrows⟩ := List.length_eq_one_iff.mp hnumber
  obtain ⟨-, -, hmethod, hcalls⟩ := calls_are_no_declarations keywordCalls ⟨"fn", by decide⟩ _ _
  refine ⟨row, hmethod _ _ rfl (by decide) (by decide) hlocated, hrows, ?_⟩
  exact hcalls 0 _ row _ _ rfl (by rw [hrows]; rfl) ⟨rfl, rfl⟩ (by decide) (by decide) hlocated

end ContractAudit
