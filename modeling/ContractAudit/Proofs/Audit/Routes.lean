import ContractAudit.Proofs.Audit.Existence
import ContractAudit.Proofs.Document.Routes

/-!
# When an endpoint exists

An endpoint exists by its route. Identifiers are cut into routes as documented, except for those
that are a method and nothing else. Such an endpoint declares no path, and so it should not exist
whatever its file holds; but the method is taken for a path, and a file that has the word somewhere
is enough (`endpoint_routes`).
-/

namespace ContractAudit

open Text

namespace Audit

variable {a : Audit} {id : String} {n : NodeRecord} {f : SourceFile}

/-- An endpoint that is a method alone is looked for by the word. -/
theorem existsWith_fail_iff_of_methodAlone (hn : a.document.node? id = some n)
    (hk : Document.kindOf id (some n) = .endpoint) (hf : a.source n = .ok f)
    (h : Route.IsMethodAlone (NodeId.ofString id).identifier) :
    a.report.ExistsWith id .fail ↔ contains f.text (NodeId.ofString id).name = false := by
  have hfree : BlankFree (NodeId.ofString id).name.toList := Route.IsMethod.blankFree h
  have htrim : trim (NodeId.ofString id).name = (NodeId.ofString id).name := by
    unfold trim
    rw [trimBoth_of_blankFree hfree, String.ofList_toList]
  have hroute : Route.ofIdentifier (NodeId.ofString id).name =
      ⟨none, (NodeId.ofString id).name⟩ := by
    rw [Route.ofIdentifier_of_blankFree (by rw [htrim]; exact hfree), htrim]
  have hname : (NodeId.ofString id).name ≠ "" := by
    intro hempty
    unfold Route.IsMethodAlone at h
    have hnone : ¬ Route.IsMethod "".toList := by decide
    exact hnone (hempty ▸ h)
  rw [existsWith_iff hn (by rw [hk]; rfl) hf, hk,
    SourceFile.existsRecord_fail_iff (returnFree_source hf)]
  unfold SourceFile.hasEvidence SourceFile.hasRoute
  dsimp only
  rw [hroute, and_iff_right hname, and_iff_right hname, Bool.not_eq_true]

end Audit

/-- **Routes of endpoints.** An identifier is cut as documented unless it is a method alone. Then it
is taken for a path where it is documented to have none, so no route but that of a blank identifier
has an empty path, and an endpoint of that name fails only if its file does not hold the word. -/
theorem endpoint_routes (s : String) :
    (Route.ofIdentifier s = Route.documented s ↔ ¬ Route.IsMethodAlone s) ∧
    (Route.IsMethodAlone s →
      Route.ofIdentifier s = ⟨none, trim s⟩ ∧ Route.documented s = ⟨some (trim s), ""⟩) ∧
    ((Route.ofIdentifier s).path = "" ↔ trim s = "") ∧
    (∀ (a : Audit) (id : String) (n : NodeRecord) (f : SourceFile), a.document.node? id = some n →
      Document.kindOf id (some n) = .endpoint → a.source n = .ok f →
      (NodeId.ofString id).identifier = s → Route.IsMethodAlone s →
        (a.report.ExistsWith id .fail ↔ contains f.text (trim s) = false) ∧
        (n.declaredLine = none →
          (a.report.ExistsWith id .pass ↔ contains f.text (trim s) = true))) := by
  refine ⟨⟨?_, Route.ofIdentifier_eq_documented⟩, Route.ofIdentifier_of_methodAlone,
    Route.path_eq_empty_iff, ?_⟩
  · intro hsame h
    obtain ⟨hpath, hmethod⟩ := Route.ofIdentifier_of_methodAlone h
    rw [hpath, hmethod] at hsame
    cases hsame
  · rintro a id n f hn hk hf rfl h
    have hfail := Audit.existsWith_fail_iff_of_methodAlone hn hk hf h
    refine ⟨hfail, ?_⟩
    intro hline
    rw [Audit.existsWith_pass_iff hn (by rw [hk]; rfl) hline hf, hfail, Bool.not_eq_false]
    rfl

/-- A map of an endpoint whose identifier is a method, and the text of its file. -/
def endpointWithoutPath (text : String) : Audit where
  sources := .ofList [(⟨"a.ts"⟩, some text)]
  document := { nodes := .ofList [("endpoint:GET", { loc := some "a.ts" })] }
  root := ⟨""⟩

/-- The word in a comment is enough, and without it the endpoint fails. -/
theorem method_in_comment_is_route :
    Route.ofIdentifier " get\t/api/tasks" = Route.documented " get\t/api/tasks" ∧
      (endpointWithoutPath "// GET").report.ExistsWith "endpoint:GET" .pass ∧
      (endpointWithoutPath "// get").report.ExistsWith "endpoint:GET" .fail := by
  obtain ⟨hsame, -⟩ := endpoint_routes " get\t/api/tasks"
  obtain ⟨-, -, -, hexists⟩ := endpoint_routes "GET"
  have hupper : (endpointWithoutPath "// GET").source { loc := some "a.ts" } =
      .ok ⟨"a.ts", none, "// GET"⟩ := by decide +kernel
  have hlower : (endpointWithoutPath "// get").source { loc := some "a.ts" } =
      .ok ⟨"a.ts", none, "// get"⟩ := by decide +kernel
  refine ⟨hsame.mpr (by decide), ?_, ?_⟩
  · exact ((hexists _ "endpoint:GET" _ _ (by decide) (by decide) hupper rfl (by decide)).2
      (by decide)).mpr (by decide)
  · exact (hexists _ "endpoint:GET" _ _ (by decide) (by decide) hlower rfl (by decide)).1.mpr
      (by decide)

/-- An endpoint without a path is found where it should fail. -/
theorem endpoint_without_path_is_found :
    Route.documented "GET" = ⟨some "GET", ""⟩ ∧ Route.ofIdentifier "GET" = ⟨none, "GET"⟩ ∧
      (endpointWithoutPath "// GET").report.ExistsWith "endpoint:GET" .pass := by decide +kernel

end ContractAudit
