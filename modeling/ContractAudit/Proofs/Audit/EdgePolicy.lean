import ContractAudit.Proofs.Audit.Existence
import ContractAudit.Proofs.Audit.FilePresence
import ContractAudit.Proofs.Evidence.Notation

/-!
# The policy for edges

What becomes of an edge is a table. Ends that are not declared come first, then a source that cannot
be read; only behind these two does the relation decide, by what its family finds in the source. The
table is stated here on words and texts (`FollowsPolicy`), and families are meant as they are
written down: a family is found if its notations compile and one of the patterns occurs. Every
record of an edge follows the table (`edge_policy`).

Comparisons of edges are read off the table alone. Whether the relation decides at all depends on
the ends only (`decided_or_fails`), so edges with the same ends are compared by their rows.
-/

namespace ContractAudit

/-! ## The table -/

/-- A family is found in a text if it compiles and one of its patterns occurs. -/
def EdgeFamily.FoundIn (family : EdgeFamily) (text : String) : Prop :=
  ∃ ps, PatternNotation.compile family.notations = some ps ∧ ∃ p ∈ ps, p.OccursIn text.toList

/-- The status is PASS if the family is found in the text, and otherwise the given one. -/
def Status.DecidedBy (status : Status) (family : EdgeFamily) (text : String) (otherwise : Status) :
    Prop :=
  (family.FoundIn text ∧ status = .pass) ∨ (¬ family.FoundIn text ∧ status = otherwise)

/-- The words for relations that are checked. -/
def relationWords : List String :=
  ["co_change", "validates", "calls", "writes", "reads", "emits", "listens"]

/-- The schema is missing, or there is nothing but blanks in it. -/
def LacksSchema (schema : Option String) : Prop := ∀ s, schema = some s → Text.trim s = ""

/-- The rows of the table for an edge whose source has the text. The word of the relation counts
without the blanks around it. -/
structure FollowsRelation (e : EdgeRecord) (schema : Option String) (text : String)
    (status : Status) : Prop where
  coChange : Text.trim e.rel = "co_change" → status = .pass
  unknown : Text.trim e.rel ∉ relationWords → status = .pass
  validatesNothing : Text.trim e.rel = "validates" → LacksSchema schema → status = .warn
  validates : ∀ s, Text.trim e.rel = "validates" → schema = some s → Text.trim s ≠ "" →
    status.DecidedBy (.validation (Text.trim s)) text .fail
  calls : Text.trim e.rel = "calls" →
    status.DecidedBy (.call (NodeId.ofString e.target).methodName) text .fail
  emits : Text.trim e.rel = "emits" →
    status.DecidedBy (.literal (NodeId.ofString e.target).name) text .fail
  listens : Text.trim e.rel = "listens" →
    status.DecidedBy (.literal (NodeId.ofString e.target).name) text .warn
  writes : Text.trim e.rel = "writes" →
    status.DecidedBy (.access (NodeId.ofString e.target).name) text .warn
  reads : Text.trim e.rel = "reads" →
    status.DecidedBy (.access (NodeId.ofString e.target).name) text .warn

namespace Audit

/-- The ends of the edge are declared, as these two nodes. -/
def HasEnds (a : Audit) (e : EdgeRecord) (source target : NodeRecord) : Prop :=
  a.document.node? e.source = some source ∧ a.document.node? e.target = some target

end Audit

/-- The record of an edge follows the table. -/
structure FollowsPolicy (a : Audit) (e : EdgeRecord) (row : CheckRecord) : Prop where
  about : row.IsAbout .edges e.label
  sourceMissing : a.document.declares e.source = false → a.document.declares e.target = true →
    row.status = .fail ∧ row.message = "source node missing: " ++ e.source
  targetMissing : a.document.declares e.source = true → a.document.declares e.target = false →
    row.status = .fail ∧ row.message = "target node missing: " ++ e.target
  bothMissing : a.document.declares e.source = false → a.document.declares e.target = false →
    row.status = .fail ∧ row.message =
      "source node missing: " ++ e.source ++ "; " ++ ("target node missing: " ++ e.target)
  withoutLocation : ∀ source target, a.HasEnds e source target → source.loc = none →
    row.status = .fail
  unreadable : ∀ source target loc fault, a.HasEnds e source target → source.loc = some loc →
    a.sources.read (a.resolve loc).path = .error fault → row.status = .fail
  readable : ∀ source target loc text, a.HasEnds e source target → source.loc = some loc →
    a.sources.read (a.resolve loc).path = .ok text →
    FollowsRelation e target.schema (Text.withUniformLineEnds text) row.status

/-! ## Relations -/

/-- A word names the relation that is written with it. -/
theorem EdgeRecord.relation_of_trim {e : EdgeRecord} (rel : Relation)
    (hrel : rel.isCustom = false) (h : Text.trim e.rel = rel.text) : e.relation = rel := by
  unfold EdgeRecord.relation Relation.ofString
  rw [h]
  cases rel with
  | custom name => cases hrel
  | _ => rfl

/-- Every relation is written with its word. -/
theorem Relation.text_ofString (raw : String) : (Relation.ofString raw).text = Text.trim raw := by
  unfold Relation.ofString
  split <;> rename_i hword
  case h_8 => rfl
  all_goals
    rw [hword]
    rfl

theorem EdgeRecord.trim_rel {e : EdgeRecord} {rel : Relation} (h : e.relation = rel) :
    Text.trim e.rel = rel.text := by
  rw [← h]
  exact (Relation.text_ofString e.rel).symm

theorem EdgeRecord.relation_of_unknown {e : EdgeRecord} (h : Text.trim e.rel ∉ relationWords) :
    e.relation = .custom (Text.trim e.rel) := by
  unfold EdgeRecord.relation Relation.ofString
  split
  case h_8 => rfl
  all_goals
    rename_i hword
    exact absurd (by rw [hword]; decide) h

namespace EdgeFamily

variable {family : EdgeFamily} {text : String}

theorem foundIn_iff : family.FoundIn text ↔ Evidence.anyFound family.patterns text = true := by
  rw [← Evidence.anyFound_map_laidOut]
  unfold FoundIn Evidence.anyFound
  rw [family.compile_notations, List.any_eq_true]
  simp only [Option.some.injEq, exists_eq_left', Pattern.found_iff]

theorem foundIn_iff_occursIn :
    family.FoundIn text ↔ ∃ p ∈ family.patterns, p.OccursIn text.toList :=
  foundIn_iff.trans Evidence.anyFound_iff

end EdgeFamily

namespace SourceFile

variable (f : SourceFile) (e : EdgeRecord) (schema : Option String)

theorem verdict_decidedBy (family : EdgeFamily) (found : String) (otherwise : Status × String) :
    (f.verdict family.patterns found otherwise).1.DecidedBy family f.text otherwise.1 := by
  unfold verdict Status.DecidedBy
  rw [EdgeFamily.foundIn_iff]
  split
  · exact Or.inl ⟨‹_›, rfl⟩
  · exact Or.inr ⟨‹_›, rfl⟩

/-- **The verdict on an edge follows the rows of the table.** -/
theorem edgeVerdict_followsRelation :
    FollowsRelation e schema f.text (f.edgeVerdict e schema).1 := by
  unfold edgeVerdict
  constructor
  case coChange =>
      intro h
      rw [EdgeRecord.relation_of_trim .coChange rfl h]
  case unknown =>
      intro h
      rw [EdgeRecord.relation_of_unknown h]
  case validatesNothing =>
      intro h hlacks
      rw [EdgeRecord.relation_of_trim .validates rfl h]
      unfold validatesVerdict
      rcases Text.bind_nonBlank?_cases schema with ⟨-, hnone⟩ | ⟨s, hs, hne, -⟩
      · rw [hnone]
      · exact absurd (hlacks s hs) hne
  case validates =>
      intro s h hschema hne
      rw [EdgeRecord.relation_of_trim .validates rfl h, hschema]
      unfold validatesVerdict
      rw [Option.bind_some, Text.nonBlank?_eq_some_iff.mpr ⟨hne, rfl⟩]
      exact f.verdict_decidedBy (.validation _) _ _
  case calls =>
      intro h
      rw [EdgeRecord.relation_of_trim .calls rfl h]
      exact f.verdict_decidedBy (.call _) _ _
  case emits =>
      intro h
      rw [EdgeRecord.relation_of_trim .emits rfl h]
      exact f.verdict_decidedBy (.literal _) _ _
  case listens =>
      intro h
      rw [EdgeRecord.relation_of_trim .listens rfl h]
      exact f.verdict_decidedBy (.literal _) _ _
  case writes =>
      intro h
      rw [EdgeRecord.relation_of_trim .writes rfl h]
      exact f.verdict_decidedBy (.access _) _ _
  case reads =>
      intro h
      rw [EdgeRecord.relation_of_trim .reads rfl h]
      exact f.verdict_decidedBy (.access _) _ _

end SourceFile

/-! ## Records -/

namespace Audit

variable {a : Audit} {e : EdgeRecord} {source target : NodeRecord}

theorem HasEnds.declares (h : a.HasEnds e source target) :
    a.document.declares e.source = true ∧ a.document.declares e.target = true := by
  rw [declares_eq, declares_eq, h.1, h.2]
  exact ⟨rfl, rfl⟩

theorem exists_hasEnds (hsource : a.document.declares e.source = true)
    (htarget : a.document.declares e.target = true) :
    ∃ source target, a.HasEnds e source target := by
  rw [declares_eq, Option.isSome_iff_exists] at hsource htarget
  obtain ⟨source, hsource⟩ := hsource
  obtain ⟨target, htarget⟩ := htarget
  exact ⟨source, target, hsource, htarget⟩

theorem HasEnds.eq {source' target' : NodeRecord} (h : a.HasEnds e source target)
    (h' : a.HasEnds e source' target') : source' = source ∧ target' = target :=
  ⟨Option.some.inj (h'.1.symm.trans h.1), Option.some.inj (h'.2.symm.trans h.2)⟩

theorem source_of_read_error {loc fault : String} (hloc : source.loc = some loc)
    (h : a.sources.read (a.resolve loc).path = .error fault) :
    ∃ u, a.source source = .error (.unreadable u) := by
  unfold Audit.source sourceAt
  rw [hloc]
  dsimp only
  rw [h]
  exact ⟨_, rfl⟩

/-- The record of an edge with declared ends. -/
theorem HasEnds.followsPolicy (h : a.HasEnds e source target) {row : CheckRecord}
    (habout : row.IsAbout .edges e.label)
    (hfault : ∀ fault, a.source source = .error fault → row.status = .fail)
    (hfile : ∀ f, a.source source = .ok f → FollowsRelation e target.schema f.text row.status) :
    FollowsPolicy a e row where
  about := habout
  sourceMissing hmissing _ := by
    rw [h.declares.1] at hmissing
    cases hmissing
  targetMissing _ hmissing := by
    rw [h.declares.2] at hmissing
    cases hmissing
  bothMissing hmissing _ := by
    rw [h.declares.1] at hmissing
    cases hmissing
  withoutLocation source' target' h' hloc := by
    obtain ⟨rfl, rfl⟩ := h.eq h'
    exact hfault .noLocation (source_of_no_loc hloc)
  unreadable source' target' loc fault h' hloc hread := by
    obtain ⟨rfl, rfl⟩ := h.eq h'
    obtain ⟨u, hu⟩ := source_of_read_error hloc hread
    exact hfault (.unreadable u) hu
  readable source' target' loc text h' hloc hread := by
    obtain ⟨rfl, rfl⟩ := h.eq h'
    exact hfile _ (source_eq_ok_iff.mpr ⟨loc, text, hloc, hread, rfl⟩)

/-- The record of an edge that lacks an end names what it lacks. -/
theorem followsPolicy_of_missingEnds (hmissing : ¬ (a.document.declares e.source = true ∧
      a.document.declares e.target = true)) :
    FollowsPolicy a e (edgeRecord e .fail (Text.joinWith "; " (a.missingEnds e))) where
  about := ⟨rfl, rfl⟩
  sourceMissing hsource htarget := by
    refine ⟨rfl, ?_⟩
    show Text.joinWith "; " (a.missingEnds e) = _
    unfold missingEnds
    rw [hsource, htarget]
    rfl
  targetMissing hsource htarget := by
    refine ⟨rfl, ?_⟩
    show Text.joinWith "; " (a.missingEnds e) = _
    unfold missingEnds
    rw [hsource, htarget]
    rfl
  bothMissing hsource htarget := by
    refine ⟨rfl, ?_⟩
    show Text.joinWith "; " (a.missingEnds e) = _
    unfold missingEnds
    rw [hsource, htarget]
    rfl
  withoutLocation _ _ h _ := absurd h.declares hmissing
  unreadable _ _ _ _ h _ _ := absurd h.declares hmissing
  readable _ _ _ _ h _ _ := absurd h.declares hmissing

/-- **The record of every edge follows the table.** -/
theorem edgeBlock_followsPolicy (a : Audit) (e : EdgeRecord) :
    ∃ row, (a.edgeBlock e).records = [row] ∧ FollowsPolicy a e row := by
  by_cases hends : a.document.declares e.source = true ∧ a.document.declares e.target = true
  · obtain ⟨source, target, h⟩ := exists_hasEnds hends.1 hends.2
    cases hf : a.source source with
    | error fault =>
        refine ⟨_, edgeBlock_records_of_error h.1 h.2 hf, h.followsPolicy ?_ ?_ ?_⟩
        · cases fault <;> exact ⟨rfl, rfl⟩
        · intro _ _
          exact edgeFaultRecord_status e fault
        · intro f hok
          rw [hf] at hok
          cases hok
    | ok f =>
        refine ⟨_, edgeBlock_records_of_ok h.1 h.2 hf, h.followsPolicy ⟨rfl, rfl⟩ ?_ ?_⟩
        · intro fault herror
          rw [hf] at herror
          cases herror
        · intro f' hok
          obtain rfl := Except.ok.inj (hf.symm.trans hok)
          rw [located_status, edgeRecord_status]
          exact f.edgeVerdict_followsRelation e target.schema
  · rcases a.edgeBlock_cases e with ⟨source, target, hsource, htarget⟩ | hrecords
    · exact absurd (HasEnds.declares ⟨hsource, htarget⟩) hends
    · exact ⟨_, hrecords, followsPolicy_of_missingEnds hends⟩

/-- The record at the place of an edge is the one that follows the table. -/
theorem followsPolicy_of_places {i : Nat} {row : CheckRecord}
    (he : a.document.edges[i]? = some e) (hrow : (a.report.phaseRecords .edges)[i]? = some row) :
    FollowsPolicy a e row := by
  rw [edge_record, he, Option.bind_some] at hrow
  obtain ⟨row', hrecords, h⟩ := a.edgeBlock_followsPolicy e
  rw [hrecords] at hrow
  cases hrow
  exact h

theorem forall₂_followsPolicy (a : Audit) :
    List.Forall₂ (FollowsPolicy a) a.document.edges (a.report.phaseRecords .edges) := by
  rw [report_phaseRecords]
  unfold phaseRecords blocks edgeBlocks
  rw [List.flatMap_map]
  exact forall₂_flatMap_singletons a.edgeBlock_followsPolicy a.document.edges

end Audit

/-! ## Edges with the same ends -/

/-- The edges lead from the same node to the same node. -/
def EdgeRecord.SameEnds (e e' : EdgeRecord) : Prop := e'.source = e.source ∧ e'.target = e.target

theorem FollowsPolicy.fail_of_missing {a : Audit} {e : EdgeRecord} {row : CheckRecord}
    (h : FollowsPolicy a e row) (hmissing : ¬ (a.document.declares e.source = true ∧
      a.document.declares e.target = true)) : row.status = .fail := by
  cases hsource : a.document.declares e.source with
  | false =>
      cases htarget : a.document.declares e.target with
      | false => exact (h.bothMissing hsource htarget).1
      | true => exact (h.sourceMissing hsource htarget).1
  | true =>
      cases htarget : a.document.declares e.target with
      | false => exact (h.targetMissing hsource htarget).1
      | true => exact absurd ⟨hsource, htarget⟩ hmissing

/-- Where the source can be read its text decides. -/
theorem FollowsPolicy.relation_of_source {a : Audit} {e : EdgeRecord} {row : CheckRecord}
    {source target : NodeRecord} {f : SourceFile} (h : FollowsPolicy a e row)
    (hends : a.HasEnds e source target) (hf : a.source source = .ok f) :
    FollowsRelation e target.schema f.text row.status := by
  obtain ⟨loc, text, hloc, hread, rfl⟩ := Audit.source_eq_ok_iff.mp hf
  exact h.readable source target loc text hends hloc hread

/-- An edge that does not fail has a source that can be read. -/
theorem FollowsPolicy.exists_source {a : Audit} {e : EdgeRecord} {row : CheckRecord}
    {source target : NodeRecord} (h : FollowsPolicy a e row) (hends : a.HasEnds e source target)
    (hne : row.status ≠ .fail) : ∃ f, a.source source = .ok f := by
  cases hf : a.source source with
  | ok f => exact ⟨f, rfl⟩
  | error fault =>
      exfalso
      apply hne
      cases hloc : source.loc with
      | none => exact h.withoutLocation source target hends hloc
      | some loc =>
          cases hread : a.sources.read (a.resolve loc).path with
          | error detail => exact h.unreadable source target loc detail hends hloc hread
          | ok text =>
              have hok := Audit.source_eq_ok_iff.mpr ⟨loc, text, hloc, hread, rfl⟩
              rw [hf] at hok
              cases hok

/-- **The ends decide whether the relation decides.** Either every edge with these ends fails,
whatever its relation, or the rows for one text decide each of them. -/
theorem decided_or_fails (a : Audit) (e : EdgeRecord) :
    (∀ e' row, e.SameEnds e' → FollowsPolicy a e' row → row.status = .fail) ∨
      ∃ schema text, ∀ e' row, e.SameEnds e' → FollowsPolicy a e' row →
        FollowsRelation e' schema text row.status := by
  -- The ends, the location and the file come before the relation, and the ends fix all of them.
  by_cases hends : a.document.declares e.source = true ∧ a.document.declares e.target = true
  · obtain ⟨source, target, h⟩ := Audit.exists_hasEnds hends.1 hends.2
    have hends' : ∀ {e'}, e.SameEnds e' → a.HasEnds e' source target := by
      rintro e' ⟨hs, ht⟩
      unfold Audit.HasEnds
      rw [hs, ht]
      exact h
    cases hloc : source.loc with
    | none =>
        left
        intro e' row hsame hrow
        exact hrow.withoutLocation source target (hends' hsame) hloc
    | some loc =>
        cases hread : a.sources.read (a.resolve loc).path with
        | error fault =>
            left
            intro e' row hsame hrow
            exact hrow.unreadable source target loc fault (hends' hsame) hloc hread
        | ok text =>
            right
            refine ⟨target.schema, Text.withUniformLineEnds text, ?_⟩
            intro e' row hsame hrow
            exact hrow.readable source target loc text (hends' hsame) hloc hread
  · left
    rintro e' row ⟨hs, ht⟩ hrow
    refine hrow.fail_of_missing ?_
    rw [hs, ht]
    exact hends

namespace Status.DecidedBy

variable {status status' otherwise : Status} {family : EdgeFamily} {text : String}

theorem pass_iff (h : status.DecidedBy family text otherwise) (hne : otherwise ≠ .pass) :
    status = .pass ↔ family.FoundIn text := by
  rcases h with ⟨hfound, rfl⟩ | ⟨hnot, rfl⟩
  · exact iff_of_true rfl hfound
  · exact iff_of_false hne hnot

theorem unique (h : status.DecidedBy family text otherwise)
    (h' : status'.DecidedBy family text otherwise) : status = status' := by
  rcases h with ⟨hfound, rfl⟩ | ⟨hnot, rfl⟩
  · rcases h' with ⟨-, rfl⟩ | ⟨hnot, -⟩
    · rfl
    · exact absurd hfound hnot
  · rcases h' with ⟨hfound, -⟩ | ⟨-, rfl⟩
    · exact absurd hfound hnot
    · rfl

theorem ne_fail (h : status.DecidedBy family text .warn) : status ≠ .fail := by
  rcases h with ⟨-, rfl⟩ | ⟨-, rfl⟩ <;> decide

end Status.DecidedBy

namespace FollowsPolicy

variable {a : Audit} {e e' : EdgeRecord} {row row' : CheckRecord}

/-- To listen passes exactly where to emit does. -/
theorem listens_pass_iff (h : FollowsPolicy a e row) (h' : FollowsPolicy a e' row')
    (hsame : e.SameEnds e') (hlistens : Text.trim e.rel = "listens")
    (hemits : Text.trim e'.rel = "emits") : row.status = .pass ↔ row'.status = .pass := by
  rcases decided_or_fails a e with hfail | ⟨schema, text, hrow⟩
  · rw [hfail e row ⟨rfl, rfl⟩ h, hfail e' row' hsame h']
  · have hrow' := (hrow e' row' hsame h').emits hemits
    rw [hsame.2] at hrow'
    rw [((hrow e row ⟨rfl, rfl⟩ h).listens hlistens).pass_iff (by decide),
      hrow'.pass_iff (by decide)]

/-- To read and to write come to the same. -/
theorem reads_status_eq (h : FollowsPolicy a e row) (h' : FollowsPolicy a e' row')
    (hsame : e.SameEnds e') (hreads : Text.trim e.rel = "reads")
    (hwrites : Text.trim e'.rel = "writes") : row.status = row'.status := by
  rcases decided_or_fails a e with hfail | ⟨schema, text, hrow⟩
  · rw [hfail e row ⟨rfl, rfl⟩ h, hfail e' row' hsame h']
  · have hrow' := (hrow e' row' hsame h').writes hwrites
    rw [hsame.2] at hrow'
    exact ((hrow e row ⟨rfl, rfl⟩ h).reads hreads).unique hrow'

end FollowsPolicy

/-- A soft relation never fails an edge by its row of the table. -/
theorem FollowsRelation.ne_fail_of_soft {e : EdgeRecord} {schema : Option String} {text : String}
    {status : Status} (h : FollowsRelation e schema text status)
    (hsoft : Text.trim e.rel ∈ ["reads", "writes", "listens"]) : status ≠ .fail := by
  simp only [List.mem_cons, List.not_mem_nil, or_false] at hsoft
  rcases hsoft with hreads | hwrites | hlistens
  · exact (h.reads hreads).ne_fail
  · exact (h.writes hwrites).ne_fail
  · exact (h.listens hlistens).ne_fail

/-! ## The policy -/

/-- What the records of the edges of a document come to. -/
structure EdgePolicy (a : Audit) : Prop where
  /-- The records are those of the edges in turn, and each follows the table. -/
  table : List.Forall₂ (FollowsPolicy a) a.document.edges (a.report.phaseRecords .edges)
  /-- Every name compiles in every family. -/
  compiles : ∀ family : EdgeFamily, ∃ ps, PatternNotation.compile family.notations = some ps
  /-- So a verdict is never that a pattern is invalid. -/
  neverInvalid : ∀ (f : SourceFile) (fault : String) (family : EdgeFamily) (found : String)
    (otherwise : Status × String),
    f.evidence fault family found otherwise = f.verdict family.patterns found otherwise
  listensLikeEmits : ∀ (i j : Nat) (e e' : EdgeRecord) (row row' : CheckRecord),
    a.document.edges[i]? = some e → a.document.edges[j]? = some e' →
    (a.report.phaseRecords .edges)[i]? = some row → (a.report.phaseRecords .edges)[j]? = some row' →
    e.SameEnds e' → Text.trim e.rel = "listens" → Text.trim e'.rel = "emits" →
    (row.status = .pass ↔ row'.status = .pass)
  readsLikeWrites : ∀ (i j : Nat) (e e' : EdgeRecord) (row row' : CheckRecord),
    a.document.edges[i]? = some e → a.document.edges[j]? = some e' →
    (a.report.phaseRecords .edges)[i]? = some row → (a.report.phaseRecords .edges)[j]? = some row' →
    e.SameEnds e' → Text.trim e.rel = "reads" → Text.trim e'.rel = "writes" →
    row.status = row'.status
  softNeverFails : ∀ (i : Nat) (e : EdgeRecord) (row : CheckRecord) (source target : NodeRecord)
    (loc text : String), a.document.edges[i]? = some e →
    (a.report.phaseRecords .edges)[i]? = some row → a.HasEnds e source target →
    source.loc = some loc → a.sources.read (a.resolve loc).path = .ok text →
    Text.trim e.rel ∈ ["reads", "writes", "listens"] → row.status ≠ .fail

/-- **The edges of every document follow the policy table**, against any sources and from any
root. -/
theorem edge_policy (a : Audit) : EdgePolicy a where
  table := a.forall₂_followsPolicy
  compiles family := ⟨_, family.compile_notations⟩
  neverInvalid f fault family found otherwise := f.evidence_eq_verdict fault family found otherwise
  listensLikeEmits _ _ _ _ _ _ he he' hrow hrow' hsame :=
    (Audit.followsPolicy_of_places he hrow).listens_pass_iff
      (Audit.followsPolicy_of_places he' hrow') hsame
  readsLikeWrites _ _ _ _ _ _ he he' hrow hrow' hsame :=
    (Audit.followsPolicy_of_places he hrow).reads_status_eq
      (Audit.followsPolicy_of_places he' hrow') hsame
  softNeverFails _ _ _ source target loc text he hrow hends hloc hread :=
    ((Audit.followsPolicy_of_places he hrow).readable source target loc text hends hloc
      hread).ne_fail_of_soft

/-- A map of one event with two edges to itself, the first of which listens with blanks around the
word. The file of the event says nothing of it. -/
def silentEvent : Audit where
  sources := .ofList [(⟨"a.ts"⟩, some "on(y)\r\n")]
  document :=
    { nodes := .ofList [("event:x", { loc := some "a.ts" })]
      edges := [{ source := "event:x", target := "event:x", rel := " listens " },
        { source := "event:x", target := "event:x", rel := "emits" }] }
  root := ⟨""⟩

/-- Without evidence to listen warns and to emit fails. -/
theorem silent_event_edges : ∃ listens emits,
    silentEvent.report.phaseRecords .edges = [listens, emits] ∧
      listens.status = .warn ∧ emits.status = .fail := by
  have hnot : ¬ (EdgeFamily.literal (NodeId.ofString "event:x").name).FoundIn
      (Text.withUniformLineEnds "on(y)\r\n") := by
    rw [EdgeFamily.foundIn_iff]
    decide
  have hends : silentEvent.HasEnds { source := "event:x", target := "event:x", rel := "emits" }
      { loc := some "a.ts" } { loc := some "a.ts" } := ⟨rfl, rfl⟩
  have htable := (edge_policy silentEvent).table
  generalize silentEvent.report.phaseRecords .edges = rows at htable ⊢
  cases htable with
  | cons hlistens hrest =>
      cases hrest with
      | cons hemits hnil =>
          cases hnil
          have hwarn := (hlistens.readable _ _ _ _ hends rfl rfl).listens (by decide)
          have hfail := (hemits.readable _ _ _ _ hends rfl rfl).emits rfl
          refine ⟨_, _, rfl, ?_, ?_⟩
          · exact (hwarn.resolve_left fun h => hnot h.1).2
          · exact (hfail.resolve_left fun h => hnot h.1).2

end ContractAudit
