import ContractAudit.Proofs.Audit.EdgePolicy
import ContractAudit.Proofs.Evidence.TokenSearch

/-!
# Evidence of events

An edge that emits or listens to an event asks for its name in quotes, the event itself for its name
in quotes or as a token. What is quoted is a token, so the event asks for a token and nothing else
(`PatternNotation.foundIn_event_iff`), and never for more than the edge. An edge that passes is thus
evidence for its event wherever both look into the same file (`quoted_events_exist`). The edge looks
through the whole file and the event perhaps through a window, which is why the event may still warn.
-/

namespace ContractAudit

open Text Pattern

/-! ## The families of an event -/

namespace PatternNotation

/-- The notations compile, and one of the patterns occurs in the text. -/
def FoundIn (notations : List PatternNotation) (text : String) : Prop :=
  ∃ ps, compile notations = some ps ∧ ∃ p ∈ ps, p.OccursIn text.toList

theorem foundIn_token_iff {name text : String} :
    FoundIn [.token name] text ↔ HasToken name.toList text.toList := by
  unfold FoundIn
  rw [compile_token]
  simp only [Option.some.injEq, exists_eq_left', List.mem_singleton, exists_eq_left,
    occursIn_laidOut, token_occursIn_iff]

theorem compile_event (name : String) :
    compile (event name) = some ((Evidence.eventPatterns name).map laidOut) := by
  have hquoted := (EdgeFamily.literal name).compile_notations
  have htoken := compile_token name
  unfold compile at hquoted htoken ⊢
  unfold event
  rw [List.mapM_append, hquoted, htoken]
  rfl

end PatternNotation

theorem EdgeFamily.foundIn_literal_iff {name text : String} :
    (EdgeFamily.literal name).FoundIn text ↔ HasQuoted name.toList text.toList := by
  rw [EdgeFamily.foundIn_iff_occursIn, ← quoted_occursIn_iff]
  simp [EdgeFamily.patterns, Evidence.quotedLiteralPatterns]

/-- **What is looked for is a token**: whatever is quoted is one. -/
theorem Evidence.anyFound_eventPatterns_iff {name text : String} :
    Evidence.anyFound (Evidence.eventPatterns name) text = true ↔
      HasToken name.toList text.toList := by
  rw [Evidence.anyFound_iff]
  simp only [Evidence.eventPatterns, List.mem_cons, List.not_mem_nil, or_false,
    exists_eq_or_imp, exists_eq_left, quoted_occursIn_iff, token_occursIn_iff]
  exact or_iff_right_of_imp HasQuoted.hasToken

theorem PatternNotation.foundIn_event_iff {name text : String} :
    FoundIn (event name) text ↔ HasToken name.toList text.toList := by
  unfold FoundIn
  rw [compile_event, ← Evidence.anyFound_eventPatterns_iff, ← Evidence.anyFound_map_laidOut,
    Evidence.anyFound_iff]
  simp only [Option.some.injEq, exists_eq_left']

/-! ## Nodes with the same file -/

namespace Audit

variable {a : Audit} {n n' : NodeRecord} {f : SourceFile}

/-- The locations of the nodes lead to the same file: what is read at one is read at the other. -/
def ReadsSameFile (a : Audit) (n n' : NodeRecord) : Prop :=
  ∃ loc loc', n.loc = some loc ∧ n'.loc = some loc' ∧
    a.sources.read (a.resolve loc').path = a.sources.read (a.resolve loc).path

theorem ReadsSameFile.source (h : a.ReadsSameFile n n') (hf : a.source n = .ok f) :
    ∃ f', a.source n' = .ok f' ∧ f'.text = f.text := by
  obtain ⟨loc, loc', hloc, hloc', hsame⟩ := h
  obtain ⟨_, text, hloc'', hread, rfl⟩ := source_eq_ok_iff.mp hf
  obtain rfl := Option.some.inj (hloc.symm.trans hloc'')
  exact ⟨_, source_eq_ok_iff.mpr ⟨loc', text, hloc', hsame.trans hread, rfl⟩, rfl⟩

variable {id : String}

/-- A node whose file has evidence of it exists, and without a declared line it passes. -/
theorem existsWith_of_hasEvidence (hn : a.document.node? id = some n)
    (hk : (Document.kindOf id (some n)).isCustom = false) (hf : a.source n = .ok f)
    (h : SourceFile.hasEvidence f.text id (Document.kindOf id (some n))) :
    (a.report.ExistsWith id .pass ∨ a.report.ExistsWith id .warn) ∧
      (n.declaredLine = none → a.report.ExistsWith id .pass) := by
  have hfail : ¬ a.report.ExistsWith id .fail := by
    rw [existsWith_iff hn hk hf, SourceFile.existsRecord_fail_iff (returnFree_source hf), not_not]
    exact h
  refine ⟨?_, fun hline => (existsWith_pass_iff hn hk hline hf).mpr hfail⟩
  rw [existsWith_iff hn hk hf] at hfail
  rw [existsWith_iff hn hk hf, existsWith_iff hn hk hf]
  cases hs : (f.existsRecord id (Document.kindOf id (some n))).status with
  | pass => exact Or.inl rfl
  | warn => exact Or.inr rfl
  | fail => exact absurd hs hfail

/-! ## Edges to events -/

/-- The edge says of its source that it emits or listens to its target, which is an event with a
name. -/
structure SaysEvent (a : Audit) (e : EdgeRecord) (source event : NodeRecord) : Prop where
  ends : a.HasEnds e source event
  relation : e.relation = .emits ∨ e.relation = .listens
  kind : Document.kindOf e.target (some event) = .event
  name_ne : (NodeId.ofString e.target).name ≠ ""

variable {e : EdgeRecord} {row : CheckRecord} {source event : NodeRecord}

/-- Such an edge passes only if the name of the event is quoted in the file of its source. -/
theorem SaysEvent.hasQuoted (h : a.SaysEvent e source event) (hrow : FollowsPolicy a e row)
    (hpass : row.status = .pass) : ∃ f, a.source source = .ok f ∧
      HasQuoted (NodeId.ofString e.target).name.toList f.text.toList := by
  obtain ⟨f, hf⟩ := hrow.exists_source h.ends (by rw [hpass]; decide)
  have hrelation := hrow.relation_of_source h.ends hf
  refine ⟨f, hf, EdgeFamily.foundIn_literal_iff.mp ?_⟩
  rcases h.relation with hemits | hlistens
  · have hdecided := hrelation.emits (EdgeRecord.trim_rel hemits)
    exact (hdecided.pass_iff (by decide)).mp hpass
  · have hdecided := hrelation.listens (EdgeRecord.trim_rel hlistens)
    exact (hdecided.pass_iff (by decide)).mp hpass

theorem SaysEvent.existsWith (h : a.SaysEvent e source event) (hrow : FollowsPolicy a e row)
    (hpass : row.status = .pass) (hsame : a.ReadsSameFile source event) :
    (a.report.ExistsWith e.target .pass ∨ a.report.ExistsWith e.target .warn) ∧
      (event.declaredLine = none → a.report.ExistsWith e.target .pass) := by
  obtain ⟨f, hf, hquoted⟩ := h.hasQuoted hrow hpass
  obtain ⟨f', hf', htext⟩ := hsame.source hf
  refine existsWith_of_hasEvidence h.ends.2 (by rw [h.kind]; rfl) hf' ?_
  rw [h.kind]
  refine ⟨h.name_ne, ?_⟩
  dsimp only
  rw [Evidence.anyFound_eventPatterns_iff, htext]
  exact hquoted.hasToken

end Audit

/-- **Quoted events exist.** The pattern for a quoted name is found in a text exactly if the name
stands there between two quotes. The pattern for the token is then found too, so the family of an
event, written down or as it is searched for, is found exactly if the token is. Where an edge emits
or listens to an event, passes, and reads the same file as the event, the event exists: it passes or
warns, and without a declared line it passes. -/
theorem quoted_events_exist (a : Audit) :
    (∀ name text : String,
      ((EdgeFamily.literal name).FoundIn text ↔ HasQuoted name.toList text.toList) ∧
      ((EdgeFamily.literal name).FoundIn text → PatternNotation.FoundIn [.token name] text) ∧
      (PatternNotation.FoundIn (PatternNotation.event name) text ↔
        PatternNotation.FoundIn [.token name] text) ∧
      (Evidence.anyFound (Evidence.eventPatterns name) text = true ↔
        PatternNotation.FoundIn [.token name] text)) ∧
    (∀ (i : Nat) (e : EdgeRecord) (row : CheckRecord) (source event : NodeRecord),
      a.document.edges[i]? = some e → (a.report.phaseRecords .edges)[i]? = some row →
      a.SaysEvent e source event → row.status = .pass → a.ReadsSameFile source event →
      (a.report.ExistsWith e.target .pass ∨ a.report.ExistsWith e.target .warn) ∧
        (event.declaredLine = none → a.report.ExistsWith e.target .pass)) := by
  constructor
  · intro name text
    rw [PatternNotation.foundIn_token_iff]
    refine ⟨EdgeFamily.foundIn_literal_iff, ?_, PatternNotation.foundIn_event_iff,
      Evidence.anyFound_eventPatterns_iff⟩
    intro h
    exact (EdgeFamily.foundIn_literal_iff.mp h).hasToken
  · intro i e row source event he hrow hsays hpass hsame
    exact hsays.existsWith (Audit.followsPolicy_of_places he hrow) hpass hsame

/-- A map of a method that emits an event, both in the same file by two spellings of its path. -/
def emittedEvent : Audit where
  sources := .ofList [(⟨"shop/a.ts"⟩, some "bus.emit('task.created', t)\r\n")]
  document :=
    { nodes := .ofList [("method:Repo.create", { loc := some "a.ts:40" }),
        ("event:task.created", { loc := some "./a.ts" })]
      edges := [{ source := "method:Repo.create", target := "event:task.created", rel := "emits" }] }
  root := ⟨"shop"⟩

/-- The edge passes, and so does the event. -/
theorem emitted_event_exists : ∃ e row source event,
    emittedEvent.document.edges[0]? = some e ∧
      (emittedEvent.report.phaseRecords .edges)[0]? = some row ∧
      emittedEvent.SaysEvent e source event ∧ row.status = .pass ∧
      emittedEvent.ReadsSameFile source event ∧ event.declaredLine = none ∧
      emittedEvent.report.ExistsWith e.target .pass := by
  have hsays : emittedEvent.SaysEvent
      { source := "method:Repo.create", target := "event:task.created", rel := "emits" }
      { loc := some "a.ts:40" } { loc := some "./a.ts" } :=
    { ends := ⟨by decide +kernel, by decide +kernel⟩
      relation := Or.inl (by decide)
      kind := by decide
      name_ne := by decide }
  have hsame : emittedEvent.ReadsSameFile { loc := some "a.ts:40" } { loc := some "./a.ts" } :=
    ⟨"a.ts:40", "./a.ts", rfl, rfl, by decide +kernel⟩
  have hstatus : (emittedEvent.report.phaseRecords .edges).map CheckRecord.status = [.pass] := by
    decide +kernel
  obtain ⟨row, hrows, hpass⟩ := List.map_eq_singleton_iff.mp hstatus
  have hrow : (emittedEvent.report.phaseRecords .edges)[0]? = some row := by rw [hrows]; rfl
  have hexists := (quoted_events_exist emittedEvent).2 0 _ row _ _ rfl hrow hsays hpass hsame
  exact ⟨_, row, _, _, rfl, hrow, hsays, hpass, hsame, by decide, hexists.2 (by decide)⟩

end ContractAudit
