import ContractAudit.Command.Run
import ContractAudit.Proofs.Impact.Conservation
import ContractAudit.Proofs.Impact.ReadingBack

/-!
# Exit codes

Whether there is a map to ask is settled before anything else: one is found, read and decoded
(`Options.Loads`), or the command is refused with one diagnostic. What is asked then settles the exit
code, and how the answer is written has no part in it. The main statement gathers what a caller can
rely on.
-/

namespace ContractAudit

open Json (ofNat)
open Decoding.FromJson (canonicalEntries)

/-! ## The code that is shown -/

/-- The object shows this exit code, once. -/
def Json.ShowsCode (code : Nat) (fields : List (String × Json)) : Prop :=
  fields.filter (·.1 == "exit_code") = [("exit_code", ofNat code)]

theorem Report.showsCode (r : Report) :
    ∃ fields, r.jsonText = (Json.object fields).pretty ∧ Json.ShowsCode r.exitCode fields := by
  refine ⟨_, congrArg Json.pretty r.canonical_rendered, ?_⟩
  simp [Json.ShowsCode, canonicalEntries, Report.sortedFields, Json.required, Json.canonicalFields,
    Json.canonical, ofNat]

theorem ImpactOutcome.showsCode (o : ImpactOutcome) :
    ∃ fields, o.jsonText = (Json.object fields).pretty ∧ Json.ShowsCode o.exitCode fields := by
  refine ⟨_, congrArg Json.pretty o.canonical_rendered, ?_⟩
  cases o with
  | found r =>
      cases hloc : r.loc <;>
        simp [Json.ShowsCode, canonicalEntries, ImpactOutcome.sortedFields, hloc, Json.required,
          Json.optional, Json.canonicalFields, Json.canonical, ofNat]
  | notFound =>
      simp [Json.ShowsCode, canonicalEntries, ImpactOutcome.sortedFields, Json.required,
        Json.canonicalFields, Json.canonical, ofNat]

namespace Command

/-! ## Diagnostics -/

/-- A line that says why there is no result. -/
def IsDiagnostic (line : String) : Prop := "contractmap verify failed:".toList <+: line.toList

theorem isDiagnostic_failureLine (e : LoadError) : IsDiagnostic (failureLine e) := by
  unfold IsDiagnostic failureLine
  rw [String.toList_append]
  exact (by decide : "contractmap verify failed:".toList <+: "contractmap verify failed: ".toList).trans
    (List.prefix_append _ _)

theorem not_isDiagnostic_of_head {c : Char} {line : String} (h : line.toList.head? = some c)
    (hc : c ≠ 'c') : ¬ IsDiagnostic line := by
  rintro ⟨rest, hrest⟩
  rw [← hrest] at h
  cases h
  exact hc rfl

theorem not_isDiagnostic_jsonLine (e : Log.Event) : ¬ IsDiagnostic (jsonLine e) := by
  refine not_isDiagnostic_of_head (c := '\x7b') ?_ (by decide)
  unfold jsonLine Log.Event.toJson
  dsimp only
  rw [Json.compact, String.toList_ofList]
  rfl

theorem not_isDiagnostic_textLine (e : Log.Event) : ¬ IsDiagnostic (textLine e) := by
  have hhead : ∃ c, e.level.text.toList.head? = some c ∧ c ≠ 'c' := by
    cases e.level with
    | error => exact ⟨'E', rfl, by decide⟩
    | warn => exact ⟨'W', rfl, by decide⟩
    | info => exact ⟨'I', rfl, by decide⟩
    | debug => exact ⟨'D', rfl, by decide⟩
    | trace => exact ⟨'T', rfl, by decide⟩
  obtain ⟨c, hlevel, hc⟩ := hhead
  refine not_isDiagnostic_of_head (c := c) ?_ hc
  unfold textLine
  simp only [String.toList_append, List.append_assoc]
  rw [List.head?_append, hlevel]
  rfl

/-- The log alone is told by lines that are no diagnostics. -/
theorem not_isDiagnostic_logged (env : Environment) (o : Options) (events : List Log.Event) :
    ∀ line ∈ (env.logged events).map (if env.logsJson o then jsonLine else textLine),
      ¬ IsDiagnostic line := by
  intro line hline
  obtain ⟨e, -, rfl⟩ := List.mem_map.mp hline
  split
  · exact not_isDiagnostic_jsonLine e
  · exact not_isDiagnostic_textLine e

namespace Options

variable {o : Options} {fs : FileSystem} {path : FilePath} {d : Document}

/-! ## Finding and loading -/

/-- The directory in which the map is looked for, unless a file is given. -/
def searched? (o : Options) (fs : FileSystem) : Option FilePath :=
  match o.file with
  | some path => if fs.isDirectory path then some path else none
  | none => some fs.workingDirectory

/-- The map at the path is the one that is asked for, and it can be read and decoded. -/
structure Loads (o : Options) (fs : FileSystem) (path : FilePath) (d : Document) : Prop where
  located : o.locate fs = .ok path
  decoded : ∃ text, fs.readText path = .ok text ∧ Document.parse text = .ok d

theorem discover_eq_ok {dir : FilePath} :
    fs.discover dir = .ok path ↔ fs.documentsIn dir = .ok [path] := by
  unfold FileSystem.discover
  split
  · rename_i fault hdocuments
    simp [hdocuments]
  · rename_i candidates hdocuments
    rw [hdocuments, chooseDocument_eq_ok_iff, Except.ok.injEq]

/-- A map is found unless it is looked for in a directory that does not hold exactly one. -/
theorem locate_isOk_iff : (∃ path, o.locate fs = .ok path) ↔
    ∀ dir ∈ o.searched? fs, ∃ path, fs.documentsIn dir = .ok [path] := by
  unfold locate searched?
  cases o.file with
  | none => simp [discover_eq_ok]
  | some path =>
      dsimp only
      split
      · simp [discover_eq_ok]
      · simp

theorem load_eq_ok : fs.load path = .ok d ↔
    ∃ text, fs.readText path = .ok text ∧ Document.parse text = .ok d := by
  unfold FileSystem.load
  cases fs.readText path with
  | error fault => simp
  | ok text => cases hparse : Document.parse text <;> simp [Except.mapError, hparse]

theorem Loads.run (h : o.Loads fs path d) (style : Style) :
    o.run style fs = o.runOn style fs path d (o.locateEvents fs ++ [d.loadEvent path]) := by
  unfold Options.run
  simp only [h.located, load_eq_ok.mpr h.decoded]

theorem run_of_not_loads (h : ∀ path d, ¬ o.Loads fs path d) :
    ∃ e, ∀ style, o.run style fs = { failure := some e, exitCode := 1, events := o.locateEvents fs } := by
  unfold Options.run
  cases hlocate : o.locate fs with
  | error e => exact ⟨e, fun _ => rfl⟩
  | ok path =>
      cases hload : fs.load path with
      | error e => exact ⟨e, fun _ => by simp only [hload]⟩
      | ok d => exact absurd ⟨hlocate, load_eq_ok.mp hload⟩ (h path d)

/-! ## Answers -/

theorem printed_pretty_object (fields : List (String × Json)) :
    printed (Json.object fields).pretty = (Json.object fields).pretty ++ "\n" := by
  have hne : (Json.object fields).pretty ≠ "" := by
    intro h
    have hnil := congrArg String.toList h
    rw [Json.pretty, String.toList_ofList] at hnil
    cases fields <;> cases hnil
  unfold printed
  rw [if_neg (by simpa using hne)]

theorem impact_exitCode_eq_zero_iff (d : Document) (id : String) :
    (d.impact id).exitCode = 0 ↔ d.declares id = true := by
  unfold Document.declares
  rw [Registry.contains_iff, ← Document.nodeIds, ← Document.found_iff]
  cases d.impact id <;> simp [ImpactOutcome.exitCode]

theorem report_exitCode_eq_zero_iff (a : Audit) :
    a.report.exitCode = 0 ↔ ∀ r ∈ a.report.records, r.status ≠ .fail := exitCode_eq_zero_iff _ _ _

theorem exitCode_runOn (o : Options) (style : Style) (fs : FileSystem) (path : FilePath) (d : Document)
    (events : List Log.Event) :
    (o.runOn style fs path d events).exitCode =
      match o.impact with
      | some id => (d.impact id).exitCode
      | none => (o.audit fs path d).report.exitCode := by
  unfold runOn
  cases o.impact <;> rfl

theorem exitCode_runOn_le_one (o : Options) (style : Style) (fs : FileSystem) (path : FilePath)
    (d : Document) (events : List Log.Event) : (o.runOn style fs path d events).exitCode ≤ 1 := by
  rw [exitCode_runOn]
  split
  · rename_i id _
    cases d.impact id <;> simp [ImpactOutcome.exitCode]
  · unfold Report.exitCode
    split <;> omega

theorem failure_runOn (o : Options) (style : Style) (fs : FileSystem) (path : FilePath) (d : Document)
    (events : List Log.Event) : (o.runOn style fs path d events).failure = none := by
  unfold runOn
  cases o.impact <;> rfl

/-- In JSON an object is printed that shows the exit code. -/
theorem output_runOn (hformat : o.outputFormat = .json) (style : Style) (events : List Log.Event) :
    ∃ fields, (o.runOn style fs path d events).output = (Json.object fields).pretty ++ "\n" ∧
      Json.ShowsCode (o.runOn style fs path d events).exitCode fields := by
  unfold runOn
  cases o.impact with
  | some id =>
      obtain ⟨fields, htext, hcode⟩ := (d.impact id).showsCode
      refine ⟨fields, ?_, hcode⟩
      simp only [renderImpact, hformat, htext]
      exact printed_pretty_object fields
  | none =>
      obtain ⟨fields, htext, hcode⟩ := (o.audit fs path d).report.showsCode
      refine ⟨fields, ?_, hcode⟩
      simp only [renderReport, hformat, htext]
      exact printed_pretty_object fields

/-! ## What does not matter -/

theorem locate_congr {o o' : Options} (hfile : o'.file = o.file) : o'.locate fs = o.locate fs := by
  unfold locate
  rw [hfile]

/-- How an answer is written is of no matter to the exit code. -/
theorem exitCode_congr {o o' : Options} (hfile : o'.file = o.file) (himpact : o'.impact = o.impact)
    (hroot : o'.root = o.root) (style style' : Style) (fs : FileSystem) :
    (o'.run style' fs).exitCode = (o.run style fs).exitCode := by
  unfold Options.run
  rw [locate_congr hfile]
  dsimp only
  cases o.locate fs with
  | error e => rfl
  | ok path =>
      dsimp only
      cases fs.load path with
      | error e => rfl
      | ok d =>
          dsimp only
          rw [exitCode_runOn, exitCode_runOn, himpact]
          unfold audit projectRoot
          rw [hroot]

/-- The root is of no matter to a query, nor to what is looked at for it. -/
theorem query_ignores_root {id : String} (himpact : o.impact = some id) (root : Option FilePath)
    (style : Style) (fs : FileSystem) :
    { o with root }.run style fs = o.run style fs ∧ { o with root }.paths fs = o.paths fs := by
  constructor
  · unfold Options.run runOn
    simp only [himpact]
    rfl
  · unfold paths
    simp only [himpact]
    rfl

end Options

/-! ## The main statement -/

/-- Nothing is written but one diagnostic, behind the log. -/
structure Refused (env : Environment) (o : Options) (outcome : Outcome) : Prop where
  output : outcome.output = ""
  exitCode : outcome.exitCode = 1
  diagnostic : ∃ log line, env.errorLines o outcome = log ++ [line] ∧ IsDiagnostic line ∧
    ∀ line ∈ log, ¬ IsDiagnostic line

/-- The exit code tells what was asked of the map, and JSON shows it. -/
structure Answered (env : Environment) (o : Options) (fs : FileSystem) (path : FilePath) (d : Document)
    (outcome : Outcome) : Prop where
  query : ∀ id, o.impact = some id → (outcome.exitCode = 0 ↔ d.declares id = true)
  audit : o.impact = none →
    (outcome.exitCode = 0 ↔ ∀ r ∈ (o.audit fs path d).report.records, r.status ≠ .fail)
  exitCode : outcome.exitCode ≤ 1
  diagnostic : ∀ line ∈ env.errorLines o outcome, ¬ IsDiagnostic line
  shown : o.outputFormat = .json → ∃ fields, outcome.output = (Json.object fields).pretty ++ "\n" ∧
    Json.ShowsCode outcome.exitCode fields ∧
    ((Json.object fields).isExact = true → Json.ofText? outcome.output = some (.object fields))

theorem refused_of_not_loads {o : Options} {fs : FileSystem} (h : ∀ path d, ¬ o.Loads fs path d)
    (style : Style) (env : Environment) : Refused env o (o.run style fs) := by
  obtain ⟨e, hrun⟩ := Options.run_of_not_loads h
  rw [hrun]
  refine ⟨rfl, rfl, _, failureLine e, rfl, isDiagnostic_failureLine e, ?_⟩
  exact not_isDiagnostic_logged env o _

theorem answered_of_loads {o : Options} {fs : FileSystem} {path : FilePath} {d : Document}
    (h : o.Loads fs path d) (style : Style) (env : Environment) :
    Answered env o fs path d (o.run style fs) := by
  rw [h.run style]
  constructor
  case query =>
    intro id hid
    rw [Options.exitCode_runOn, hid]
    exact Options.impact_exitCode_eq_zero_iff d id
  case audit =>
    intro hnone
    rw [Options.exitCode_runOn, hnone]
    exact Options.report_exitCode_eq_zero_iff _
  case exitCode => exact Options.exitCode_runOn_le_one ..
  case diagnostic =>
    unfold Environment.errorLines
    rw [Options.failure_runOn, Option.toList_none, List.map_nil, List.append_nil]
    exact not_isDiagnostic_logged env o _
  case shown =>
    intro hformat
    obtain ⟨fields, houtput, hcode⟩ := Options.output_runOn (d := d) hformat style _
    refine ⟨fields, houtput, hcode, fun hexact => ?_⟩
    rw [houtput]
    exact Json.ofText?_pretty_line hexact

/-- **Exit codes.** Without a map the command is refused, and else the exit code answers the question.
A map is found unless a directory does not hold exactly one; how results and the log are written is of
no matter to the code, and the root is of no matter to a query. -/
theorem exit_codes (o : Options) (style : Style) (fs : FileSystem) (env : Environment) :
    ((∃ path, o.locate fs = .ok path) ↔
      ∀ dir ∈ o.searched? fs, ∃ path, fs.documentsIn dir = .ok [path]) ∧
    ((∀ path d, ¬ o.Loads fs path d) → Refused env o (o.run style fs)) ∧
    (∀ path d, o.Loads fs path d → Answered env o fs path d (o.run style fs)) ∧
    (∀ (o' : Options) (style' : Style), o'.file = o.file → o'.impact = o.impact → o'.root = o.root →
      (o'.run style' fs).exitCode = (o.run style fs).exitCode) ∧
    ∀ id, o.impact = some id → ∀ root,
      { o with root }.run style fs = o.run style fs ∧ { o with root }.paths fs = o.paths fs :=
  ⟨Options.locate_isOk_iff, fun h => refused_of_not_loads h style env,
    fun _ _ h => answered_of_loads h style env,
    fun _ style' hfile himpact hroot => Options.exitCode_congr hfile himpact hroot style style' fs,
    fun _ himpact root => Options.query_ignores_root himpact root style fs⟩

/-- A directory with files of these names, each with a map of one node. -/
def directoryOf (names : List String) : FileSystem where
  tree := .directory [("work", .directory
    (names.map fun name => (name, .file "nodes:\n fn:a:\n".toUTF8.toList)))]
  workingDirectory := ⟨"/work"⟩

/-- A map is asked for a node that it declares and for one that it does not, and the second answer
is shown as JSON; without a map nothing is asked. -/
theorem exit_codes_of_queries :
    (Options.run { impact := some "fn:a" } .plain (directoryOf ["contractmap.yaml"])).exitCode = 0 ∧
    (Options.run { impact := some "fn:b", format := some .json } .plain
      (directoryOf ["contractmap.yaml"])).exitCode ≠ 0 ∧
    (∃ fields, (Options.run { impact := some "fn:b", format := some .json } .plain
        (directoryOf ["contractmap.yaml"])).output = (Json.object fields).pretty ++ "\n" ∧
      Json.ShowsCode 1 fields) ∧
    Refused {} { impact := some "fn:a" }
      (Options.run { impact := some "fn:a" } .plain (directoryOf [])) := by
  have hdecoded : ∃ text,
      (directoryOf ["contractmap.yaml"]).readText ⟨"/work/contractmap.yaml"⟩ = .ok text ∧
        Document.parse text = .ok { nodes := .ofList [("fn:a", {})] } :=
    ⟨"nodes:\n fn:a:\n", by decide +kernel, by decide +kernel⟩
  have hdeclared : Options.Loads { impact := some "fn:a" } (directoryOf ["contractmap.yaml"])
      ⟨"/work/contractmap.yaml"⟩ { nodes := .ofList [("fn:a", {})] } := ⟨by decide +kernel, hdecoded⟩
  have hunknown : Options.Loads { impact := some "fn:b", format := some .json }
      (directoryOf ["contractmap.yaml"]) ⟨"/work/contractmap.yaml"⟩ { nodes := .ofList [("fn:a", {})] } :=
    ⟨by decide +kernel, hdecoded⟩
  have hnone : ∀ path d, ¬ Options.Loads { impact := some "fn:a" } (directoryOf []) path d := by
    intro path d h
    have hlocated : (Options.locate { impact := some "fn:a" } (directoryOf [])).toOption = none := by
      decide +kernel
    rw [h.located] at hlocated
    cases hlocated
  have hfound := (exit_codes _ .plain (directoryOf ["contractmap.yaml"]) {}).2.2.1 _ _ hdeclared
  have hmissed := (exit_codes _ .plain (directoryOf ["contractmap.yaml"]) {}).2.2.1 _ _ hunknown
  have hne : (Options.run { impact := some "fn:b", format := some .json } .plain
      (directoryOf ["contractmap.yaml"])).exitCode ≠ 0 := by
    rw [ne_eq, hmissed.query "fn:b" rfl]
    decide
  obtain ⟨fields, houtput, hcode, -⟩ := hmissed.shown rfl
  refine ⟨(hfound.query "fn:a" rfl).mpr (by decide), hne, ⟨fields, houtput, ?_⟩,
    (exit_codes _ .plain (directoryOf []) {}).2.1 hnone⟩
  rwa [Nat.le_antisymm hmissed.exitCode (Nat.pos_of_ne_zero hne)] at hcode

end Command

end ContractAudit
