import ContractAudit.Audit.Log
import ContractAudit.Proofs.Audit.ReportStructure

/-!
# The log mirrors the report

Each event of an audit tells one thing, in fields of its own: a record of the report
(`TellsRecord`), a phase that is complete (`TellsPhase`), the summary (`TellsSummary`), or a source
that could not be read (`TellsFailedRead`). The events of one phase are those of its blocks, so
leaving out the warnings leaves the records of that phase, in order; and a block with a source that
could not be read holds a single record, which fails. Which sources could not be read is said apart
from the blocks: one question to the sources for each node of the vocabulary and for each edge with
declared ends (`Audit.failedReads`). The main statement puts the phases together
(`log_mirrors_report`).
-/

namespace ContractAudit

open Log (Event)

/-! ## What an event tells -/

/-- The event of a record holds its phase, subject, check and status under these names, and the
message of the record is that of the event. -/
structure TellsRecord (e : Event) (r : CheckRecord) : Prop where
  level : e.level = .debug
  origin : e.origin = .audit
  message : e.message = r.message
  fields : e.fields = [("phase", .text r.phase.text), ("subject", .text r.subject),
    ("check", .text r.check), ("status", .text r.status.text)]

/-- A phase is complete, with so many records. -/
structure TellsPhase (e : Event) (phase : Phase) (records : Nat) : Prop where
  level : e.level = .info
  origin : e.origin = .audit
  message : e.message = "phase complete"
  fields : e.fields = [("phase", .text phase.text), ("records", .count records)]

/-- The verification is complete, with so many records of each status. -/
structure TellsSummary (e : Event) (s : Summary) : Prop where
  level : e.level = .info
  origin : e.origin = .audit
  message : e.message = "verification complete"
  fields : e.fields = [("pass", .count s.pass), ("fail", .count s.fail), ("warn", .count s.warn)]

/-- A source could not be read: its path as it is shown, and what went wrong. -/
structure TellsFailedRead (e : Event) (u : Unreadable) : Prop where
  level : e.level = .warn
  origin : e.origin = .audit
  message : e.message = "source file unreadable"
  fields : e.fields = [("path", .text u.shown), ("error", .text u.fault)]

theorem CheckRecord.tellsRecord_event (r : CheckRecord) : TellsRecord r.event r :=
  ⟨rfl, rfl, rfl, rfl⟩

theorem Phase.tellsPhase_event (phase : Phase) (n : Nat) : TellsPhase (phase.event n) phase n :=
  ⟨rfl, rfl, rfl, rfl⟩

theorem Summary.tellsSummary_event (s : Summary) : TellsSummary s.event s := ⟨rfl, rfl, rfl, rfl⟩

theorem Unreadable.tellsFailedRead_event (u : Unreadable) : TellsFailedRead u.event u :=
  ⟨rfl, rfl, rfl, rfl⟩

theorem forall₂_tellsRecord (rs : List CheckRecord) :
    List.Forall₂ TellsRecord (rs.map CheckRecord.event) rs :=
  List.forall₂_map_left_iff.mpr (List.forall₂_same.mpr fun r _ => r.tellsRecord_event)

theorem forall₂_tellsFailedRead (us : List Unreadable) :
    List.Forall₂ TellsFailedRead (us.map Unreadable.event) us :=
  List.forall₂_map_left_iff.mpr (List.forall₂_same.mpr fun u _ => u.tellsFailedRead_event)

/-! ## Blocks -/

/-- A source that could not be read leaves a single record, which fails. -/
def Block.FailsIfUnreadable (b : Block) : Prop :=
  ∀ u, b.unreadable = some u → ∃ r, b.records = [r] ∧ r.status = .fail

namespace Block

variable {b : Block}

theorem failsIfUnreadable_of_none (h : b.unreadable = none) : b.FailsIfUnreadable := by
  intro u hu
  rw [h] at hu
  cases hu

theorem level_of_mem_events {e : Event} (h : e ∈ b.events) : e.level = .warn ∨ e.level = .debug := by
  rcases List.mem_append.mp h with h | h
  · obtain ⟨u, -, rfl⟩ := List.mem_map.mp h
    exact Or.inl rfl
  · obtain ⟨r, -, rfl⟩ := List.mem_map.mp h
    exact Or.inr rfl

theorem filter_debug_events (b : Block) :
    b.events.filter (·.level = .debug) = b.records.map CheckRecord.event := by
  have hwarn : (b.unreadable.toList.map Unreadable.event).filter (·.level = .debug) = [] :=
    List.filter_eq_nil_iff.mpr fun e he => by
      obtain ⟨u, -, rfl⟩ := List.mem_map.mp he
      simp [Unreadable.event]
  have hrecords : (b.records.map CheckRecord.event).filter (·.level = .debug) =
      b.records.map CheckRecord.event :=
    List.filter_eq_self.mpr fun e he => by
      obtain ⟨r, -, rfl⟩ := List.mem_map.mp he
      simp [CheckRecord.event]
  rw [events, List.filter_append, hwarn, hrecords, List.nil_append]

theorem filter_warn_events (b : Block) :
    b.events.filter (·.level = .warn) = b.unreadable.toList.map Unreadable.event := by
  have hwarn : (b.unreadable.toList.map Unreadable.event).filter (·.level = .warn) =
      b.unreadable.toList.map Unreadable.event :=
    List.filter_eq_self.mpr fun e he => by
      obtain ⟨u, -, rfl⟩ := List.mem_map.mp he
      simp [Unreadable.event]
  have hrecords : (b.records.map CheckRecord.event).filter (·.level = .warn) = [] :=
    List.filter_eq_nil_iff.mpr fun e he => by
      obtain ⟨r, -, rfl⟩ := List.mem_map.mp he
      simp [CheckRecord.event]
  rw [events, List.filter_append, hwarn, hrecords, List.append_nil]

end Block

/-! ## Warnings -/

/-- Straight behind every warning stands an event that tells one of the records, which fails. -/
def WarningsFail (rs : List CheckRecord) (events : List Event) : Prop :=
  ∀ before w behind, events = before ++ w :: behind → w.level = .warn →
    ∃ r ∈ rs, ∃ e rest, behind = e :: rest ∧ TellsRecord e r ∧ r.status = .fail

namespace WarningsFail

variable {rs : List CheckRecord} {events events' : List Event}

theorem of_no_warning (h : ∀ e ∈ events, e.level ≠ .warn) : WarningsFail rs events := by
  rintro before w behind rfl hw
  exact absurd hw (h w (by simp))

/-- Nothing can come between a warning and its record when logs are put together. -/
theorem append (h : WarningsFail rs events) (h' : WarningsFail rs events') :
    WarningsFail rs (events ++ events') := by
  intro before w behind hsplit hw
  rcases List.append_eq_append_iff.mp hsplit with ⟨more, rfl, hmore⟩ | ⟨more, hevents, hmore⟩
  · exact h' more w behind hmore hw
  · cases more with
    | nil => exact h' [] w behind hmore.symm hw
    | cons e more =>
        obtain ⟨rfl, rfl⟩ : w = e ∧ behind = more ++ events' := by simpa using hmore
        obtain ⟨r, hr, e, rest, rfl, htells⟩ := h before w more hevents hw
        exact ⟨r, hr, e, rest ++ events', rfl, htells⟩

theorem flatMap {α : Type} {f : α → List Event} :
    ∀ {l : List α}, (∀ x ∈ l, WarningsFail rs (f x)) → WarningsFail rs (l.flatMap f)
  | [], _ => of_no_warning nofun
  | x :: l, h => by
      rw [List.flatMap_cons]
      exact (h x List.mem_cons_self).append (flatMap fun y hy => h y (List.mem_cons_of_mem _ hy))

end WarningsFail

theorem Block.FailsIfUnreadable.warningsFail {b : Block} {rs : List CheckRecord}
    (h : b.FailsIfUnreadable) (hrs : ∀ r ∈ b.records, r ∈ rs) : WarningsFail rs b.events := by
  unfold Block.events
  cases hu : b.unreadable with
  | none =>
      refine WarningsFail.of_no_warning fun e he => ?_
      obtain ⟨r, -, rfl⟩ := List.mem_map.mp he
      nofun
  | some u =>
      obtain ⟨r, hr, hfail⟩ := h u hu
      intro before w behind hsplit hw
      rw [hr] at hsplit
      -- of the two events only the first is a warning
      rcases before with - | ⟨e, - | ⟨e', before⟩⟩
      · obtain ⟨-, rfl⟩ : u.event = w ∧ [r.event] = behind := by simpa using hsplit
        exact ⟨r, hrs r (by simp [hr]), _, [], rfl, r.tellsRecord_event, hfail⟩
      · obtain ⟨-, rfl, -⟩ : u.event = e ∧ r.event = w ∧ behind = [] := by simpa using hsplit
        cases hw
      · simp at hsplit

namespace Audit

/-! ## Sources that cannot be read -/

/-- What there is to report if the source of a node has a location and cannot be read. -/
def failedRead? (a : Audit) (node : NodeRecord) : Option Unreadable :=
  node.loc.bind fun loc =>
    match a.sources.read (a.resolve loc).path with
    | .ok _ => none
    | .error detail =>
      some ⟨a.shown (a.resolve loc).path, readFault (a.resolve loc).path detail⟩

/-- The source of a node of the vocabulary, if it cannot be read. -/
def nodeFailedRead? (a : Audit) (e : String × NodeRecord) : Option Unreadable :=
  if (Document.kindOf e.1 (some e.2)).isCustom then none else a.failedRead? e.2

/-- The source of an edge with declared ends, if it cannot be read. -/
def edgeFailedRead? (a : Audit) (e : EdgeRecord) : Option Unreadable :=
  if a.document.declares e.target then (a.document.node? e.source).bind a.failedRead? else none

/-- The sources that a phase asks for and that cannot be read, in order. Flows ask for none, and
invariants only ask whether files are there. -/
def failedReads (a : Audit) : Phase → List Unreadable
  | .nodes => a.document.nodes.entries.filterMap a.nodeFailedRead?
  | .edges => a.document.edges.filterMap a.edgeFailedRead?
  | .flows | .invariants => []

theorem failedRead?_eq (a : Audit) (node : NodeRecord) :
    a.failedRead? node =
      match a.source node with
      | .error (.unreadable u) => some u
      | _ => none := by
  unfold failedRead? source
  cases node.loc with
  | none => rfl
  | some loc =>
      unfold sourceAt
      dsimp only [Option.bind_some]
      cases a.sources.read (a.resolve loc).path <;> rfl

/-! ## The blocks of an audit -/

theorem nodeBlock_unreadable (a : Audit) (id : String) (node : NodeRecord) :
    (a.nodeBlock id node).unreadable = a.nodeFailedRead? (id, node) := by
  unfold nodeBlock nodeFailedRead?
  cases hk : Document.kindOf id (some node) with
  | custom kind => rfl
  | type | method | table | endpoint | event =>
      rw [failedRead?_eq]
      rcases a.source node with (- | u) | f <;> rfl

theorem edgeBlock_unreadable (a : Audit) (e : EdgeRecord) :
    (a.edgeBlock e).unreadable = a.edgeFailedRead? e := by
  unfold edgeBlock edgeFailedRead?
  have hdeclares : a.document.declares e.target = (a.document.node? e.target).isSome :=
    a.document.nodes.contains_eq_isSome e.target
  rw [hdeclares]
  cases a.document.node? e.source with
  | none => simp
  | some source =>
      cases a.document.node? e.target with
      | none => simp
      | some target =>
          dsimp only [Option.isSome, Option.bind_some]
          unfold declaredEdgeBlock
          rw [if_pos rfl, failedRead?_eq]
          rcases a.source source with (- | u) | f <;> rfl

theorem nodeBlock_failsIfUnreadable (a : Audit) (id : String) (node : NodeRecord) :
    (a.nodeBlock id node).FailsIfUnreadable := by
  unfold nodeBlock
  split
  · exact Block.failsIfUnreadable_of_none rfl
  · split
    · exact Block.failsIfUnreadable_of_none rfl
    · exact fun _ _ => ⟨_, rfl, rfl⟩
    · exact Block.failsIfUnreadable_of_none rfl

theorem edgeBlock_failsIfUnreadable (a : Audit) (e : EdgeRecord) :
    (a.edgeBlock e).FailsIfUnreadable := by
  unfold edgeBlock
  split
  · unfold declaredEdgeBlock
    split
    · exact Block.failsIfUnreadable_of_none rfl
    · exact fun _ _ => ⟨_, rfl, rfl⟩
    · exact Block.failsIfUnreadable_of_none rfl
  · exact Block.failsIfUnreadable_of_none rfl

theorem blocks_failIfUnreadable (a : Audit) (phase : Phase) :
    ∀ b ∈ a.blocks phase, b.FailsIfUnreadable := by
  intro b hb
  cases phase with
  | nodes =>
      obtain ⟨⟨id, node⟩, -, rfl⟩ := List.mem_map.mp hb
      exact a.nodeBlock_failsIfUnreadable id node
  | edges =>
      obtain ⟨e, -, rfl⟩ := List.mem_map.mp hb
      exact a.edgeBlock_failsIfUnreadable e
  | flows =>
      obtain ⟨e, -, rfl⟩ := List.mem_map.mp hb
      exact Block.failsIfUnreadable_of_none rfl
  | invariants =>
      obtain ⟨i, -, rfl⟩ := List.mem_map.mp hb
      exact Block.failsIfUnreadable_of_none rfl

/-- The blocks of a phase name the sources that it could not read. -/
theorem filterMap_unreadable_blocks (a : Audit) (phase : Phase) :
    (a.blocks phase).filterMap Block.unreadable = a.failedReads phase := by
  cases phase with
  | nodes =>
      unfold blocks nodeBlocks failedReads
      rw [List.filterMap_map]
      exact congrArg (List.filterMap · _) (funext fun e => a.nodeBlock_unreadable e.1 e.2)
  | edges =>
      unfold blocks edgeBlocks failedReads
      rw [List.filterMap_map]
      exact congrArg (List.filterMap · _) (funext a.edgeBlock_unreadable)
  | flows =>
      unfold blocks flowBlocks failedReads
      rw [List.filterMap_map, List.filterMap_eq_nil_iff]
      exact fun _ _ => rfl
  | invariants =>
      unfold blocks invariantBlocks failedReads
      rw [List.filterMap_map, List.filterMap_eq_nil_iff]
      exact fun _ _ => rfl

/-! ## The events of a phase -/

theorem level_of_mem_checkEvents {a : Audit} {phase : Phase} {e : Event}
    (h : e ∈ a.checkEvents phase) : e.level = .warn ∨ e.level = .debug := by
  obtain ⟨b, -, hb⟩ := List.mem_flatMap.mp h
  exact b.level_of_mem_events hb

theorem filter_debug_checkEvents (a : Audit) (phase : Phase) :
    (a.checkEvents phase).filter (·.level = .debug) =
      (a.report.phaseRecords phase).map CheckRecord.event := by
  rw [report_phaseRecords]
  unfold checkEvents phaseRecords
  rw [List.filter_flatMap, List.map_flatMap]
  exact congrArg (List.flatMap · _) (funext Block.filter_debug_events)

theorem filter_warn_checkEvents (a : Audit) (phase : Phase) :
    (a.checkEvents phase).filter (·.level = .warn) = (a.failedReads phase).map Unreadable.event := by
  unfold checkEvents
  rw [List.filter_flatMap, ← filterMap_unreadable_blocks, List.filterMap_eq_flatMap_toList,
    List.map_flatMap]
  exact congrArg (List.flatMap · _) (funext Block.filter_warn_events)

theorem checkEvents_warningsFail (a : Audit) (phase : Phase) :
    WarningsFail a.report.records (a.checkEvents phase) := by
  refine WarningsFail.flatMap fun b hb => ?_
  refine (a.blocks_failIfUnreadable phase b hb).warningsFail fun r hr => ?_
  have hphase : r ∈ a.report.phaseRecords phase := by
    rw [report_phaseRecords]
    exact List.mem_flatMap.mpr ⟨b, hb, hr⟩
  exact List.mem_of_mem_filter hphase

/-! ## The whole log -/

theorem events_eq (a : Audit) :
    a.events = Phase.all.flatMap
        (fun phase => a.checkEvents phase ++ [phase.event (a.report.phaseRecords phase).length]) ++
      [a.report.summary.event] := by
  simp only [report_phaseRecords]
  rfl

theorem filter_debug_events (a : Audit) :
    a.events.filter (·.level = .debug) = a.report.records.map CheckRecord.event := by
  rw [a.events_eq, report_records]
  simp [Phase.all, List.filter_append, filter_debug_checkEvents, report_phaseRecords,
    Phase.event, Summary.event]

theorem filter_warn_events (a : Audit) :
    a.events.filter (·.level = .warn) =
      (a.failedReads .nodes ++ a.failedReads .edges).map Unreadable.event := by
  rw [a.events_eq]
  simp [Phase.all, List.filter_append, filter_warn_checkEvents, failedReads,
    Phase.event, Summary.event]

theorem filter_info_events (a : Audit) :
    a.events.filter (·.level = .info) =
      Phase.all.map (fun phase => phase.event (a.report.phaseRecords phase).length) ++
        [a.report.summary.event] := by
  have hchecks : ∀ phase, (a.checkEvents phase).filter (·.level = .info) = [] := by
    intro phase
    refine List.filter_eq_nil_iff.mpr fun e he => ?_
    rcases level_of_mem_checkEvents he with h | h <;> simp [h]
  rw [a.events_eq]
  simp [Phase.all, List.filter_append, hchecks, Phase.event, Summary.event]

theorem events_warningsFail (a : Audit) : WarningsFail a.report.records a.events := by
  rw [a.events_eq]
  refine WarningsFail.append (WarningsFail.flatMap fun phase _ => ?_) (.of_no_warning ?_)
  · refine (a.checkEvents_warningsFail phase).append (.of_no_warning ?_)
    simp [Phase.event]
  · simp [Summary.event]

end Audit

/-- **The log mirrors the report.** Each phase logs its checks and then that it is complete, with the
number of its records; the summary comes last, and nothing else is logged for information. The checks
of a phase are logged as warnings and debug events alone. The debug events tell the records of the
report, one each and in order; the warnings tell the sources that could not be read, and straight
behind each of them a record is told that fails. -/
theorem log_mirrors_report (a : Audit) :
    (∃ (checks : Phase → List Event) (completed : Phase → Event) (last : Event),
      a.events = Phase.all.flatMap (fun phase => checks phase ++ [completed phase]) ++ [last] ∧
      a.events.filter (·.level = .info) = Phase.all.map completed ++ [last] ∧
      TellsSummary last a.report.summary ∧
      ∀ phase,
        TellsPhase (completed phase) phase (a.report.phaseRecords phase).length ∧
        List.Forall₂ TellsRecord ((checks phase).filter (·.level = .debug))
          (a.report.phaseRecords phase) ∧
        List.Forall₂ TellsFailedRead ((checks phase).filter (·.level = .warn))
          (a.failedReads phase) ∧
        ∀ e ∈ checks phase, e.level = .warn ∨ e.level = .debug) ∧
    List.Forall₂ TellsRecord (a.events.filter (·.level = .debug)) a.report.records ∧
    List.Forall₂ TellsFailedRead (a.events.filter (·.level = .warn))
      (a.failedReads .nodes ++ a.failedReads .edges) ∧
    WarningsFail a.report.records a.events := by
  refine ⟨⟨a.checkEvents, fun phase => phase.event (a.report.phaseRecords phase).length,
    a.report.summary.event, a.events_eq, a.filter_info_events, Summary.tellsSummary_event _,
    fun phase => ⟨Phase.tellsPhase_event _ _, ?debug, ?warn,
      fun e => Audit.level_of_mem_checkEvents⟩⟩, ?records, ?reads, a.events_warningsFail⟩
  case debug =>
    rw [a.filter_debug_checkEvents]
    exact forall₂_tellsRecord _
  case warn =>
    rw [a.filter_warn_checkEvents]
    exact forall₂_tellsFailedRead _
  case records =>
    rw [a.filter_debug_events]
    exact forall₂_tellsRecord _
  case reads =>
    rw [a.filter_warn_events]
    exact forall₂_tellsFailedRead _

/-- A table that is there, and a method whose file is not; from both of them edges go out. -/
def shopMap : Audit where
  sources := .ofList [(⟨"orders.sql"⟩, some "CREATE TABLE orders (id int);")]
  document := {
    metadata.name := "Shop"
    nodes := .ofList [("table:orders", { loc := some "orders.sql" }),
      ("method:Shop.buy", { loc := some "shop.rs" })]
    edges := [⟨"method:Shop.buy", "table:orders", "writes", none⟩,
      ⟨"table:orders", "table:orders", "reads", none⟩] }
  root := ⟨""⟩

/-- What the log of the map says, written out. -/
def shopLog : List Event :=
  let told (phase subject check status message : String) : Event :=
    ⟨.debug, .audit, message, [("phase", .text phase), ("subject", .text subject),
      ("check", .text check), ("status", .text status)]⟩
  let unread : Event := ⟨.warn, .audit, "source file unreadable",
    [("path", .text "shop.rs"), ("error", .text "io error: read shop.rs (not found)")]⟩
  let complete (phase : String) (records : Nat) : Event :=
    ⟨.info, .audit, "phase complete", [("phase", .text phase), ("records", .count records)]⟩
  [told "nodes" "table:orders" "exists" "PASS" "CREATE TABLE `orders` found",
    unread,
    told "nodes" "method:Shop.buy" "exists" "FAIL" "file not found: shop.rs",
    complete "nodes" 2,
    unread,
    told "edges" "method:Shop.buy --writes--> table:orders" "relation" "FAIL"
      "source file not found: shop.rs",
    told "edges" "table:orders --reads--> table:orders" "relation" "WARN"
      "no direct access to `orders` found; access may be indirect",
    complete "edges" 2,
    complete "flows" 0,
    complete "invariants" 0,
    ⟨.info, .audit, "verification complete",
      [("pass", .count 1), ("fail", .count 2), ("warn", .count 1)]⟩]

theorem shop_log_is_told :
    shopMap.events = shopLog ∧
      List.Forall₂ TellsRecord (shopLog.filter (·.level = .debug)) shopMap.report.records ∧
      List.Forall₂ TellsFailedRead (shopLog.filter (·.level = .warn))
        [⟨"shop.rs", "io error: read shop.rs (not found)"⟩,
          ⟨"shop.rs", "io error: read shop.rs (not found)"⟩] ∧
      WarningsFail shopMap.report.records shopLog := by
  have hlog : shopMap.events = shopLog := by decide +kernel
  have hreads : shopMap.failedReads .nodes ++ shopMap.failedReads .edges =
      [⟨"shop.rs", "io error: read shop.rs (not found)"⟩,
        ⟨"shop.rs", "io error: read shop.rs (not found)"⟩] := by decide +kernel
  obtain ⟨-, hrecords, hwarnings, hfail⟩ := log_mirrors_report shopMap
  rw [hlog] at hrecords hwarnings hfail
  rw [hreads] at hwarnings
  exact ⟨hlog, hrecords, hwarnings, hfail⟩

end ContractAudit
