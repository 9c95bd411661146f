import ContractAudit.Impact.Text
import ContractAudit.Proofs.Audit.ReportStructure
import ContractAudit.Proofs.Impact.Conservation
import ContractAudit.Proofs.Report.Lines
import ContractAudit.Proofs.Text.Colour

/-!
# Colour is put over a text

The coloured text of a report, and of the answer to a query, is the plain text with colour sequences
put into it, if nothing that is shown holds an escape (`colour_is_an_overlay`): line by line the two
differ in the words for a status and for edges whose ends change together, and each is painted as a
whole. In either style the text of a report is made of lines, and those of them that begin as lines of
records do show the records of the report (`ShowsRecord`), regrouped by phase (`Regrouped`).
-/

namespace ContractAudit

open Text (escape stripColour)

/-! ## What is shown -/

/-- The texts of a record that are shown. -/
def CheckRecord.texts (r : CheckRecord) : List String :=
  [r.subject, r.check, r.message] ++ r.file.toList

def Report.texts (r : Report) : List String :=
  [r.name, r.version] ++ r.records.flatMap CheckRecord.texts

def ImpactEdge.texts (e : ImpactEdge) : List String := [e.source, e.target, e.rel] ++ e.note.toList

def FlowRole.texts : FlowRole → List String
  | .step _ | .jump _ => []
  | .branch _ label => [label]

def ImpactFlow.texts (f : ImpactFlow) : List String :=
  [f.name, f.trigger] ++ f.roles.flatMap FlowRole.texts

def ImpactInvariant.texts (i : ImpactInvariant) : List String := [i.id, i.rule] ++ i.enforce.toList

def ImpactReport.texts (r : ImpactReport) : List String :=
  [r.nodeId, r.kind] ++ r.loc.toList ++ (r.outgoing ++ r.incoming).flatMap ImpactEdge.texts ++
    r.flows.flatMap ImpactFlow.texts ++ r.invariants.flatMap ImpactInvariant.texts

def ImpactOutcome.texts : ImpactOutcome → List String
  | .found report => report.texts
  | .notFound id known => id :: known

/-- None of the texts holds an escape. -/
def EscapeFree (texts : List String) : Prop := ∀ s ∈ texts, escape ∉ s.toList

theorem EscapeFree.mono {texts texts' : List String} (h : EscapeFree texts')
    (hsub : texts ⊆ texts') : EscapeFree texts := fun _ hs => h _ (hsub hs)

theorem EscapeFree.overlay {texts : List String} (h : EscapeFree texts) {s : String}
    (hs : s ∈ texts) : IsOverlay s s := .refl (h s hs)

theorem EscapeFree.flatMap {α : Type} {texts : List String} {xs : List α} {f : α → List String}
    (h : EscapeFree texts) (hsub : xs.flatMap f ⊆ texts) : ∀ x ∈ xs, EscapeFree (f x) :=
  fun x hx => h.mono fun _ hs => hsub (List.mem_flatMap.mpr ⟨x, hx, hs⟩)

/-! ## Lines -/

theorem CheckRecord.overlay_lineText {r : CheckRecord} (h : EscapeFree r.texts) :
    IsOverlay (r.lineText .coloured) (r.lineText .plain) := by
  unfold lineText
  refine .append (.append (.append (.append (.append (.append ?status ?subject) (.literal rfl))
    ?check) (.literal rfl)) ?message) ?location
  case status =>
    refine IsOverlay.enclosed ?_ rfl rfl
    cases r.status <;> exact .paint (by decide) (by decide)
  case subject => exact h.overlay (by simp [texts])
  case check => exact h.overlay (by simp [texts])
  case message => exact h.overlay (by simp [texts])
  case location =>
    unfold location
    cases hf : r.file with
    | none => exact .literal rfl
    | some file =>
        have hfile : IsOverlay file file := h.overlay (by simp [texts, hf])
        cases r.line with
        | none => exact hfile.enclosed rfl rfl
        | some line =>
            exact ((hfile.append (.literal rfl)).append (.repr_nat line)).enclosed rfl rfl

namespace Report

variable {r : Report}

theorem overlay_headline (h : EscapeFree r.texts) : IsOverlay r.headline r.headline := by
  unfold headline
  refine .append (.append (.enclosed ?_ rfl rfl) (h.overlay (by simp [texts]))) (.literal rfl)
  unfold shownName
  split
  · exact .literal rfl
  · exact h.overlay (by simp [texts])

theorem overlay_summaryLine (r : Report) : IsOverlay r.summaryLine r.summaryLine := by
  unfold summaryLine
  exact .append (.append (.append (.append (.append (.append (.enclosed (.repr_nat _) rfl rfl)
    (.repr_nat _)) (.literal rfl)) (.repr_nat _)) (.literal rfl)) (.repr_nat _)) (.literal rfl)

theorem overlay_phaseLines (h : EscapeFree r.texts) (phase : Phase) :
    List.Forall₂ IsOverlay (r.phaseLines .coloured phase) (r.phaseLines .plain phase) := by
  have htitle : IsOverlay phase.title phase.title := by cases phase <;> exact .literal rfl
  have hrecords : ∀ record ∈ r.records, EscapeFree record.texts :=
    h.flatMap (List.subset_append_right _ _)
  unfold phaseLines
  refine .cons (htitle.append (.literal rfl)) ?_
  cases hphase : r.phaseRecords phase with
  | nil => exact .cons (.literal rfl) .nil
  | cons first rest =>
      dsimp only
      rw [← hphase, List.forall₂_map_left_iff, List.forall₂_map_right_iff, List.forall₂_same]
      intro record hrecord
      exact CheckRecord.overlay_lineText (hrecords record (List.mem_of_mem_filter hrecord))

/-- **The coloured text of a report lies over the plain one.** -/
theorem overlay_text (h : EscapeFree r.texts) : IsOverlay (r.text .coloured) (r.text .plain) := by
  refine IsOverlay.linesText ?_
  unfold lines
  refine List.rel_append (.cons (overlay_headline h) ?_) (.cons r.overlay_summaryLine .nil)
  refine List.rel_flatMap (List.forall₂_same.mpr fun phase _ => Eq.refl phase) ?_
  rintro phase _ rfl
  exact overlay_phaseLines h phase

end Report

/-! ## Answers to queries -/

theorem ImpactEdge.overlay_lineText {e : ImpactEdge} (h : EscapeFree e.texts) :
    IsOverlay (e.lineText .coloured) (e.lineText .plain) := by
  unfold lineText
  refine .append (.append (.append (.append (.append (.append (.append (.literal rfl) ?source)
    (.literal rfl)) ?rel) (.literal rfl)) ?target) ?coChange) ?note
  case source => exact h.overlay (by simp [texts])
  case rel => exact h.overlay (by simp [texts])
  case target => exact h.overlay (by simp [texts])
  case coChange =>
    split
    · exact .append (.literal rfl) (.paint (by decide) (by decide))
    · exact .literal rfl
  case note =>
    split
    · rename_i shown hshown
      obtain ⟨note, hnote, hshown⟩ := Option.bind_eq_some_iff.mp hshown
      exact (IsOverlay.of_nonBlank? (h note (by simp [texts, hnote])) hshown).enclosed rfl rfl
    · exact .literal rfl

theorem FlowRole.overlay_text {role : FlowRole} (h : EscapeFree role.texts) :
    IsOverlay role.text role.text := by
  cases role with
  | step index => exact .append (.literal rfl) (.repr_nat _)
  | jump index => exact .append (.literal rfl) (.repr_nat _)
  | branch index label =>
      exact .append (.enclosed (h.overlay (by simp [texts])) rfl rfl) (.repr_nat _)

theorem ImpactFlow.overlay_lineText {f : ImpactFlow} (h : EscapeFree f.texts) :
    IsOverlay f.lineText f.lineText := by
  unfold lineText
  refine .append (.append (.append (.append (.literal rfl) ?name) ?trigger) (.literal rfl)) ?roles
  case name => exact h.overlay (by simp [texts])
  case trigger =>
    split
    · rename_i shown hshown
      exact (IsOverlay.of_nonBlank? (h f.trigger (by simp [texts])) hshown).enclosed rfl rfl
    · exact .literal rfl
  case roles =>
    refine .joinWith (.literal rfl) (List.forall_mem_map.mpr fun role hrole => ?_)
    exact FlowRole.overlay_text (h.flatMap (List.subset_append_right _ _) role hrole)

theorem ImpactInvariant.overlay_lineText {i : ImpactInvariant} (h : EscapeFree i.texts) :
    IsOverlay i.lineText i.lineText := by
  unfold lineText
  refine .append (.append (.append (.append (.literal rfl) ?id) (.literal rfl)) ?rule) ?enforce
  case id => exact h.overlay (by simp [texts])
  case rule => exact h.overlay (by simp [texts])
  case enforce =>
    split
    · rename_i enforce henforce
      exact (h.overlay (s := enforce) (by simp [texts, henforce])).enclosed rfl rfl
    · exact .literal rfl

/-- Things of one kind under their count. -/
theorem overlay_countedLines {α : Type} {coloured plain : α → String} {xs : List α} {title : String}
    (htitle : IsOverlay title title) (h : ∀ x ∈ xs, IsOverlay (coloured x) (plain x)) :
    List.Forall₂ IsOverlay (countedLines title (xs.map coloured))
      (countedLines title (xs.map plain)) := by
  unfold countedLines
  rw [List.length_map, List.length_map]
  refine .cons ((htitle.append (.literal rfl)).append (.repr_nat _)) ?_
  rwa [List.forall₂_map_left_iff, List.forall₂_map_right_iff, List.forall₂_same]

theorem ImpactReport.overlay_lines {r : ImpactReport} (h : EscapeFree r.texts) :
    List.Forall₂ IsOverlay (r.lines .coloured) (r.lines .plain) := by
  have hedges : ∀ e ∈ r.outgoing ++ r.incoming, EscapeFree e.texts :=
    h.flatMap fun s hs => by
      simp only [texts, List.mem_append]
      exact .inl (.inl (.inr hs))
  have hflows : ∀ f ∈ r.flows, EscapeFree f.texts :=
    h.flatMap fun s hs => by
      simp only [texts, List.mem_append]
      exact .inl (.inr hs)
  have hinvariants : ∀ i ∈ r.invariants, EscapeFree i.texts :=
    h.flatMap fun s hs => by
      simp only [texts, List.mem_append]
      exact .inr hs
  unfold lines
  refine List.rel_append (List.rel_append (List.rel_append (List.rel_append (.cons ?headline
    ?outgoing) ?incoming) ?flows) ?invariants) ?note
  case headline =>
    unfold headline
    refine .append (.append (.append (.enclosed ?_ rfl rfl) (h.overlay (by simp [texts]))) ?_)
      (.literal rfl)
    · exact h.overlay (by simp [texts])
    · split
      · rename_i loc hloc
        exact .append (.literal rfl) (h.overlay (by simp [texts, hloc]))
      · exact .literal rfl
  case outgoing =>
    exact overlay_countedLines (.literal rfl) fun e he =>
      ImpactEdge.overlay_lineText (hedges e (List.mem_append_left _ he))
  case incoming =>
    exact overlay_countedLines (.literal rfl) fun e he =>
      ImpactEdge.overlay_lineText (hedges e (List.mem_append_right _ he))
  case flows =>
    exact overlay_countedLines (.literal rfl) fun f hf =>
      ImpactFlow.overlay_lineText (hflows f hf)
  case invariants =>
    exact overlay_countedLines (.literal rfl) fun i hi =>
      ImpactInvariant.overlay_lineText (hinvariants i hi)
  case note =>
    split
    · exact .cons (.literal rfl) .nil
    · exact .nil

/-- **The coloured text of an answer lies over the plain one.** -/
theorem ImpactOutcome.overlay_text {o : ImpactOutcome} (h : EscapeFree o.texts) :
    IsOverlay (o.text .coloured) (o.text .plain) := by
  refine IsOverlay.linesText ?_
  cases o with
  | found report => exact ImpactReport.overlay_lines h
  | notFound id known =>
      refine .cons ?_ (.cons ?_ ?_)
      · exact .append (.literal rfl) (h.overlay List.mem_cons_self)
      · exact .enclosed (.repr_nat _) rfl rfl
      · show List.Forall₂ IsOverlay (known.map ("  - " ++ ·)) (known.map ("  - " ++ ·))
        rw [List.forall₂_map_left_iff, List.forall₂_map_right_iff, List.forall₂_same]
        exact fun id hid => .append (.literal rfl) (h.overlay (List.mem_cons_of_mem _ hid))

/-! ## Lines of records -/

/-- The rows are the records, regrouped by phase: each stands there once, phase after phase, and in
a phase they keep their order. -/
structure Regrouped (rows records : List CheckRecord) : Prop where
  perm : rows.Perm records
  phases : rows.Pairwise fun r s => Phase.all.idxOf r.phase ≤ Phase.all.idxOf s.phase
  order : ∀ phase, rows.filter (·.phase = phase) = records.filter (·.phase = phase)

/-- What stands behind the message of a record: in parentheses the file that was looked up, and the
line in it. -/
def CheckRecord.place (r : CheckRecord) : String :=
  match r.file, r.line with
  | none, _ => ""
  | some file, none => " (" ++ file ++ ")"
  | some file, some line => " (" ++ file ++ ":" ++ toString line ++ ")"

/-- A line shows a record: the word for its status, what it is about, the check in brackets, the
message, and where that was looked up. The word holds colour sequences unless the style is plain. -/
def ShowsRecord (style : Style) (line : String) (r : CheckRecord) : Prop :=
  ∃ word, line = "  " ++ word ++ " " ++ r.subject ++ " [" ++ r.check ++ "] " ++ r.message ++ r.place ∧
    stripColour word.toList = r.status.text.toList ∧ (word = r.status.text ↔ style = .plain)

theorem CheckRecord.showsRecord_lineText (style : Style) (r : CheckRecord) :
    ShowsRecord style (r.lineText style) r := by
  refine ⟨style.paint r.status.colour r.status.text, ?line, ?strip, ?plain⟩
  case line =>
    unfold lineText place location
    rcases r.file with - | file <;> rcases r.line with - | line <;> simp [String.append_assoc]
  case strip => cases style <;> cases r.status <;> decide +kernel
  case plain => cases style <;> cases r.status <;> decide +kernel

/-- Whether a line begins as those of records do: with the word for a status, set off by spaces. -/
def isRecordLine (style : Style) (line : String) : Bool :=
  [Status.pass, .fail, .warn].any fun status =>
    ("  " ++ style.paint status.colour status.text ++ " ").toList.isPrefixOf line.toList

theorem isRecordLine_lineText (style : Style) (r : CheckRecord) :
    isRecordLine style (r.lineText style) = true := by
  refine List.any_eq_true.mpr ⟨r.status, by cases r.status <;> simp, ?_⟩
  rw [List.isPrefixOf_iff_prefix]
  unfold CheckRecord.lineText
  simp only [String.toList_append, List.append_assoc]
  exact ⟨_, by simp only [List.append_assoc]; rfl⟩

/-- A line that does not begin with a space is none of a record. -/
theorem isRecordLine_of_head {line : String} {c : Char} {rest : List Char} (style : Style)
    (hline : line.toList = c :: rest) (hc : c ≠ ' ') : isRecordLine style line = false := by
  unfold isRecordLine
  rw [hline]
  cases style <;> simp [Style.paint, List.isPrefixOf, hc.symm]

namespace Report

variable {r : Report}

theorem regrouped_phaseRecords (r : Report) :
    Regrouped (Phase.all.flatMap r.phaseRecords) r.records where
  perm := by
    have hperm : (Phase.all.flatMap r.phaseRecords).Perm (r.records.filter (·.phase ∈ Phase.all)) :=
      perm_flatMap_filter CheckRecord.phase r.records (by decide)
    rwa [List.filter_eq_self.mpr fun row _ => by simp [Phase.mem_all]] at hperm
  phases := by
    have hphase : ∀ {phase : Phase} {row : CheckRecord}, row ∈ r.phaseRecords phase →
        row.phase = phase := by
      intro phase row hrow
      simpa using (List.mem_filter.mp hrow).2
    have hall : Phase.all.Pairwise fun p q => Phase.all.idxOf p ≤ Phase.all.idxOf q := by decide
    refine List.pairwise_flatMap.mpr ⟨fun phase _ => ?_, hall.imp fun hle row hrow row' hrow' => ?_⟩
    · refine List.pairwise_of_forall_mem_list fun row hrow row' hrow' => ?_
      exact Nat.le_of_eq (by rw [hphase hrow, hphase hrow'])
    · rwa [hphase hrow, hphase hrow']
  order := by
    intro phase
    have hphase : ∀ p, (r.phaseRecords p).filter (·.phase = phase) =
        if p = phase then r.phaseRecords p else [] :=
      fun p => Audit.filter_phase phase fun row hrow => by simpa using (List.mem_filter.mp hrow).2
    rw [List.filter_flatMap]
    simp only [hphase]
    cases phase <;> simp [Phase.all, phaseRecords]

theorem filter_phaseLines (style : Style) (r : Report) (phase : Phase) :
    (r.phaseLines style phase).filter (isRecordLine style) =
      (r.phaseRecords phase).map (CheckRecord.lineText style) := by
  have htitle : isRecordLine style (phase.title ++ ":") = false := by
    cases phase <;> exact isRecordLine_of_head style rfl (by decide)
  unfold phaseLines
  rw [List.filter_cons_of_neg (by simp [htitle])]
  cases r.phaseRecords phase with
  | nil => cases style <;> decide
  | cons first rest =>
      refine List.filter_eq_self.mpr (List.forall_mem_map.mpr fun row _ => ?_)
      exact isRecordLine_lineText style row

/-- The lines of records are those of the records of each phase, in the order of the phases. -/
theorem filter_lines (style : Style) (r : Report) : (r.lines style).filter (isRecordLine style) =
    (Phase.all.flatMap r.phaseRecords).map (CheckRecord.lineText style) := by
  have hheadline : isRecordLine style r.headline = false := by
    unfold headline
    simp only [String.append_assoc]
    exact isRecordLine_of_head style (String.toList_append) (by decide)
  have hsummary : isRecordLine style r.summaryLine = false := by
    unfold summaryLine
    simp only [String.append_assoc]
    exact isRecordLine_of_head style (String.toList_append) (by decide)
  unfold lines
  rw [List.filter_append, List.filter_cons_of_neg (by simp [hheadline]), List.filter_singleton,
    hsummary, List.filter_flatMap, List.map_flatMap]
  simp only [filter_phaseLines]
  exact List.append_nil _

end Report

/-- **Colour is put over a text.** Without its colour sequences a coloured text is the plain one,
for a report and for an answer alike, and the plain text holds no escape, if none of the texts in
what is shown does. In either style the text of a report is made of lines, which are those of the text
if its texts hold no line feed; the lines of records show the report's records, each once, regrouped
by phase. -/
theorem colour_is_an_overlay :
    (∀ r : Report, EscapeFree r.texts →
      stripColour (r.text .coloured).toList = (r.text .plain).toList ∧
        escape ∉ (r.text .plain).toList) ∧
    (∀ o : ImpactOutcome, EscapeFree o.texts →
      stripColour (o.text .coloured).toList = (o.text .plain).toList ∧
        escape ∉ (o.text .plain).toList) ∧
    ∀ (r : Report) (style : Style), ∃ (lines : List String) (rows : List CheckRecord),
      r.text style = String.join (lines.map (· ++ "\n")) ∧
      (r.OneLine → Text.rawLines (r.text style).toList = lines.map String.toList) ∧
      Regrouped rows r.records ∧
      List.Forall₂ (ShowsRecord style) (lines.filter (isRecordLine style)) rows := by
  refine ⟨fun r h => ?_, fun o h => ?_, fun r style => ?_⟩
  · have hoverlay := Report.overlay_text h
    exact ⟨hoverlay.stripColour_eq, hoverlay.1⟩
  · have hoverlay := ImpactOutcome.overlay_text h
    exact ⟨hoverlay.stripColour_eq, hoverlay.1⟩
  · refine ⟨r.lines style, _, rfl, fun h => h.rawLines_text style, r.regrouped_phaseRecords, ?_⟩
    rw [r.filter_lines style, List.forall₂_map_left_iff]
    exact List.forall₂_same.mpr fun record _ => record.showsRecord_lineText style

/-- Records of two phases, in mixed order. -/
def mixedReport : Report :=
  .ofRecords "Shop" "1" [
    ⟨.edges, "cart -> pay", "ends", .fail, "no such node", none, none⟩,
    ⟨.nodes, "cart", "exists", .pass, "found", some "src/cart.rs", some 12⟩,
    ⟨.edges, "pay -> cart", "ends", .warn, "not looked at", some "pay.rs", none⟩,
    ⟨.nodes, "pay", "exists", .pass, "found", none, none⟩]

theorem mixedReport_oneLine : mixedReport.OneLine where
  name := .literal rfl
  version := .literal rfl
  records := by
    refine List.forall_mem_cons.mpr ⟨⟨.literal rfl, .literal rfl, .literal rfl, nofun⟩,
      List.forall_mem_cons.mpr ⟨⟨.literal rfl, .literal rfl, .literal rfl, ?cart⟩,
      List.forall_mem_cons.mpr ⟨⟨.literal rfl, .literal rfl, .literal rfl, ?pay⟩,
      List.forall_mem_singleton.mpr ⟨.literal rfl, .literal rfl, .literal rfl, nofun⟩⟩⟩⟩
    case cart =>
      rintro _ ⟨⟩
      exact .literal rfl
    case pay =>
      rintro _ ⟨⟩
      exact .literal rfl

/-- An answer with an edge whose ends change together. -/
def coupledAnswer : ImpactOutcome :=
  .found {
    nodeId := "cart"
    kind := "function"
    outgoing := [⟨"cart", "pay", "co_change", some "schema", true⟩]
    flows := [⟨"checkout", "click", [.step 0, .branch 1 "failed"]⟩] }

theorem mixedReport_is_painted :
    mixedReport.text .plain = String.join [
      "Contract map: Shop (version 1)\n",
      "Nodes:\n",
      "  PASS cart [exists] found (src/cart.rs:12)\n",
      "  PASS pay [exists] found\n",
      "Edges:\n",
      "  FAIL cart -> pay [ends] no such node\n",
      "  WARN pay -> cart [ends] not looked at (pay.rs)\n",
      "Flows:\n",
      "  (nothing declared)\n",
      "Invariants:\n",
      "  (nothing declared)\n",
      "Summary: 4 checks: 2 pass, 1 fail, 1 warn\n"] ∧
    mixedReport.text .coloured = String.join [
      "Contract map: Shop (version 1)\n",
      "Nodes:\n",
      "  \x1b[32mPASS\x1b[0m cart [exists] found (src/cart.rs:12)\n",
      "  \x1b[32mPASS\x1b[0m pay [exists] found\n",
      "Edges:\n",
      "  \x1b[31mFAIL\x1b[0m cart -> pay [ends] no such node\n",
      "  \x1b[33mWARN\x1b[0m pay -> cart [ends] not looked at (pay.rs)\n",
      "Flows:\n",
      "  (nothing declared)\n",
      "Invariants:\n",
      "  (nothing declared)\n",
      "Summary: 4 checks: 2 pass, 1 fail, 1 warn\n"] ∧
    stripColour (mixedReport.text .coloured).toList = (mixedReport.text .plain).toList ∧
    stripColour (coupledAnswer.text .coloured).toList = (coupledAnswer.text .plain).toList ∧
      coupledAnswer.text .coloured ≠ coupledAnswer.text .plain ∧
    ∃ (lines : List String) (rows : List CheckRecord),
      Text.rawLines (mixedReport.text .plain).toList = lines.map String.toList ∧
      Regrouped rows mixedReport.records ∧
      List.Forall₂ (ShowsRecord .plain) (lines.filter (isRecordLine .plain)) rows := by
  obtain ⟨hreport, hanswer, hlines⟩ := colour_is_an_overlay
  obtain ⟨lines, rows, -, hraw, hrows, hshown⟩ := hlines mixedReport .plain
  refine ⟨by decide +kernel, by decide +kernel, (hreport mixedReport ?_).1,
    (hanswer coupledAnswer ?_).1, by decide +kernel, lines, rows, hraw mixedReport_oneLine, hrows,
    hshown⟩
  · unfold EscapeFree
    decide +kernel
  · unfold EscapeFree
    decide +kernel

end ContractAudit
