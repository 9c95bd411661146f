import ContractAudit.Proofs.Text.OneLine

/-!
# The lines a report is made of

The text of a report is put together from lines, each ended by a line feed: a headline, for each phase
its title and a line for each record or one that says that there is none (`Report.length_lines`), and
the summary. If the texts of the report hold no line feed, these are the lines of its text, in either
style (`Report.OneLine.rawLines_text`).
-/

namespace ContractAudit

theorem Style.isOneLine_paint (style : Style) {codes s : String} (hcodes : IsOneLine codes)
    (h : IsOneLine s) : IsOneLine (style.paint codes s) := by
  cases style with
  | plain => exact h
  | coloured => exact .append (.append (hcodes.enclosed rfl rfl) h) (.literal rfl)

/-! ## Records -/

/-- The texts of a record hold no line feed. -/
structure CheckRecord.OneLine (r : CheckRecord) : Prop where
  subject : IsOneLine r.subject
  check : IsOneLine r.check
  message : IsOneLine r.message
  file : ∀ file ∈ r.file, IsOneLine file

namespace CheckRecord.OneLine

variable {r : CheckRecord}

theorem location (h : r.OneLine) : ∀ location ∈ r.location, IsOneLine location := by
  intro location hlocation
  obtain ⟨file, hfile, rfl⟩ := Option.map_eq_some_iff.mp hlocation
  have hfile := h.file file hfile
  cases r.line with
  | none => exact hfile
  | some line => exact (hfile.append (.literal rfl)).append (.repr_nat line)

theorem lineText (h : r.OneLine) (style : Style) : IsOneLine (r.lineText style) := by
  have hstatus : IsOneLine (style.paint r.status.colour r.status.text) :=
    style.isOneLine_paint (by cases r.status <;> exact .literal rfl)
      (by cases r.status <;> exact .literal rfl)
  unfold CheckRecord.lineText
  refine .append (.append (.append (.append (.append (.append (hstatus.enclosed rfl rfl) h.subject)
    (.literal rfl)) h.check) (.literal rfl)) h.message) ?_
  cases hl : r.location with
  | none => exact .literal rfl
  | some location => exact (h.location location hl).enclosed rfl rfl

theorem located (h : r.OneLine) {file : String} (hfile : IsOneLine file) (line : Option Nat) :
    (r.located file line).OneLine :=
  ⟨h.subject, h.check, h.message, by simpa [CheckRecord.located] using hfile⟩

end CheckRecord.OneLine

/-! ## Reports -/

/-- The texts of a report hold no line feed. -/
structure Report.OneLine (r : Report) : Prop where
  name : IsOneLine r.name
  version : IsOneLine r.version
  records : ∀ record ∈ r.records, record.OneLine

namespace Report

variable {r : Report}

theorem isOneLine_summaryLine (r : Report) : IsOneLine r.summaryLine := by
  unfold summaryLine
  exact .append (.append (.append (.append (.append (.append (.enclosed (.repr_nat _) rfl rfl)
    (.repr_nat _)) (.literal rfl)) (.repr_nat _)) (.literal rfl)) (.repr_nat _)) (.literal rfl)

theorem OneLine.headline (h : r.OneLine) : IsOneLine r.headline := by
  have hname : IsOneLine r.shownName := by
    unfold shownName
    split
    · exact .literal rfl
    · exact h.name
  exact .append (.append (hname.enclosed rfl rfl) h.version) (.literal rfl)

theorem OneLine.phaseLines (h : r.OneLine) (style : Style) (phase : Phase) :
    ∀ line ∈ r.phaseLines style phase, IsOneLine line := by
  have htitle : IsOneLine phase.title := by cases phase <;> exact .literal rfl
  refine List.forall_mem_cons.mpr ⟨htitle.append (.literal rfl), ?_⟩
  split
  · exact List.forall_mem_singleton.mpr (.literal rfl)
  · refine List.forall_mem_map.mpr fun record hrecord => ?_
    exact (h.records record (List.mem_of_mem_filter hrecord)).lineText style

theorem OneLine.lines (h : r.OneLine) (style : Style) :
    ∀ line ∈ r.lines style, IsOneLine line := by
  unfold Report.lines
  exact List.forall_mem_append.mpr ⟨List.forall_mem_cons.mpr ⟨h.headline,
    List.forall_mem_flatMap.mpr fun phase _ => h.phaseLines style phase⟩,
    List.forall_mem_singleton.mpr r.isOneLine_summaryLine⟩

theorem OneLine.rawLines_text (h : r.OneLine) (style : Style) :
    Text.rawLines (r.text style).toList = (r.lines style).map String.toList :=
  Text.rawLines_linesText (h.lines style)

/-- A headline and a summary, and for each phase its title and a line for each record or one that
says that there is none. -/
theorem length_lines (r : Report) (style : Style) : (r.lines style).length =
    6 + (Phase.all.map fun phase => max 1 (r.phaseRecords phase).length).sum := by
  have hphase : ∀ phase, (r.phaseLines style phase).length =
      max 1 (r.phaseRecords phase).length + 1 := by
    intro phase
    unfold phaseLines
    split
    · rename_i hnone
      simp [hnone]
    · rename_i records hne
      have hpos : 0 < (r.phaseRecords phase).length := List.length_pos_iff.mpr hne
      rw [List.length_cons, List.length_map]
      omega
  simp only [lines, List.length_cons, List.length_append, List.length_flatMap, hphase, Phase.all,
    List.map_cons, List.map_nil, List.sum_cons, List.sum_nil, List.length_nil]
  omega

end Report

end ContractAudit
