import ContractAudit.Proofs.Audit.Dependence
import ContractAudit.Proofs.Text.LineEnds

/-!
# Line ends are in no report

Whatever an audit looks into has uniform line ends: no check sees the text of a file itself, only
`Audit.textAt`. Sources whose texts are the same up to their line ends (`Sources.SameLines`) give
every element of a map the same footprint, and so every report is the same
(`line_ends_are_in_no_report`). A file that is written again in another style is such a source.
-/

namespace ContractAudit

open Text

namespace Sources

/-- The same files are there, and their texts differ in line ends at most. -/
structure SameLines (s s' : Sources) : Prop where
  readable : ∀ p, s'.readable p = s.readable p
  text : ∀ p, (s'.read p).toOption.map withUniformLineEnds =
    (s.read p).toOption.map withUniformLineEnds

/-- The same files, some of which are written in another style. A file that is written again holds
no carriage return to begin with. -/
structure Restyled (s s' : Sources) : Prop where
  readable : ∀ p, s'.readable p = s.readable p
  text : ∀ p, s'.read p = s.read p ∨ ∃ (style : LineStyle) (text : String),
    s.read p = .ok text ∧ ReturnFree text.toList ∧ s'.read p = .ok (style.writeText text)

theorem Restyled.sameLines {s s' : Sources} (h : s.Restyled s') : s.SameLines s' where
  readable := h.readable
  text := by
    intro p
    rcases h.text p with hsame | ⟨style, text, hread, hfree, hread'⟩
    · rw [hsame]
    · rw [hread, hread']
      show some (withUniformLineEnds (style.writeText text)) = some (withUniformLineEnds text)
      rw [style.withUniformLineEnds_writeText hfree, withUniformLineEnds_of_returnFree hfree]

end Sources

namespace Audit

/-- The audit of the same map with other sources. -/
def against (a : Audit) (s : Sources) : Audit := { a with sources := s }

variable {a : Audit} {s : Sources}

theorem samePlaces_against : SamePlaces a (a.against s) := ⟨rfl, rfl⟩

section

variable (h : a.sources.SameLines s)
include h

theorem textAt_against : (a.against s).textAt = a.textAt := by
  funext loc
  exact h.text (a.resolve loc).path

theorem isReadable_against : (a.against s).isReadable = a.isReadable := by
  funext loc
  exact h.readable (a.resolve loc).path

/-! ## Footprints hold no line ends -/

theorem nodeFootprint_against (id : String) (n : NodeRecord) :
    (a.against s).nodeFootprint id n = a.nodeFootprint id n := by
  unfold nodeFootprint
  rw [textAt_against h, isReadable_against h]

theorem edgeFootprint_against (e : EdgeRecord) :
    (a.against s).edgeFootprint e = a.edgeFootprint e :=
  edgeFootprint_eq rfl fun _ _ _ _ => by rw [textAt_against h]

theorem invariantFootprint_against (i : InvariantRecord) :
    (a.against s).invariantFootprint i = a.invariantFootprint i := by
  unfold invariantFootprint scopeSeen
  rw [isReadable_against h]
  rfl

theorem report_against : (a.against s).report = a.report := by
  have hrecords : (a.against s).report.records = a.report.records := by
    rw [report_records_inOrder, report_records_inOrder]
    apply recordsInOrder_congr
    · intro id n
      exact nodeBlock_records_congr samePlaces_against (nodeFootprint_against h id n)
    · intro e
      exact edgeBlock_records_congr samePlaces_against (edgeFootprint_against h e)
    · intro name f
      rfl
    · intro i
      rw [invariantBlock_congr_of_footprint samePlaces_against (invariantFootprint_against h i)]
  show Report.ofRecords _ _ (a.against s).report.records = Report.ofRecords _ _ a.report.records
  rw [hrecords]
  rfl

end

end Audit

/-- **Line ends are in no report.** Making line ends uniform is one pass over a text that leaves no
carriage return, and doing it twice changes nothing; sources that differ in line ends give equal
reports, and so do sources of which some files are written in another style. -/
theorem line_ends_are_in_no_report :
    (∀ text : String,
      withUniformLineEnds text = String.ofList (universalNewlines false text.toList) ∧
      ReturnFree (withUniformLineEnds text).toList ∧
      withUniformLineEnds (withUniformLineEnds text) = withUniformLineEnds text) ∧
    (∀ (a : Audit) (s : Sources), a.sources.SameLines s → (a.against s).report = a.report) ∧
    (∀ (a : Audit) (s : Sources), a.sources.Restyled s → (a.against s).report = a.report) := by
  refine ⟨?_, ?_, ?_⟩
  · intro text
    exact ⟨withUniformLineEnds_eq text, returnFree_withUniformLineEnds text,
      withUniformLineEnds_idem text⟩
  · intro a s h
    exact Audit.report_against h
  · intro a s h
    exact Audit.report_against h.sameLines

/-! ## A file in three styles -/

theorem Sources.read_single (file p : FilePath) (text : String) :
    (Sources.ofList [(file, some text)]).read p =
      if file.components = p.components then .ok text else .error "not found" := by
  by_cases hp : file.components = p.components
  · simp [Sources.ofList, Sources.lookup, hp]
  · simp [Sources.ofList, Sources.lookup, hp]

theorem Sources.readable_single (file p : FilePath) (text text' : String) :
    (Sources.ofList [(file, some text')]).readable p =
      (Sources.ofList [(file, some text)]).readable p := by
  by_cases hp : file.components = p.components
  · simp [Sources.ofList, Sources.lookup, hp]
  · simp [Sources.ofList, Sources.lookup, hp]

theorem Sources.sameLines_single (file : FilePath) {text text' : String}
    (h : withUniformLineEnds text' = withUniformLineEnds text) :
    (Sources.ofList [(file, some text)]).SameLines (.ofList [(file, some text')]) where
  readable := fun p => readable_single file p text text'
  text := by
    intro p
    rw [read_single, read_single]
    split
    · exact congrArg some h
    · rfl

theorem Sources.restyled_single (file : FilePath) (style : LineStyle) {text : String}
    (h : ReturnFree text.toList) :
    (Sources.ofList [(file, some text)]).Restyled (.ofList [(file, some (style.writeText text))]) where
  readable := fun p => readable_single file p text (style.writeText text)
  text := by
    intro p
    rw [read_single, read_single]
    split
    · exact Or.inr ⟨style, text, rfl, h, rfl⟩
    · exact Or.inl rfl

/-- A map of one event in the second line of the only file. -/
def eventInSecondLine (text : String) : Audit where
  sources := .ofList [(⟨"a.ts"⟩, some text)]
  document := { nodes := .ofList [("event:x", { loc := some "a.ts:2" })] }
  root := ⟨""⟩

/-- The event is found with returns and feeds at the ends, and with both styles in one file. -/
theorem event_in_other_styles :
    let a := eventInSecondLine "bus\n.emit('x')\n"
    let styled := Sources.ofList [(⟨"a.ts"⟩, some "bus\r\n.emit('x')\r\n")]
    let mixed := Sources.ofList [(⟨"a.ts"⟩, some "bus\r\n.emit('x')\r")]
    a.sources.Restyled styled ∧ (a.against styled).report = a.report ∧
      a.sources.SameLines mixed ∧ (a.against mixed).report = a.report ∧ a.report.exitCode = 0 := by
  intro a styled mixed
  have hfree : ReturnFree "bus\n.emit('x')\n".toList := by
    unfold ReturnFree
    decide
  have hwritten : LineStyle.returnAndFeed.writeText "bus\n.emit('x')\n" =
      "bus\r\n.emit('x')\r\n" := by decide
  have hstyled : a.sources.Restyled styled := by
    have h := Sources.restyled_single ⟨"a.ts"⟩ .returnAndFeed hfree
    rw [hwritten] at h
    exact h
  have hmixed : a.sources.SameLines mixed := Sources.sameLines_single _ (by decide)
  exact ⟨hstyled, line_ends_are_in_no_report.2.2 a styled hstyled, hmixed,
    line_ends_are_in_no_report.2.1 a mixed hmixed, by decide +kernel⟩

end ContractAudit
