import ContractAudit.FileTree
import ContractAudit.Proofs.Audit.Existence
import ContractAudit.Proofs.Text.LineEnds
import ContractAudit.Proofs.Text.OneLine
import ContractAudit.Proofs.Text.Utf8

/-!
# Bytes that are no text

A file need not be text: what is no UTF-8 in it is shown as such. An audit still sees every line of
it that is ASCII (`bytes_hide_no_ascii`), since decoding swallows no ASCII byte and line ends are
made uniform on both sides of a line and never in it (`StandsAsLine.universalNewlines_eq`). What is
evidence in such a line is evidence in the file, whatever the bytes around it are.
-/

namespace ContractAudit

open Text Text.Utf8

/-! ## Lines of bytes -/

/-- The byte ends a line, alone or as a part of a pair. -/
def EndsLine (b : UInt8) : Prop := b = 0x0A ∨ b = 0x0D

instance (b : UInt8) : Decidable (EndsLine b) := inferInstanceAs (Decidable (_ ∨ _))

theorem EndsLine.lt {b : UInt8} (h : EndsLine b) : b < 0x80 := by
  rcases h with rfl | rfl <;> decide

theorem EndsLine.isLineEnd {b : UInt8} (h : EndsLine b) : IsLineEnd (asciiChar b) := by
  rcases h with rfl | rfl
  · exact Or.inl rfl
  · exact Or.inr rfl

/-- A line of a file: line ends or nothing stand around it, none in it. Between the two bytes of a
pair there is no line. -/
structure StandsAsLine (before line behind : List UInt8) : Prop where
  starts : ∀ b ∈ before.getLast?, EndsLine b
  ends : ∀ b ∈ behind.head?, EndsLine b
  within : ∀ b ∈ line, ¬ EndsLine b
  apart : line = [] → before.getLast? = some 0x0D → behind.head? ≠ some 0x0A

namespace StandsAsLine

variable {before line behind : List UInt8}

section

variable (h : StandsAsLine before line behind)
include h

theorem last_lt : ∀ b ∈ before.getLast?, b < 0x80 := fun b hb => (h.starts b hb).lt

theorem head_lt : ∀ b ∈ behind.head?, b < 0x80 := fun b hb => (h.ends b hb).lt

theorem atLineStart : AtLineStart (universalNewlines false (decodeLossy before).toList) := by
  apply atLineStart_universalNewlines
  intro c hc
  rw [getLast?_decodeLossy h.last_lt] at hc
  obtain ⟨b, hb, rfl⟩ := Option.map_eq_some_iff.mp hc
  exact (h.starts b hb).isLineEnd

theorem atLineEnd : AtLineEnd (universalNewlines false (decodeLossy behind).toList) := by
  apply atLineEnd_universalNewlines
  intro c hc
  rw [head?_decodeLossy h.head_lt] at hc
  obtain ⟨b, hb, rfl⟩ := Option.map_eq_some_iff.mp hc
  exact (h.ends b hb).isLineEnd

end

/-! ## Their text -/

section

variable (h : StandsAsLine before line behind) (hascii : AsciiOnly line)
include h hascii

theorem decodeLossy_eq : decodeLossy (before ++ line ++ behind) =
    decodeLossy before ++ ascii line ++ decodeLossy behind := by
  rw [List.append_assoc, decodeLossy_append h.last_lt, decodeLossy_append hascii.getLast,
    hascii.decodeLossy_eq, String.append_assoc]

theorem not_isLineEnd : ∀ c ∈ (ascii line).toList, ¬ IsLineEnd c := by
  unfold ascii
  rw [String.toList_ofList, List.forall_mem_map]
  rintro b hb (hfeed | hreturn)
  · exact h.within b hb (Or.inl (asciiChar_inj (hascii b hb) (by decide) hfeed))
  · exact h.within b hb (Or.inr (asciiChar_inj (hascii b hb) (by decide) hreturn))

theorem returnFree : ReturnFree (ascii line).toList :=
  fun hmem => h.not_isLineEnd hascii _ hmem (Or.inr rfl)

theorem feedFree : '\n' ∉ (ascii line).toList :=
  fun hmem => h.not_isLineEnd hascii _ hmem (Or.inl rfl)

/-- No pair is cut where the line starts: it does not begin with a line feed, and if it is empty
neither does what is behind it. -/
theorem no_pair_before (hlast : (decodeLossy before).toList.getLast? = some '\r') :
    ((ascii line).toList ++ (decodeLossy behind).toList).head? ≠ some '\n' := by
  intro hnext
  rw [getLast?_decodeLossy h.last_lt, Option.map_eq_some_iff] at hlast
  obtain ⟨b, hb, hreturn⟩ := hlast
  obtain rfl : b = 0x0D := asciiChar_inj (h.last_lt b hb) (by decide) hreturn
  by_cases hempty : line = []
  · subst hempty
    have hbehind : (decodeLossy behind).toList.head? = some '\n' := hnext
    rw [head?_decodeLossy h.head_lt, Option.map_eq_some_iff] at hbehind
    obtain ⟨c, hc, hfeed⟩ := hbehind
    obtain rfl : c = 0x0A := asciiChar_inj (h.head_lt c hc) (by decide) hfeed
    exact h.apart rfl hb hc
  · have hne : (ascii line).toList ≠ [] := by simpa [ascii] using hempty
    rw [List.head?_append_of_ne_nil _ hne] at hnext
    exact h.feedFree hascii (List.mem_of_head? hnext)

/-- Line ends are made uniform on both sides of a line and nowhere in it. -/
theorem universalNewlines_eq :
    universalNewlines false (decodeLossy (before ++ line ++ behind)).toList =
      universalNewlines false (decodeLossy before).toList ++ (ascii line).toList ++
        universalNewlines false (decodeLossy behind).toList := by
  have hfree := h.returnFree hascii
  have hbehind : (ascii line).toList.getLast? = some '\r' →
      (decodeLossy behind).toList.head? ≠ some '\n' :=
    fun hlast => absurd (List.mem_of_getLast? hlast) hfree
  rw [h.decodeLossy_eq hascii, String.toList_append, String.toList_append, List.append_assoc,
    universalNewlines_append (h.no_pair_before hascii), universalNewlines_append hbehind,
    universalNewlines_of_returnFree hfree, List.append_assoc]

end

end StandsAsLine

/-! ## What an audit sees of a line -/

/-- An ASCII line of a file in what is looked at of the file: it stands there as it is, as a line,
and what is evidence in it is evidence in the file. -/
structure SourceFile.ShowsLine (f : SourceFile) (before line behind : List UInt8) : Prop where
  text : f.text = withUniformLineEnds (decodeLossy before) ++ ascii line ++
    withUniformLineEnds (decodeLossy behind)
  block : IsLineBlock (ascii line).toList f.text.toList
  shown : line ≠ [] → (ascii line).toList ∈ lines f.text.toList
  evidence : ∀ ps, Evidence.anyFound ps (ascii line) = true → Evidence.anyFound ps f.text = true

/-- **An ASCII line is shown as it is.** -/
theorem StandsAsLine.shows {before line behind : List UInt8} {f : SourceFile}
    (h : StandsAsLine before line behind) (hascii : AsciiOnly line)
    (hf : f.text = withUniformLineEnds (decodeLossy (before ++ line ++ behind))) :
    f.ShowsLine before line behind := by
  have huniform := h.universalNewlines_eq hascii
  have hblock : IsLineBlock (ascii line).toList f.text.toList := by
    rw [hf, withUniformLineEnds_eq, String.toList_ofList, huniform]
    exact ⟨_, _, rfl, h.atLineStart, h.atLineEnd⟩
  constructor
  case text =>
    rw [hf, withUniformLineEnds_eq, huniform, String.ofList_append, String.ofList_append,
      String.ofList_toList, ← withUniformLineEnds_eq, ← withUniformLineEnds_eq]
  case block => exact hblock
  case shown =>
    intro hne
    have hfree : ReturnFree f.text.toList := by
      rw [hf]
      exact returnFree_withUniformLineEnds _
    rw [lines_of_returnFree hfree]
    exact mem_rawLines_of_isLineBlock hblock (h.feedFree hascii) (by simpa [ascii] using hne)
  case evidence => exact fun ps hfound => Evidence.anyFound_of_isLineBlock hfound hblock

/-! ## Files -/

/-- How a file of these bytes is read, and what an audit of it looks at. -/
structure FileSystem.ReadsFile (fs : FileSystem) (p : FilePath) (bytes : List UInt8) : Prop where
  readable : fs.sources.readable p = true
  read : fs.sources.read p = .ok (decodeLossy bytes)
  ascii : ∀ before s behind, bytes = before ++ s ++ behind → AsciiOnly s → s ≠ [] →
    fs.sources.read p = .ok (decodeLossy before ++ ascii s ++ decodeLossy behind)
  utf8 : ∀ text : String, bytes = text.toUTF8.data.toList → fs.sources.read p = .ok text
  line : ∀ (a : Audit) (n : NodeRecord) (loc : String), a.sources = fs.sources →
    n.loc = some loc → (a.resolve loc).path = p → ∃ f, a.source n = .ok f ∧
      ∀ before line behind, bytes = before ++ line ++ behind → StandsAsLine before line behind →
        AsciiOnly line → f.ShowsLine before line behind

/-- **Bytes that are no text hide no ASCII.** -/
theorem bytes_hide_no_ascii {fs : FileSystem} {p : FilePath} {bytes : List UInt8}
    (h : fs.find p = .ok (.file bytes)) : fs.ReadsFile p bytes := by
  have hbytes : fs.readBytes p = .ok bytes := by
    unfold FileSystem.readBytes
    rw [h]
    rfl
  have hread : fs.sources.read p = .ok (decodeLossy bytes) := by
    unfold FileSystem.sources
    dsimp only
    rw [hbytes]
  constructor
  case readable =>
    rw [FileSystem.readable_sources_iff, hread]
    rfl
  case read => exact hread
  case ascii =>
    rintro before s behind rfl hs hne
    rw [hread, decodeLossy_append_ascii before hs hne]
  case utf8 =>
    rintro text rfl
    rw [hread, decodeLossy_toUTF8]
  case line =>
    rintro a n loc hsources hloc rfl
    rw [← hsources] at hread
    refine ⟨_, Audit.source_eq_ok_iff.mpr ⟨loc, _, hloc, hread, rfl⟩, ?_⟩
    rintro before line behind rfl hline hascii
    exact hline.shows hascii rfl

/-- What stands in front of the statement in `latinFile`: a comment in another encoding. -/
def latinComment : List UInt8 := [0x2D, 0x2D, 0x20, 0x63, 0x61, 0x66, 0xE9, 0x0D, 0x0A]

/-- A file in which a byte of another encoding and a character cut short stand at line ends. -/
def latinFile : List UInt8 :=
  latinComment ++ "CREATE TABLE legacy (".toUTF8.data.toList ++ [0x0D, 0x0A, 0xF0, 0x9F]

/-- An audit of the table in that file. -/
def latinAudit : Audit where
  sources := FileSystem.sources ⟨.directory [("old.sql", .file latinFile)], ⟨"/"⟩⟩
  document := { nodes := .ofList [("table:legacy", { loc := some "old.sql" })] }
  root := ⟨""⟩

/-- Neither hides the statement between them. -/
theorem statement_between_strange_bytes :
    latinAudit.sources.read ⟨"old.sql"⟩ =
        .ok "-- caf\ufffd\r\nCREATE TABLE legacy (\r\n\ufffd" ∧
      ∃ f, latinAudit.source { loc := some "old.sql" } = .ok f ∧
        Evidence.anyFound (Evidence.tablePatterns "legacy") f.text = true := by
  have hfile : FileSystem.find ⟨.directory [("old.sql", .file latinFile)], ⟨"/"⟩⟩ ⟨"old.sql"⟩ =
      .ok (.file latinFile) := rfl
  have hread := bytes_hide_no_ascii hfile
  obtain ⟨f, hf, hlines⟩ := hread.line latinAudit { loc := some "old.sql" } "old.sql" rfl rfl
    (by decide +kernel)
  have hstands : StandsAsLine latinComment "CREATE TABLE legacy (".toUTF8.data.toList
      [0x0D, 0x0A, 0xF0, 0x9F] := by
    constructor
    case starts => decide +kernel
    case ends => decide +kernel
    case within => decide +kernel
    case apart => exact fun hempty => absurd hempty (by decide +kernel)
  have hascii : AsciiOnly "CREATE TABLE legacy (".toUTF8.data.toList := by
    unfold AsciiOnly
    decide +kernel
  have hshown := hlines _ _ _ rfl hstands hascii
  refine ⟨?_, f, hf, hshown.evidence _ (by decide +kernel)⟩
  exact hread.read.trans (by decide +kernel)

end ContractAudit
