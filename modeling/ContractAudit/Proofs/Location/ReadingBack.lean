import ContractAudit.Location
import ContractAudit.Proofs.Report.ReadingBack

/-!
# Locations are read back

A location is read from its last colon: digits behind it are a line, and everything else is a path
(`Location.MeantBy`). The reader keeps to that for every text (`Location.ofString_eq_iff`), and what
a record shows as its location means the file and the line of the record again, as long as no blank
in front of the file can be trimmed away and a file without a line does not end like one with a line
(`locations_are_read_back`).
-/

namespace ContractAudit

namespace Text

/-- No digit is a blank: none of their codes is in a range of blanks. -/
theorem isBlank_eq_false_of_isDigit {c : Char} (h : c.isDigit = true) : isBlank c = false := by
  have hrange : 48 ≤ c.toNat ∧ c.toNat ≤ 57 := by
    simpa [Char.isDigit, UInt32.le_iff_toNat_le] using h
  have hnone : ∀ k : Fin 10, inRanges blankRanges (48 + k) = false := by decide
  have hcode : 48 + (c.toNat - 48) = c.toNat := by omega
  have hblank := hnone ⟨c.toNat - 48, by omega⟩
  rwa [hcode] at hblank

end Text

/-! ## What a text means -/

/-- Decimal digits, at least one, and the number they write. -/
structure IsNumeral (s : String) (n : Nat) : Prop where
  nonempty : s ≠ ""
  digits : ∀ c ∈ s.toList, c.isDigit = true
  value : Nat.ofDigitChars 10 s.toList 0 = n

theorem isNumeral_toString (n : Nat) : IsNumeral (toString n) n where
  nonempty := by
    intro h
    exact Nat.toDigits_ne_nil (Nat.toList_repr ▸ congrArg String.toList h)
  digits := by
    intro c hc
    rw [Nat.toString_eq_repr, Nat.toList_repr] at hc
    exact Decimal.isDigit_of_mem_toDigits hc
  value := by
    rw [Nat.toString_eq_repr, Nat.toList_repr, Nat.ofDigitChars_ten_toDigits]

theorem IsNumeral.colon_notMem {digits : String} {n : Nat} (h : IsNumeral digits n) :
    ':' ∉ digits.toList := by
  intro hmem
  exact absurd (h.digits ':' hmem) (by decide)

namespace Location

/-- A path, a colon and digits. -/
def EndsInDigits (s : String) : Prop := ∃ path digits n, s = path ++ ":" ++ digits ∧ IsNumeral digits n

/-- What a trimmed text means as a location. Lines count from one and fit 64 bits, and digits that
write no such line are dropped with their colon. -/
inductive MeantBy (trimmed : String) : Location → Prop
  | line {path digits : String} {n : Nat} (cut : trimmed = path ++ ":" ++ digits)
      (numeral : IsNumeral digits n) (positive : 0 < n) (fits : FitsWord n) :
      MeantBy trimmed ⟨path, some n⟩
  | noLine {path digits : String} {n : Nat} (cut : trimmed = path ++ ":" ++ digits)
      (numeral : IsNumeral digits n) (outside : n = 0 ∨ 2 ^ 64 ≤ n) : MeantBy trimmed ⟨path, none⟩
  | path (plain : ∀ front tail, trimmed = front ++ ":" ++ tail → ':' ∉ tail.toList →
      tail = "" ∨ ∃ c ∈ tail.toList, c.isDigit = false) : MeantBy trimmed ⟨trimmed, none⟩

theorem toList_colon (path digits : String) :
    (path ++ ":" ++ digits).toList = path.toList ++ ':' :: digits.toList := by
  simp

/-- What stands behind the last colon decides whether a text ends in a colon and digits. -/
theorem not_endsInDigits_iff {s : String} : ¬ EndsInDigits s ↔
    ∀ front tail, s = front ++ ":" ++ tail → ':' ∉ tail.toList →
      tail = "" ∨ ∃ c ∈ tail.toList, c.isDigit = false := by
  constructor
  · intro h front tail hcut _
    by_contra hnone
    rw [not_or] at hnone
    refine h ⟨front, tail, _, hcut, hnone.1, ?_, rfl⟩
    intro c hc
    by_contra hdigit
    exact hnone.2 ⟨c, hc, by simpa using hdigit⟩
  · rintro h ⟨path, digits, n, hcut, hn⟩
    rcases h path digits hcut hn.colon_notMem with hnil | ⟨c, hc, hdigit⟩
    · exact hn.nonempty hnil
    · rw [hn.digits c hc] at hdigit
      cases hdigit

theorem isDigits_iff {s : List Char} :
    isDigits s = true ↔ s ≠ [] ∧ ∀ c ∈ s, c.isDigit = true := by
  simp [isDigits]

theorem lineOfDigits_eq (s : List Char) : lineOfDigits s =
    if 0 < Nat.ofDigitChars 10 s 0 ∧ FitsWord (Nat.ofDigitChars 10 s 0) then
      some (Nat.ofDigitChars 10 s 0) else none := rfl

theorem ofString_of_digits {raw path digits : String} {n : Nat}
    (hcut : Text.trim raw = path ++ ":" ++ digits) (hn : IsNumeral digits n) :
    ofString raw = ⟨path, if 0 < n ∧ FitsWord n then some n else none⟩ := by
  have htrim : Text.trimBoth raw.toList = path.toList ++ ':' :: digits.toList := by
    rw [← toList_colon, ← hcut, Text.trim, String.toList_ofList]
  have hlast : Text.cutLast (· == ':') (path.toList ++ ':' :: digits.toList) =
      some (path.toList, digits.toList) := by
    refine Text.cutLast_append rfl (fun c hc => ?_) _
    rw [beq_eq_false_iff_ne]
    rintro rfl
    exact hn.colon_notMem hc
  have hdigits : isDigits digits.toList = true :=
    isDigits_iff.mpr ⟨by simpa using hn.nonempty, hn.digits⟩
  unfold ofString
  simp only [htrim, hlast, hdigits, if_true, String.ofList_toList, lineOfDigits_eq, hn.value]

theorem ofString_of_no_digits {raw : String} (h : ¬ EndsInDigits (Text.trim raw)) :
    ofString raw = ⟨Text.trim raw, none⟩ := by
  unfold ofString
  dsimp only
  split
  · rename_i path tail hcut
    obtain ⟨c, hc, -, hsplit⟩ := Text.cutLast_eq_some hcut
    obtain rfl := beq_iff_eq.mp hc
    have hdigits : ¬ isDigits tail = true := by
      intro htail
      obtain ⟨hne, hall⟩ := isDigits_iff.mp htail
      refine h ⟨String.ofList path, String.ofList tail, _, ?_, by simpa using hne, ?_, rfl⟩
      · rw [Text.trim, hsplit]
        simp [String.append_assoc]
      · simpa using hall
    rw [if_neg hdigits]
    rfl
  · rfl

/-- **A text means one location**, and the reader finds it. -/
theorem ofString_eq_iff {raw : String} {l : Location} :
    ofString raw = l ↔ MeantBy (Text.trim raw) l := by
  constructor
  · rintro rfl
    by_cases h : EndsInDigits (Text.trim raw)
    · obtain ⟨path, digits, n, hcut, hn⟩ := h
      rw [ofString_of_digits hcut hn]
      split
      · rename_i hline
        exact .line hcut hn hline.1 hline.2
      · rename_i hline
        refine .noLine hcut hn ?_
        unfold FitsWord at hline
        omega
    · rw [ofString_of_no_digits h]
      exact .path (not_endsInDigits_iff.mp h)
  · intro h
    cases h with
    | line hcut hn hpos hfits => rw [ofString_of_digits hcut hn, if_pos ⟨hpos, hfits⟩]
    | noLine hcut hn houtside =>
        rw [ofString_of_digits hcut hn, if_neg (by unfold FitsWord; omega)]
    | path hplain => exact ofString_of_no_digits (not_endsInDigits_iff.mpr hplain)

/-! ## What a record shows -/

/-- A file and a line are read back from their location. Its end is a digit, so only the front of the
file could lose blanks. -/
theorem ofString_line {file : String} {n : Nat} (hpos : 0 < n) (hfits : FitsWord n)
    (hfile : ∀ c ∈ file.toList.head?, Text.isBlank c = false) :
    ofString (file ++ ":" ++ toString n) = ⟨file, some n⟩ := by
  have hn := isNumeral_toString n
  have hne : (toString n).toList ≠ [] := fun h => hn.nonempty (String.toList_eq_nil_iff.mp h)
  have htrim : Text.trim (file ++ ":" ++ toString n) = file ++ ":" ++ toString n := by
    unfold Text.trim
    rw [Text.trimBoth_of_ends, String.ofList_toList]
    · rw [toList_colon]
      cases hf : file.toList with
      | nil =>
          rintro c ⟨⟩
          decide
      | cons first rest =>
          rw [hf] at hfile
          exact hfile
    · rw [toList_colon, List.append_cons, List.getLast?_append, List.getLast?_eq_some_getLast hne,
        Option.some_or]
      rintro c ⟨⟩
      exact Text.isBlank_eq_false_of_isDigit (hn.digits _ (List.getLast_mem hne))
  rw [ofString_of_digits htrim hn, if_pos ⟨hpos, hfits⟩]

theorem ofString_file {file : String} (htrim : Text.trim file = file)
    (hend : ¬ EndsInDigits file) : ofString file = ⟨file, none⟩ := by
  have hplain : ¬ EndsInDigits (Text.trim file) := by rwa [htrim]
  rw [ofString_of_no_digits hplain, htrim]

end Location

/-- **Locations are read back.** A text is read as the one location it means: behind the last colon
of the trimmed text either stand digits, which are the line if there is such a line and are dropped
if there is none, or the whole text is the path. The other way round, the location that a record
shows is read as its file and its line. -/
theorem locations_are_read_back :
    (∀ raw l, Location.ofString raw = l ↔ Location.MeantBy (Text.trim raw) l) ∧
    ∀ (r : CheckRecord) (file : String), r.file = some file →
      (∀ line, r.line = some line → 0 < line → FitsWord line →
        (∀ c ∈ file.toList.head?, Text.isBlank c = false) →
        r.location.map Location.ofString = some ⟨file, some line⟩) ∧
      (r.line = none → Text.trim file = file → ¬ Location.EndsInDigits file →
        r.location.map Location.ofString = some ⟨file, none⟩) := by
  refine ⟨fun raw l => Location.ofString_eq_iff, fun r file hfile => ⟨?_, ?_⟩⟩
  · intro line hline hpos hfits hhead
    unfold CheckRecord.location
    rw [hfile, hline, Option.map_some, Option.map_some, Location.ofString_line hpos hfits hhead]
  · intro hline htrim hend
    unfold CheckRecord.location
    rw [hfile, hline, Option.map_some, Option.map_some, Location.ofString_file htrim hend]

/-- A file whose name ends in a blank keeps it in front of a line; leading zeros are read over, and
the line zero is none. -/
theorem spaced_file_is_read_back :
    (({ phase := .nodes, subject := "table:t", check := "exists", status := .pass, message := ""
        file := some "db:1/old tables ", line := some 42 } : CheckRecord).location.map
          Location.ofString = some ⟨"db:1/old tables ", some 42⟩) ∧
      Location.ofString " a.sql:007\t" = ⟨"a.sql", some 7⟩ ∧
      Location.ofString "a.sql:00" = ⟨"a.sql", none⟩ := by
  obtain ⟨hmeans, hrecords⟩ := locations_are_read_back
  have hzero : Text.trim "a.sql:00" = "a.sql" ++ ":" ++ "00" := by decide +kernel
  have hseven : Text.trim " a.sql:007\t" = "a.sql" ++ ":" ++ "007" := by decide +kernel
  refine ⟨(hrecords _ _ rfl).1 42 rfl (by decide) (by decide) ?_, ?_, ?_⟩
  · rintro c ⟨⟩
    decide
  · have hnumeral : IsNumeral "007" 7 := ⟨by decide, List.all_eq_true.mp (by decide), by decide⟩
    exact (hmeans _ _).mpr (.line hseven hnumeral (by decide) (by decide))
  · have hnumeral : IsNumeral "00" 0 := ⟨by decide, List.all_eq_true.mp (by decide), by decide⟩
    exact (hmeans _ _).mpr (.noLine hzero hnumeral (.inl rfl))

end ContractAudit
