import ContractAudit.Proofs.Decoding.FromJson
import ContractAudit.Report.Json
import Mathlib.Algebra.GroupWithZero.Nat

/-!
# Reading reports back

A report whose numbers fit 64 bits is read back from its JSON text (`Report.ofJson_jsonText`): the
two fields added for a reader of the text name no field of a report and are passed over, and what is
optional is left out exactly when it is absent.
-/

namespace ContractAudit

open Json (required ofFields ofNat)
open Decoding.FromJson

/-- A number of 64 bits without a sign. -/
abbrev FitsWord (n : Nat) : Prop := n < 2 ^ 64

theorem Json.isExact_ofNat {n : Nat} (h : FitsWord n) : (ofNat n).isExact = true := by
  have hword : IsWord (n : Int) := by
    unfold FitsWord at h
    have hmin : -(Int.pow 2 63) ≤ 0 := by decide
    have hmax : Int.pow 2 64 = 2 ^ 64 := rfl
    refine ⟨by omega, by omega⟩
  simpa [ofNat, Json.isExact] using hword

/-! ## Records -/

theorem restores_phase (p : Phase) : Restores Phase.read p (.string p.text) := by
  intro held
  cases p <;> rfl

theorem restores_status (s : Status) : Restores Status.read s (.string s.text) := by
  intro held
  cases s <;> rfl

theorem restores_optionalText (s : String) : Restores (orNull text) (some s) (.string s) :=
  restores_orNull (restores_text s) (by simp [Json.canonical])

theorem restores_optionalNatural (expected : String) (n : Nat) :
    Restores (orNull (natural expected)) (some n) (ofNat n) :=
  restores_orNull (restores_natural expected n) (by simp [ofNat, Json.canonical])

namespace CheckRecord

/-- The line is a number of 64 bits. -/
def Fits (r : CheckRecord) : Prop := ∀ n ∈ r.line, FitsWord n

/-- The fields as they are written, in ascending order. -/
def sortedFields (r : CheckRecord) : List (Option (String × Json)) := [
  required "check" (.string r.check),
  Json.optional "file" (r.file.map .string),
  Json.optional "line" (r.line.map ofNat),
  required "message" (.string r.message),
  required "phase" (.string r.phase.text),
  required "status" (.string r.status.text),
  required "subject" (.string r.subject)]

theorem canonical_toJson (r : CheckRecord) :
    r.toJson.canonical = .object (canonicalEntries r.sortedFields) := by
  obtain ⟨phase, subject, check, status, message, file, line⟩ := r
  cases file <;> cases line <;>
    simp only [toJson, sortedFields, canonicalEntries, ofFields, required, Json.optional, Json.canonical,
      Json.canonicalFields, Json.sortFields, Json.insertField, List.filterMap_cons, List.filterMap_nil,
      List.foldl_cons, List.foldl_nil, Option.map_some, Option.map_none, id_eq, String.reduceEq,
      String.reduceLT, ↓reduceIte]

theorem restores (r : CheckRecord) : Restores CheckRecord.read r r.toJson := by
  refine restores_record r.canonical_toJson (fun held => ?_) ?_
  · refine leads_needs rfl (restores_text _) ?_
    refine leads_may rfl rfl restores_optionalText ?_
    refine leads_may rfl rfl (restores_optionalNatural _) ?_
    refine leads_needs rfl (restores_text _) ?_
    refine leads_needs rfl (restores_phase _) ?_
    refine leads_needs rfl (restores_status _) ?_
    refine leads_needs rfl (restores_text _) ?_
    exact leads_nil
  · simp [Complete, sortedFields, RecordField.needs, RecordField.may, required, exists_or]

theorem isExact_toJson {r : CheckRecord} (h : r.Fits) : r.toJson.isExact = true := by
  have hline : ∀ n ∈ r.line, (ofNat n).isExact = true := fun n hn => Json.isExact_ofNat (h n hn)
  refine Json.isExact_ofFields ?_
  simp only [List.forall_mem_cons, Json.forall_mem_required, Json.forall_mem_optional]
  simpa [Json.isExact] using hline

end CheckRecord

namespace Summary

/-- The counts are numbers of 64 bits. -/
def Fits (s : Summary) : Prop :=
  FitsWord s.pass ∧ FitsWord s.fail ∧ FitsWord s.warn ∧ FitsWord s.total

/-- The fields as they are written, in ascending order. -/
def sortedFields (s : Summary) : List (Option (String × Json)) := [
  required "fail" (ofNat s.fail),
  required "pass" (ofNat s.pass),
  required "total" (ofNat s.total),
  required "warn" (ofNat s.warn)]

theorem canonical_toJson (s : Summary) :
    s.toJson.canonical = .object (canonicalEntries s.sortedFields) := by
  simp only [toJson, sortedFields, canonicalEntries, required, Json.canonical, Json.canonicalFields,
    Json.sortFields, Json.insertField, List.filterMap_cons, List.filterMap_nil, List.foldl_cons,
    List.foldl_nil, id_eq, String.reduceEq, String.reduceLT, ↓reduceIte]

theorem restores (s : Summary) : Restores Summary.read s s.toJson := by
  refine restores_record s.canonical_toJson (fun held => ?_) ?_
  · refine leads_needs rfl (restores_natural _ _) ?_
    refine leads_needs rfl (restores_natural _ _) ?_
    refine leads_needs rfl (restores_natural _ _) ?_
    refine leads_needs rfl (restores_natural _ _) ?_
    exact leads_nil
  · simp [Complete, sortedFields, RecordField.needs, required]

theorem isExact_toJson {s : Summary} (h : s.Fits) : s.toJson.isExact = true := by
  obtain ⟨hpass, hfail, hwarn, htotal⟩ := h
  simp only [toJson, Json.isExact, Json.haveExact, Json.isExact_ofNat hpass,
    Json.isExact_ofNat hfail, Json.isExact_ofNat hwarn, Json.isExact_ofNat htotal, Bool.and_self]

end Summary

namespace Report

/-- Counts and lines are numbers of 64 bits. -/
structure Fits (r : Report) : Prop where
  records : ∀ record ∈ r.records, record.Fits
  summary : r.summary.Fits

/-- The fields that are shown, in ascending order. -/
def sortedFields (r : Report) : List (Option (String × Json)) := [
  required "exit_code" (ofNat r.exitCode),
  required "name" (.string r.name),
  required "records" (.array (r.records.map CheckRecord.toJson)),
  required "schema_version" (ofNat schemaVersion),
  required "summary" r.summary.toJson,
  required "version" (.string r.version)]

theorem canonical_rendered (r : Report) :
    r.rendered.canonical = .object (canonicalEntries r.sortedFields) := by
  simp only [rendered, sortedFields, canonicalEntries, required, Json.canonical, Json.canonicalFields,
    Json.sortFields, Json.insertField, List.filterMap_cons, List.filterMap_nil, List.foldl_cons,
    List.foldl_nil, id_eq, String.reduceEq, String.reduceLT, ↓reduceIte]

theorem restores (r : Report) : Restores Report.read r r.rendered := by
  refine restores_record r.canonical_rendered (fun held => ?_) ?_
  · refine leads_unknown rfl ?_
    refine leads_needs rfl (restores_text _) ?_
    refine leads_needs rfl (restores_items fun record _ => record.restores) ?_
    refine leads_unknown rfl ?_
    refine leads_needs rfl r.summary.restores ?_
    refine leads_needs rfl (restores_text _) ?_
    exact leads_nil
  · simp [Complete, sortedFields, RecordField.needs, required]

theorem isExact_rendered {r : Report} (h : r.Fits) : r.rendered.isExact = true := by
  have hversion : FitsWord schemaVersion := by decide
  have hcode : FitsWord r.exitCode := by
    unfold exitCode
    split <;> decide
  have hrecords : Json.areExact (r.records.map CheckRecord.toJson) = true :=
    Json.areExact_map fun record hrecord => CheckRecord.isExact_toJson (h.records record hrecord)
  simp only [rendered, Json.isExact, Json.haveExact, Json.isExact_ofNat hversion,
    Json.isExact_ofNat hcode, hrecords, Summary.isExact_toJson h.summary, Bool.and_self]

/-- **A report is read back from its text.** -/
theorem ofJson_jsonText {r : Report} (h : r.Fits) :
    (Json.ofText? r.jsonText).map Report.ofJson = some (.ok r) := by
  rw [jsonText, Json.ofText?_pretty_canonical (isExact_rendered h), Option.map_some, Report.ofJson,
    decode_canonical r.restores]

end Report

end ContractAudit
