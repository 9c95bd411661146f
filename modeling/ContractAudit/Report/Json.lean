import ContractAudit.Decoding.FromJson
import ContractAudit.Json.Printer
import ContractAudit.Report.Basic

/-!
# Reports as JSON

Records and reports are written with their fields in a fixed order and read back from any order. The
text of a report adds the version of this schema and the exit code, which reading passes over.
-/

namespace ContractAudit

open Json (required optional ofFields ofNat)
open Decoding (Mismatch)
open Decoding.FromJson

/-! ## Writing -/

def CheckRecord.toJson (r : CheckRecord) : Json :=
  ofFields [
    required "phase" (.string r.phase.text),
    required "subject" (.string r.subject),
    required "check" (.string r.check),
    required "status" (.string r.status.text),
    required "message" (.string r.message),
    optional "file" (r.file.map .string),
    optional "line" (r.line.map ofNat)]

def Summary.toJson (s : Summary) : Json :=
  .object [("pass", ofNat s.pass), ("fail", ofNat s.fail), ("warn", ofNat s.warn),
    ("total", ofNat s.total)]

def schemaVersion : Nat := 1

namespace Report

def toJson (r : Report) : Json :=
  .object [("name", .string r.name), ("version", .string r.version),
    ("records", .array (r.records.map CheckRecord.toJson)), ("summary", r.summary.toJson)]

/-- A report as the value that is shown. -/
def rendered (r : Report) : Json :=
  .object [
    ("schema_version", ofNat schemaVersion),
    ("name", .string r.name),
    ("version", .string r.version),
    ("summary", r.summary.toJson),
    ("exit_code", ofNat r.exitCode),
    ("records", .array (r.records.map CheckRecord.toJson))]

def jsonText (r : Report) : String := r.rendered.canonical.pretty

end Report

/-! ## Reading -/

def Phase.read : Reader Phase := word (Phase.all.map fun p => (p.text, p))

def Status.read : Reader Status := word ([.pass, .fail, .warn].map fun s => (s.text, s))

def CheckRecord.read : Reader CheckRecord :=
  record "struct CheckRecord" [
    .needs "phase" Phase.read fun r phase => { r with phase },
    .needs "subject" text fun r subject => { r with subject },
    .needs "check" text fun r check => { r with check },
    .needs "status" Status.read fun r status => { r with status },
    .needs "message" text fun r message => { r with message },
    .may "file" (orNull text) fun r file => { r with file },
    .may "line" (orNull (natural "usize")) fun r line => { r with line }]
    { phase := .nodes, subject := "", check := "", status := .pass, message := "" }

def Summary.read : Reader Summary :=
  record "struct RunSummary" [
    .needs "pass" (natural "u64") fun s pass => { s with pass },
    .needs "fail" (natural "u64") fun s fail => { s with fail },
    .needs "warn" (natural "u64") fun s warn => { s with warn },
    .needs "total" (natural "u64") fun s total => { s with total }] {}

def Report.read : Reader Report :=
  record "struct VerifyReport" [
    .needs "name" text fun r name => { r with name },
    .needs "version" text fun r version => { r with version },
    .needs "records" (items CheckRecord.read) fun r records => { r with records },
    .needs "summary" Summary.read fun r summary => { r with summary }]
    { name := "", version := "", records := [], summary := {} }

def Report.ofJson (j : Json) : Except Mismatch Report := decode Report.read j

def CheckRecord.listOfJson (j : Json) : Except Mismatch (List CheckRecord) :=
  decode (items CheckRecord.read) j

end ContractAudit
