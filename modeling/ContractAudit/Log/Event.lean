import ContractAudit.Json.Basic

/-!
# Log events

An event has a level, the part of the program it comes from, a message and fields. Fields are texts
or counts; as JSON the message is one field more.
-/

namespace ContractAudit.Log

/-- How much an event matters, the gravest first. -/
inductive Level where
  | error
  | warn
  | info
  | debug
  | trace
  deriving DecidableEq, Repr

namespace Level

/-- The number of a level; a filter lets through what is not above its own. -/
def rank : Level → Nat
  | .error => 1
  | .warn => 2
  | .info => 3
  | .debug => 4
  | .trace => 5

def text : Level → String
  | .error => "ERROR"
  | .warn => "WARN"
  | .info => "INFO"
  | .debug => "DEBUG"
  | .trace => "TRACE"

def all : List Level := [.error, .warn, .info, .debug, .trace]

end Level

/-- The part of the program an event comes from. -/
inductive Origin where
  | audit
  | loading
  | impact
  | command
  deriving DecidableEq, Repr

/-- The name by which filters select an origin. -/
def Origin.target : Origin → String
  | .audit => "contractmap_core::verify"
  | .loading => "contractmap_core::loader"
  | .impact => "contractmap_core::impact"
  | .command => "contractmap::commands"

inductive FieldValue where
  | text (s : String)
  | count (n : Nat)
  deriving DecidableEq, Repr

def FieldValue.shown : FieldValue → String
  | .text s => s
  | .count n => toString n

def FieldValue.toJson : FieldValue → Json
  | .text s => .string s
  | .count n => .ofNat n

structure Event where
  level : Level
  origin : Origin
  message : String
  fields : List (String × FieldValue)
  deriving DecidableEq, Repr

namespace Event

/-- All fields, the message first. -/
def allFields (e : Event) : List (String × FieldValue) := ("message", .text e.message) :: e.fields

/-- An event as JSON, its fields written by `value`. -/
def toJson (value : FieldValue → Json) (e : Event) : Json :=
  .object [("level", .string e.level.text),
    ("fields", .object (e.allFields.map fun (name, v) => (name, value v)))]

end Event

end ContractAudit.Log
