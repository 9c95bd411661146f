import ContractAudit.Decimal.Shortest
import ContractAudit.Text.Printable
import ContractAudit.Text.Split

/-!
# Mismatches

A mismatch says in which way a value is not what a record wants at its place. The wording is the
same for every source of values but for two words: what an absent value is called, and how a double
is written.
-/

namespace ContractAudit.Decoding

inductive Found where
  | unit
  | bool (b : Bool)
  | int (n : Int)
  | wide (n : Int)
  | float (x : Binary64)
  | text (s : String)
  | sequence
  | map
  | tagged
  deriving DecidableEq, Repr

/-- In which way a value is not what is wanted. -/
inductive Mismatch where
  | invalidType (found : Found) (expected : String)
  | invalidValue (found : Found) (expected : String)
  | invalidLength (length : Nat) (expected : String)
  | duplicateField (name : String)
  | missingField (name : String)
  | unknownVariant (name : String) (known : List String)
  | noVariant (name : String)
  | taggedValue
  | numberOutOfRange
  deriving DecidableEq, Repr

/-- The words that differ between sources of values. -/
structure Wording where
  unit : String
  float : Binary64 → String

def Wording.yaml : Wording := ⟨"unit value", Decimal.positionalWithPoint⟩

def Wording.json : Wording := ⟨"null", Decimal.scientific⟩

/-- What was found, in words. -/
def Found.describe (w : Wording) : Found → String
  | .unit => w.unit
  | .bool b => "boolean `" ++ (if b then "true" else "false") ++ "`"
  | .int n => "integer `" ++ toString n ++ "`"
  | .wide n => "integer `" ++ toString n ++ "` as " ++ (if n < 0 then "i128" else "u128")
  | .float x => "floating point `" ++ w.float x ++ "`"
  | .text s => "string " ++ Text.displayQuoted s
  | .sequence => "sequence"
  | .map => "map"
  | .tagged => "enum"

/-- The known variants, as a message lists them. -/
def listVariants (known : List String) : String :=
  match known.map fun v => "`" ++ v ++ "`" with
  | [] => "there are no variants"
  | [a] => "expected " ++ a
  | [a, b] => "expected " ++ a ++ " or " ++ b
  | l => "expected one of " ++ Text.joinWith ", " l

def Mismatch.message (w : Wording) : Mismatch → String
  | .invalidType found expected =>
    "invalid type: " ++ found.describe w ++ ", expected " ++ expected
  | .invalidValue found expected =>
    "invalid value: " ++ found.describe w ++ ", expected " ++ expected
  | .invalidLength n expected => "invalid length " ++ toString n ++ ", expected " ++ expected
  | .duplicateField name => "duplicate field `" ++ name ++ "`"
  | .missingField name => "missing field `" ++ name ++ "`"
  | .unknownVariant name known => "unknown variant `" ++ name ++ "`, " ++ listVariants known
  | .noVariant name => "data did not match any variant of untagged enum " ++ name
  | .taggedValue => "untagged and internally tagged enums do not support enum input"
  | .numberOutOfRange => "JSON number out of range"

end ContractAudit.Decoding
