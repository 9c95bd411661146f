import ContractAudit.Decoding.Mismatch
import ContractAudit.Json.Basic

/-!
# Decoding JSON values

Records are read off JSON values either as objects, whose fields are visited in ascending order of
their names, or as arrays with one item a field. A tagged record carries the name of its variant in
one of its fields, so the others are held until the tag is known and are then read from what was
held. Held values are read as any other, but for two things: a tag may then be a variant's number,
and an array that is too long is reported differently.
-/

namespace ContractAudit.Decoding.FromJson

/-- Reads a value, which may be held. -/
abbrev Reader (α : Type) := Bool → Json → Except Mismatch α

/-- What a value is called when it is not wanted. -/
def found : Json → Found
  | .null => .unit
  | .bool b => .bool b
  | .number (.int n) => .int n
  | .number (.float x) => .float x
  | .string s => .text s
  | .array _ => .sequence
  | .object _ => .map

/-- A value of the wrong type. -/
def refuse {α : Type} (j : Json) (expected : String) : Except Mismatch α :=
  .error (.invalidType (found j) expected)

/-! ## Plain values -/

def text : Reader String
  | _, .string s => .ok s
  | _, j => refuse j "a string"

def truth : Reader Bool
  | _, .bool b => .ok b
  | _, j => refuse j "a boolean"

def natural (expected : String) : Reader Nat
  | _, .number (.int n) => if n < 0 then .error (.invalidValue (.int n) expected) else .ok n.toNat
  | _, j => refuse j expected

def orNull {α : Type} (read : Reader α) : Reader (Option α)
  | _, .null => .ok none
  | held, j => (read held j).map some

def items {α : Type} (read : Reader α) : Reader (List α)
  | held, .array l => l.mapM (read held)
  | _, j => refuse j "a sequence"

/-- One of a few words: the word itself, or an object with it as the only name and null under it. -/
def word {α : Type} (known : List (String × α)) : Reader α
  | _, .string s => pick s
  | _, .object [(name, value)] => do
    let a ← pick name
    if value = .null then pure a else refuse value "unit"
  | _, .object _ => .error (.invalidValue .map "map with a single key")
  | _, j => refuse j "string or map"
where
  pick (s : String) : Except Mismatch α :=
    match known.lookup s with
    | some a => .ok a
    | none => .error (.unknownVariant s (known.map Prod.fst))

/-! ## Records -/

/-- A field of a record: its name, whether it must be there, and how its value goes into the
record. -/
structure RecordField (δ : Type) where
  name : String
  needed : Bool
  read : Bool → Json → δ → Except Mismatch δ

/-- A field that must be there. -/
def RecordField.needs {δ α : Type} (name : String) (read : Reader α) (set : δ → α → δ) : RecordField δ :=
  { name, needed := true, read := fun held j d => (read held j).map (set d) }

/-- A field that may be left out. -/
def RecordField.may {δ α : Type} (name : String) (read : Reader α) (set : δ → α → δ) : RecordField δ :=
  { RecordField.needs name read set with needed := false }

def elements (n : Nat) : String := toString n ++ if n = 1 then " element" else " elements"

/-- One entry of an object; a name that is no field is passed over. -/
def readEntry {δ : Type} (fields : List (RecordField δ)) (held : Bool) (d : δ) (entry : String × Json) :
    Except Mismatch δ :=
  match fields.find? (·.name == entry.1) with
  | some field => field.read held entry.2 d
  | none => .ok d

/-- A record from the entries of an object. -/
def ofEntries {δ : Type} (fields : List (RecordField δ)) (start : δ) (held : Bool)
    (entries : List (String × Json)) : Except Mismatch δ := do
  let d ← entries.foldlM (readEntry fields held) start
  match fields.find? fun f => f.needed && (entries.lookup f.name).isNone with
  | some field => .error (.missingField field.name)
  | none => .ok d

/-- A record from the items of an array, and the items left over. `at` counts the fields before. -/
def ofItems {δ : Type} (what : String) (total : Nat) (held : Bool) :
    Nat → List (RecordField δ) → δ → List Json → Except Mismatch (δ × List Json)
  | _, [], d, rest => .ok (d, rest)
  | index, field :: fields, d, [] =>
    if field.needed then .error (.invalidLength index (what ++ " with " ++ elements total))
    else ofItems what total held (index + 1) fields d []
  | index, field :: fields, d, j :: rest => do
    let d ← field.read held j d
    ofItems what total held (index + 1) fields d rest

/-- A record of the given fields. -/
def record {δ : Type} (what : String) (fields : List (RecordField δ)) (start : δ) : Reader δ
  | held, .object entries => ofEntries fields start held entries
  | held, .array l => do
    let (d, rest) ← ofItems what fields.length held 0 fields start l
    if rest.isEmpty then pure d
    else .error (.invalidLength l.length
      (if held then elements (l.length - rest.length) ++ " in sequence"
       else "fewer elements in array"))
  | _, j => refuse j what

/-! ## Tagged records -/

/-- The reader of the variant that a tag names. -/
def variant {α : Type} (variants : List (String × Reader α)) : Reader (Reader α)
  | held, j =>
    match j with
    | .string s =>
      match variants.lookup s with
      | some read => .ok read
      | none => .error (.unknownVariant s (variants.map Prod.fst))
    | .number (.int n) =>
      if held && 0 ≤ n then
        match variants[n.toNat]? with
        | some (_, read) => .ok read
        | none =>
          .error (.invalidValue (.int n) ("variant index 0 <= i < " ++ toString variants.length))
      else refuse j "variant identifier"
    | _ => refuse j "variant identifier"

/-- A record of one of several variants, the tag under the given name or in front. -/
def tagged {α : Type} (typeName tag : String) (variants : List (String × Reader α)) : Reader α
  | held, .object entries =>
    match entries.lookup tag with
    | some name => do (← variant variants held name) true (.object (entries.filter (·.1 != tag)))
    | none => .error (.missingField tag)
  | _, .array [] => .error (.missingField tag)
  | held, .array (name :: rest) => do (← variant variants held name) true (.array rest)
  | _, j => refuse j ("internally tagged enum " ++ typeName)

/-- Reads a value whose fields may stand in any order. -/
def decode {α : Type} (read : Reader α) (j : Json) : Except Mismatch α := read false j.canonical

end ContractAudit.Decoding.FromJson
