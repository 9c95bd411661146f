import ContractAudit.Decimal.Binary64

/-!
# JSON values

An object is a list of fields, so that the order in which a record writes them is data. The
canonical form of a value has the fields of every object in ascending order, one to a name, the
last of several values under a name winning; what is shown to a person or compared is canonical.
-/

namespace ContractAudit

/-- A number is an integer of at most 64 bits or a double. -/
inductive Number where
  | int (n : Int)
  | float (x : Binary64)
  deriving DecidableEq, Repr

inductive Json where
  | null
  | bool (b : Bool)
  | number (n : Number)
  | string (s : String)
  | array (items : List Json)
  | object (fields : List (String × Json))
  deriving Repr, Inhabited

namespace Json

mutual

/-- Equality is decided along the structure. -/
def decEq : (a b : Json) → Decidable (a = b)
  | .null, .null => isTrue rfl
  | .bool a, .bool b => if h : a = b then isTrue (by rw [h]) else isFalse (fun e => h (by injection e))
  | .number a, .number b =>
    if h : a = b then isTrue (by rw [h]) else isFalse (fun e => h (by injection e))
  | .string a, .string b =>
    if h : a = b then isTrue (by rw [h]) else isFalse (fun e => h (by injection e))
  | .array a, .array b =>
    match decEqItems a b with
    | isTrue h => isTrue (by rw [h])
    | isFalse h => isFalse (fun e => h (by injection e))
  | .object a, .object b =>
    match decEqFields a b with
    | isTrue h => isTrue (by rw [h])
    | isFalse h => isFalse (fun e => h (by injection e))
  | .null, .bool _ | .null, .number _ | .null, .string _ | .null, .array _ | .null, .object _
  | .bool _, .null | .bool _, .number _ | .bool _, .string _ | .bool _, .array _ | .bool _, .object _
  | .number _, .null | .number _, .bool _ | .number _, .string _ | .number _, .array _
  | .number _, .object _
  | .string _, .null | .string _, .bool _ | .string _, .number _ | .string _, .array _
  | .string _, .object _
  | .array _, .null | .array _, .bool _ | .array _, .number _ | .array _, .string _
  | .array _, .object _
  | .object _, .null | .object _, .bool _ | .object _, .number _ | .object _, .string _
  | .object _, .array _ => isFalse (fun e => by cases e)

def decEqItems : (a b : List Json) → Decidable (a = b)
  | [], [] => isTrue rfl
  | [], _ :: _ | _ :: _, [] => isFalse (fun e => by cases e)
  | x :: xs, y :: ys =>
    match decEq x y with
    | isFalse h => isFalse (fun e => h (by injection e))
    | isTrue h =>
      match decEqItems xs ys with
      | isTrue hs => isTrue (by rw [h, hs])
      | isFalse hs => isFalse (fun e => hs (by injection e))

def decEqFields : (a b : List (String × Json)) → Decidable (a = b)
  | [], [] => isTrue rfl
  | [], _ :: _ | _ :: _, [] => isFalse (fun e => by cases e)
  | (k, x) :: xs, (l, y) :: ys =>
    if hk : k = l then
      match decEq x y with
      | isFalse h => isFalse (fun e => h (by injection e with e₁; injection e₁))
      | isTrue h =>
        match decEqFields xs ys with
        | isTrue hs => isTrue (by rw [hk, h, hs])
        | isFalse hs => isFalse (fun e => hs (by injection e))
    else isFalse (fun e => hk (by injection e with e₁; injection e₁))

end

instance : DecidableEq Json := decEq

/-- Enters a field into an ascending list of fields, replacing the one of the same name. -/
def insertField (name : String) (value : Json) : List (String × Json) → List (String × Json)
  | [] => [(name, value)]
  | (n, v) :: rest =>
    if name = n then (name, value) :: rest
    else if name < n then (name, value) :: (n, v) :: rest
    else (n, v) :: insertField name value rest

/-- The fields in ascending order, the last of several values under one name. -/
def sortFields (fields : List (String × Json)) : List (String × Json) :=
  fields.foldl (fun done f => insertField f.1 f.2 done) []

mutual

/-- The value with the fields of every object in ascending order. -/
def canonical : Json → Json
  | .array items => .array (canonicalItems items)
  | .object fields => .object (sortFields (canonicalFields fields))
  | v => v

def canonicalItems : List Json → List Json
  | [] => []
  | v :: vs => canonical v :: canonicalItems vs

def canonicalFields : List (String × Json) → List (String × Json)
  | [] => []
  | (k, v) :: fs => (k, canonical v) :: canonicalFields fs

end

def ofNat (n : Nat) : Json := .number (.int n)

/-- An object of the fields that are present. -/
def ofFields (fields : List (Option (String × Json))) : Json := .object (fields.filterMap id)

/-- A field that is always written. -/
def required (name : String) (value : Json) : Option (String × Json) := some (name, value)

/-- A field that is left out when there is nothing to write. -/
def optional (name : String) (value : Option Json) : Option (String × Json) := value.map (name, ·)

def ofStrings (l : List String) : Json := .array (l.map .string)

end Json

end ContractAudit
