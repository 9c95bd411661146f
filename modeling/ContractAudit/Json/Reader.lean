import ContractAudit.Json.Token

/-!
# Reading JSON

A value is read off the tokens of its text. Fields are kept in the order of the text, repeated
names included; `canonical` gives the object they amount to.
-/

namespace ContractAudit.Json

mutual

/-- The first value of a token list and the tokens behind it. -/
def value? : Nat → List Token → Option (Json × List Token)
  | 0, _ => none
  | _ + 1, .literal v :: rest => some (v, rest)
  | _ + 1, .string s :: rest => some (.string s, rest)
  | _ + 1, .openArray :: .closeArray :: rest => some (.array [], rest)
  | fuel + 1, .openArray :: rest => (items? fuel [] rest).map fun (vs, rest) => (.array vs, rest)
  | _ + 1, .openObject :: .closeObject :: rest => some (.object [], rest)
  | fuel + 1, .openObject :: rest => (fields? fuel [] rest).map fun (fs, rest) => (.object fs, rest)
  | _ + 1, _ => none

/-- The items of an array up to its closing bracket, after those in `done`. -/
def items? : Nat → List Json → List Token → Option (List Json × List Token)
  | 0, _, _ => none
  | fuel + 1, done, tokens =>
    match value? fuel tokens with
    | some (v, .comma :: rest) => items? fuel (v :: done) rest
    | some (v, .closeArray :: rest) => some ((v :: done).reverse, rest)
    | _ => none

/-- The fields of an object up to its closing brace, after those in `done`. -/
def fields? : Nat → List (String × Json) → List Token → Option (List (String × Json) × List Token)
  | 0, _, _ => none
  | fuel + 1, done, .string k :: .colon :: tokens =>
    match value? fuel tokens with
    | some (v, .comma :: rest) => fields? fuel ((k, v) :: done) rest
    | some (v, .closeObject :: rest) => some (((k, v) :: done).reverse, rest)
    | _ => none
  | _ + 1, _, _ => none

end

/-- The value a token list spells. -/
def ofTokens? (tokens : List Token) : Option Json :=
  match value? (tokens.length + 1) tokens with
  | some (v, []) => some v
  | _ => none

/-- The value a text spells. -/
def ofText? (s : String) : Option Json := (Token.ofText? s).bind ofTokens?

end ContractAudit.Json
