import ContractAudit.Json.Basic
import ContractAudit.Decimal.Shortest

/-!
# Writing JSON

Two layouts of one value: compact, without any space, and indented by two spaces a level. In a
string the quote, the backslash and the controls are escaped and every other character stands for
itself. Fields are written in the order of the object.
-/

namespace ContractAudit.Json

/-- The lower case hexadecimal digit of a number below sixteen. -/
def hexDigit (n : Nat) : Char := if n < 10 then Char.ofNat (48 + n) else Char.ofNat (87 + n)

/-- How a character is written inside a string. -/
def escapeChar (c : Char) : List Char :=
  if c = '"' then ['\\', '"']
  else if c = '\\' then ['\\', '\\']
  else if c = '\n' then ['\\', 'n']
  else if c = '\r' then ['\\', 'r']
  else if c = '\t' then ['\\', 't']
  else if c = '\x08' then ['\\', 'b']
  else if c = '\x0c' then ['\\', 'f']
  else if c.val < 0x20 then ['\\', 'u', '0', '0', hexDigit (c.toNat / 16), hexDigit (c.toNat % 16)]
  else [c]

def quote (s : String) : List Char := '"' :: s.toList.flatMap escapeChar ++ ['"']

def numberText : Number → String
  | .int n => toString n
  | .float x => Decimal.scientific x

mutual

/-- The value without spaces. -/
def compactChars : Json → List Char
  | .null => ['n', 'u', 'l', 'l']
  | .bool true => ['t', 'r', 'u', 'e']
  | .bool false => ['f', 'a', 'l', 's', 'e']
  | .number n => (numberText n).toList
  | .string s => quote s
  | .array items => '[' :: compactItems items
  | .object fields => '\x7b' :: compactFields fields

def compactItems : List Json → List Char
  | [] => [']']
  | [v] => compactChars v ++ [']']
  | v :: vs => compactChars v ++ ',' :: compactItems vs

def compactFields : List (String × Json) → List Char
  | [] => ['\x7d']
  | [(k, v)] => quote k ++ ':' :: compactChars v ++ ['\x7d']
  | (k, v) :: fs => quote k ++ ':' :: compactChars v ++ ',' :: compactFields fs

end

/-- A line end and the indentation of a level. -/
def newline (level : Nat) : List Char := '\n' :: List.replicate (2 * level) ' '

mutual

/-- The value at a level of indentation, without indentation before its first character. -/
def prettyChars (level : Nat) : Json → List Char
  | .array (v :: vs) => '[' :: newline (level + 1) ++ prettyItems level (v :: vs)
  | .object (f :: fs) => '\x7b' :: newline (level + 1) ++ prettyFields level (f :: fs)
  | v => compactChars v

/-- The items of an array at a level, each on its own line, and the closing bracket. -/
def prettyItems (level : Nat) : List Json → List Char
  | [] => [']']
  | [v] => prettyChars (level + 1) v ++ newline level ++ [']']
  | v :: vs => prettyChars (level + 1) v ++ ',' :: newline (level + 1) ++ prettyItems level vs

/-- The fields of an object at a level, each on its own line, and the closing brace. -/
def prettyFields (level : Nat) : List (String × Json) → List Char
  | [] => ['\x7d']
  | [(k, v)] =>
    quote k ++ [':', ' '] ++ prettyChars (level + 1) v ++ newline level ++ ['\x7d']
  | (k, v) :: fs =>
    quote k ++ [':', ' '] ++ prettyChars (level + 1) v ++ ',' :: newline (level + 1) ++
      prettyFields level fs

end

def compact (v : Json) : String := String.ofList (compactChars v)

def pretty (v : Json) : String := String.ofList (prettyChars 0 v)

end ContractAudit.Json
