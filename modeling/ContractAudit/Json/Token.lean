import ContractAudit.Json.Basic
import ContractAudit.Decimal.Spelling

/-!
# JSON tokens

The words of a JSON text: brackets, marks, literals, numbers and strings. Reading a text gives its
tokens in order and drops the blanks between them. A number without fraction and exponent that
fits 64 bits is an integer; any other is the nearest double.
-/

namespace ContractAudit.Json

open Decimal (digitsValue exponent?)

/-- A word of a JSON text. -/
inductive Token where
  | openArray
  | closeArray
  | openObject
  | closeObject
  | comma
  | colon
  | literal (v : Json)
  | string (s : String)
  deriving Repr

namespace Token

def isSpace (c : Char) : Bool := c = ' ' || c = '\t' || c = '\n' || c = '\r'

def hexValue? (c : Char) : Option Nat :=
  if '0' ≤ c ∧ c ≤ '9' then some (c.toNat - 48)
  else if 'a' ≤ c ∧ c ≤ 'f' then some (c.toNat - 87)
  else if 'A' ≤ c ∧ c ≤ 'F' then some (c.toNat - 55)
  else none

/-- Four hexadecimal digits and the rest of the text. -/
def hex4? : List Char → Option (Nat × List Char)
  | a :: b :: c :: d :: rest => do
    let a ← hexValue? a
    let b ← hexValue? b
    let c ← hexValue? c
    let d ← hexValue? d
    some (((a * 16 + b) * 16 + c) * 16 + d, rest)
  | _ => none

/-- The character of one escape after its backslash, and the rest of the text. A pair of
surrogates is one character; a lone surrogate is none. -/
def escape? : List Char → Option (Char × List Char)
  | '"' :: rest => some ('"', rest)
  | '\\' :: rest => some ('\\', rest)
  | '/' :: rest => some ('/', rest)
  | 'b' :: rest => some ('\x08', rest)
  | 'f' :: rest => some ('\x0c', rest)
  | 'n' :: rest => some ('\n', rest)
  | 'r' :: rest => some ('\r', rest)
  | 't' :: rest => some ('\t', rest)
  | 'u' :: rest =>
    match hex4? rest with
    | none => none
    | some (n, rest) =>
      if 0xDC00 ≤ n ∧ n ≤ 0xDFFF then none
      else if 0xD800 ≤ n ∧ n ≤ 0xDBFF then
        match rest with
        | '\\' :: 'u' :: rest =>
          match hex4? rest with
          | some (m, rest) =>
            if 0xDC00 ≤ m ∧ m ≤ 0xDFFF then
              some (Char.ofNat (0x10000 + (n - 0xD800) * 0x400 + (m - 0xDC00)), rest)
            else none
          | none => none
        | _ => none
      else some (Char.ofNat n, rest)
  | _ => none

/-- The characters of a string after its opening quote, and the rest of the text. `done` holds the
characters read so far, last first; `fuel` bounds the characters still to come. -/
def stringBody? : Nat → List Char → List Char → Option (String × List Char)
  | 0, _, _ => none
  | _ + 1, _, [] => none
  | fuel + 1, done, c :: cs =>
    if c = '"' then some (String.ofList done.reverse, cs)
    else if c = '\\' then
      match escape? cs with
      | some (e, rest) => stringBody? fuel (e :: done) rest
      | none => none
    else if c.val < 0x20 then none
    else stringBody? fuel (c :: done) cs

def number? (cs : List Char) : Option Number :=
  let (negative, cs) : Bool × List Char := match cs with
    | '-' :: rest => (true, rest)
    | _ => (false, cs)
  let whole := cs.takeWhile Char.isDigit
  let rest := cs.dropWhile Char.isDigit
  let (fraction, rest, hasPoint) : List Char × List Char × Bool := match rest with
    | '.' :: rest => (rest.takeWhile Char.isDigit, rest.dropWhile Char.isDigit, true)
    | _ => ([], rest, false)
  if whole.isEmpty || (whole.head? = some '0' && whole.length ≠ 1) || (hasPoint && fraction.isEmpty)
  then none
  else
    let digits := digitsValue (whole ++ fraction)
    let scaled (e : Int) : Number :=
      .float (Binary64.ofDecimal negative digits (e - fraction.length))
    match rest with
    | [] =>
      if hasPoint then some (scaled 0)
      else if negative then
        if digits = 0 then some (.float (Binary64.zero true))
        else if digits ≤ Nat.pow 2 63 then some (.int (-digits))
        else some (scaled 0)
      else if digits < Nat.pow 2 64 then some (.int digits)
      else some (scaled 0)
    | c :: rest =>
      if c = 'e' ∨ c = 'E' then (exponent? rest).map scaled else none

/-- A character that can stand in a number or a literal word. -/
def isWordPart (c : Char) : Bool := c.isAlphanum || c = '-' || c = '+' || c = '.'

/-- The token a bare word stands for. -/
def ofWord? (cs : List Char) : Option Token :=
  if cs = ['n', 'u', 'l', 'l'] then some (.literal .null)
  else if cs = ['t', 'r', 'u', 'e'] then some (.literal (.bool true))
  else if cs = ['f', 'a', 'l', 's', 'e'] then some (.literal (.bool false))
  else (number? cs).map fun n => .literal (.number n)

/-- The tokens of a text after those in `done`, which come last first. -/
def readAll? : Nat → List Token → List Char → Option (List Token)
  | 0, _, _ => none
  | _ + 1, done, [] => some done.reverse
  | fuel + 1, done, c :: cs =>
    if isSpace c then readAll? fuel done cs
    else if c = '[' then readAll? fuel (.openArray :: done) cs
    else if c = ']' then readAll? fuel (.closeArray :: done) cs
    else if c = '\x7b' then readAll? fuel (.openObject :: done) cs
    else if c = '\x7d' then readAll? fuel (.closeObject :: done) cs
    else if c = ',' then readAll? fuel (.comma :: done) cs
    else if c = ':' then readAll? fuel (.colon :: done) cs
    else if c = '"' then
      match stringBody? (cs.length + 1) [] cs with
      | some (s, rest) => readAll? fuel (.string s :: done) rest
      | none => none
    else if isWordPart c then
      match ofWord? (c :: cs.takeWhile isWordPart) with
      | some t => readAll? fuel (t :: done) (cs.dropWhile isWordPart)
      | none => none
    else none

/-- The tokens of a text, if it consists of JSON words. -/
def ofText? (s : String) : Option (List Token) :=
  readAll? (s.toList.length + 1) [] s.toList

end Token

end ContractAudit.Json
