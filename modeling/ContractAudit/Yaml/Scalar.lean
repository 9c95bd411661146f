import ContractAudit.Yaml.Node
import ContractAudit.Decimal.Binary64
import ContractAudit.Decimal.Spelling

/-!
# What a plain scalar means

A plain scalar may be a null, a boolean, an integer or a number with a fraction or exponent; all
else is text. Integers are decimal, or hexadecimal, octal or binary behind `0x`, `0o` and `0b`. A
text of digits that starts with a needless zero is no number. An integer beyond 128 bits is read as
a double, one beyond 64 bits is `wide`.
-/

namespace ContractAudit.Yaml

open Decimal (digitsValue exponent?)

inductive Meaning where
  | null
  | bool (b : Bool)
  | int (n : Int)
  | wide (n : Int)
  | float (x : Binary64)
  | text (s : String)
  deriving DecidableEq, Repr

def isNullWord (s : String) : Bool := s = "~" || s = "null" || s = "Null" || s = "NULL"

def boolWord? (s : String) : Option Bool :=
  if s = "true" || s = "True" || s = "TRUE" then some true
  else if s = "false" || s = "False" || s = "FALSE" then some false
  else none

/-- The value of a digit in a base up to sixteen. -/
def digitIn? (base : Nat) (c : Char) : Option Nat :=
  let d : Option Nat :=
    if '0' ≤ c ∧ c ≤ '9' then some (c.toNat - 48)
    else if 'a' ≤ c ∧ c ≤ 'f' then some (c.toNat - 87)
    else if 'A' ≤ c ∧ c ≤ 'F' then some (c.toNat - 55)
    else none
  d.filter (· < base)

/-- The number a non-empty text of digits spells in a base. -/
def natIn? (base : Nat) (ds : List Char) : Option Nat :=
  if ds.isEmpty then none
  else ds.foldlM (fun n c => (digitIn? base c).map (n * base + ·)) 0

/-- The number spelt without a sign, with or without a base mark. -/
def unsigned? (cs : List Char) : Option Nat :=
  match cs with
  | '0' :: 'x' :: ds => natIn? 16 ds
  | '0' :: 'o' :: ds => natIn? 8 ds
  | '0' :: 'b' :: ds => natIn? 2 ds
  | ds => natIn? 10 ds

/-- The integer a text spells; one sign may stand in front. -/
def integer? (cs : List Char) : Option Int :=
  match cs with
  | '+' :: ds => (unsigned? ds).map fun n => (n : Int)
  | '-' :: ds => (unsigned? ds).map fun n => -(n : Int)
  | ds => (unsigned? ds).map fun n => (n : Int)

/-- Digits only, with a zero in front of others, behind a sign or not. -/
def hasNeedlessZero (cs : List Char) : Bool :=
  let ds := match cs with
    | '-' :: ds => ds
    | '+' :: ds => ds
    | ds => ds
  match ds with
  | '0' :: d :: rest => (d :: rest).all Char.isDigit
  | _ => false

/-- The finite double a decimal text spells: digits with at most one point, and perhaps an
exponent. -/
def decimal? (negative : Bool) (cs : List Char) : Option Binary64 :=
  let whole := cs.takeWhile Char.isDigit
  let rest := cs.dropWhile Char.isDigit
  let (fraction, rest) : List Char × List Char := match rest with
    | '.' :: rest => (rest.takeWhile Char.isDigit, rest.dropWhile Char.isDigit)
    | _ => ([], rest)
  if whole.isEmpty && fraction.isEmpty then none
  else
    let exponent : Option Int := match rest with
      | [] => some 0
      | c :: rest => if c = 'e' ∨ c = 'E' then exponent? rest else none
    (exponent.map fun e =>
      Binary64.ofDecimal negative (digitsValue (whole ++ fraction)) (e - fraction.length)).filter
        Binary64.isFinite

def double? (s : String) : Option Binary64 :=
  if s = "-.inf" || s = "-.Inf" || s = "-.INF" then some (.infinite true)
  else if s = ".nan" || s = ".NaN" || s = ".NAN" then some .nan
  else if s = ".inf" || s = ".Inf" || s = ".INF" || s = "+.inf" || s = "+.Inf" || s = "+.INF" then
    some (.infinite false)
  else
    match s.toList with
    | '+' :: cs => decimal? false cs
    | '-' :: cs => decimal? true cs
    | cs => decimal? false cs

/-- The meaning of an integer text, if it spells one of at most 128 bits. -/
def intMeaning? (s : String) : Option Meaning :=
  let cs := s.toList
  if hasNeedlessZero cs then none
  else
    match integer? cs with
    | none => none
    | some n =>
      if -(Int.pow 2 63) ≤ n ∧ n < Int.pow 2 64 then some (.int n)
      else if -(Int.pow 2 127) ≤ n ∧ n < Int.pow 2 128 then some (.wide n)
      else none

/-- The meaning of a plain scalar without a tag. -/
def plainMeaning (s : String) : Meaning :=
  if s.isEmpty || isNullWord s then .null
  else
    match boolWord? s with
    | some b => .bool b
    | none =>
      match intMeaning? s with
      | some m => m
      | none =>
        if hasNeedlessZero s.toList then .text s
        else
          match double? s with
          | some x => .float x
          | none => .text s

/-- The tags that settle the meaning of a scalar. -/
inductive CoreTag where
  | null
  | bool
  | int
  | float
  deriving DecidableEq, Repr

/-- The core tag a tag text names. -/
def CoreTag.ofString? (tag : String) : Option CoreTag :=
  if tag = "tag:yaml.org,2002:null" then some .null
  else if tag = "tag:yaml.org,2002:bool" then some .bool
  else if tag = "tag:yaml.org,2002:int" then some .int
  else if tag = "tag:yaml.org,2002:float" then some .float
  else none

/-- How a core tag names what it wants. -/
def CoreTag.wanted : CoreTag → String
  | .null => "null"
  | .bool => "a boolean"
  | .int => "an integer"
  | .float => "a float"

/-- The meaning a core tag forces on a text, if the text has one. -/
def CoreTag.meaning? (tag : CoreTag) (s : String) : Option Meaning :=
  match tag with
  | .null => if isNullWord s then some .null else none
  | .bool => (boolWord? s).map .bool
  | .int => intMeaning? s
  | .float => (double? s).map .float

/-- Whether a tag belongs to the document alone. -/
def isLocalTag (tag : String) : Bool := tag.toList.head? = some '!'

/-- The meaning of a scalar, or the core tag whose wish its text does not meet. A local tag leaves
a plain scalar as it is; any other tag, quotes and block style make text. -/
def scalarMeaning (tag : Option String) (style : ScalarStyle) (s : String) :
    Except CoreTag Meaning :=
  match tag with
  | none => .ok (if style = .plain then plainMeaning s else .text s)
  | some t =>
    match CoreTag.ofString? t with
    | some core =>
      match core.meaning? s with
      | some m => .ok m
      | none => .error core
    | none => .ok (if isLocalTag t && style = .plain then plainMeaning s else .text s)

end ContractAudit.Yaml
