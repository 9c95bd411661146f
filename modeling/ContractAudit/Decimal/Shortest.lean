import ContractAudit.Decimal.Binary64

/-!
# Shortest decimals

The decimal written for a double is the one with the fewest digits among those that read back as
the same double, and of those with equally few the nearest. The decimals that read back fill an
interval around the double that reaches halfway to its neighbours, ends included when its mantissa
is even. On the grid of `n`-digit decimals it is enough to look at the two points around the
double: if any point of the grid lies in the interval, one of them does.
-/

namespace ContractAudit.Decimal

/-- A positive decimal: `digits * 10 ^ exponent`. -/
structure Digits where
  digits : Nat
  exponent : Int
  deriving DecidableEq, Repr

/-- `n / d` as a natural quotient after scaling by `10 ^ (-g)`: numerator and denominator. -/
def scaleTen (n d : Nat) (g : Int) : Nat × Nat :=
  if 0 ≤ g then (n, d * Nat.pow 10 g.toNat) else (n * Nat.pow 10 (-g).toNat, d)

/-- The greatest `k` with `10 ^ k ≤ n / d`, for `n` and `d` positive. -/
def leadingPower (n d : Nat) : Int :=
  if d ≤ n then ((Nat.toDigits 10 (n / d)).length : Int) - 1
  else
    let size := (Nat.toDigits 10 (d / n)).length
    if 10 * d ≤ n * Nat.pow 10 size then 1 - (size : Int) else -(size : Int)

/-- The interval of a double, as quarters of its unit: the value and the two ends. -/
structure Interval where
  value : Nat
  low : Nat
  high : Nat
  closed : Bool

/-- The quarters of `m * 2 ^ q` and of the points halfway to its neighbours. -/
def interval (m : Nat) (q : Int) : Interval :=
  let gapBelow := if m = Nat.pow 2 52 ∧ Binary64.minExponent < q then 1 else 2
  { value := 4 * m, low := 4 * m - gapBelow, high := 4 * m + 2, closed := m % 2 = 0 }

/-- A candidate with `places` digits, if one of the two decimals around the value reads back. -/
def candidate (i : Interval) (unit : Nat × Nat) (power : Int) (places : Nat) : Option Digits :=
  let g := power - places + 1
  let (n, d) := scaleTen (i.value * unit.1) unit.2 g
  let (nl, dl) := scaleTen (i.low * unit.1) unit.2 g
  let (nh, dh) := scaleTen (i.high * unit.1) unit.2 g
  let below := n / d
  let inside (c : Nat) : Bool :=
    if i.closed then nl ≤ c * dl && c * dh ≤ nh else nl < c * dl && c * dh < nh
  let nearerBelow := 2 * (n % d) < d
  match inside below, inside (below + 1) with
  | true, true => some ⟨if nearerBelow then below else below + 1, g⟩
  | true, false => some ⟨below, g⟩
  | false, true => some ⟨below + 1, g⟩
  | false, false => none

/-- Moves the trailing zeros of the digits into the exponent; `fuel` bounds their number. -/
def stripZeros : Nat → Digits → Digits
  | 0, d => d
  | fuel + 1, d =>
    if d.digits ≠ 0 ∧ d.digits % 10 = 0 then stripZeros fuel ⟨d.digits / 10, d.exponent + 1⟩ else d

/-- The shortest decimal that reads back as `m * 2 ^ q`, for positive `m`. -/
def shortest (m : Nat) (q : Int) : Digits :=
  let unit : Nat × Nat :=
    if 2 ≤ q then (Nat.pow 2 (q - 2).toNat, 1) else (1, Nat.pow 2 (2 - q).toNat)
  let i := interval m q
  let power := leadingPower (i.value * unit.1) unit.2
  let found := ((List.range 17).map (· + 1)).findSome? (candidate i unit power)
  stripZeros 20 (found.getD ⟨m, 0⟩)

/-! ## Layouts -/

/-- The digits with a point after the first `point` of them; a point outside the digits is reached
with zeros. -/
def placePoint (ds : List Char) (point : Int) : List Char :=
  if point ≤ 0 then ['0', '.'] ++ List.replicate (-point).toNat '0' ++ ds
  else if (ds.length : Int) ≤ point then ds ++ List.replicate (point.toNat - ds.length) '0'
  else ds.take point.toNat ++ ['.'] ++ ds.drop point.toNat

/-- The digits of a decimal and the place of its point, counted from the first digit. -/
def digitsAndPoint (d : Digits) : List Char × Int :=
  let ds := Nat.toDigits 10 d.digits
  (ds, d.exponent + ds.length)

def signed (negative : Bool) (cs : List Char) : String :=
  String.ofList (if negative then '-' :: cs else cs)

/-- The number written out without an exponent; a whole number has no point. -/
def positional : Binary64 → String
  | .nan => "NaN"
  | .infinite negative => signed negative ['i', 'n', 'f']
  | .finite negative 0 _ => signed negative ['0']
  | .finite negative m q =>
    let (ds, point) := digitsAndPoint (shortest m q)
    signed negative (placePoint ds point)

/-- As `positional`, with `.0` behind a whole number. -/
def positionalWithPoint (x : Binary64) : String :=
  let s := positional x
  if x.isFinite && !(s.toList.contains '.') then s ++ ".0" else s

/-- The number as JSON has it: written out while the point lies within sixteen places after the
first digit or five before it, else with one digit before the point and an exponent. -/
def scientific : Binary64 → String
  | .nan => "null"
  | .infinite _ => "null"
  | .finite negative 0 _ => signed negative ['0', '.', '0']
  | .finite negative m q =>
    let (ds, point) := digitsAndPoint (shortest m q)
    if -5 < point ∧ point ≤ 16 then
      let cs := placePoint ds point
      signed negative (if (ds.length : Int) ≤ point then cs ++ ['.', '0'] else cs)
    else
      let mantissa := match ds with
        | [] => []
        | [d] => [d]
        | d :: rest => d :: '.' :: rest
      signed negative (mantissa ++ 'e' :: (toString (point - 1)).toList)

end ContractAudit.Decimal
