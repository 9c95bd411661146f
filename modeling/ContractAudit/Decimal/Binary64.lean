/-!
# Double precision numbers

A finite double is a signed natural number below 2^53 times a power of two. Reading a decimal
rounds the exact quotient to the nearest double, a half to the even neighbour; nothing here rests
on machine floating point, so every value can be computed with in a proof. Zero keeps its sign.
-/

namespace ContractAudit

/-- A double: `mantissa * 2 ^ exponent` with a sign, an infinity, or not a number. -/
inductive Binary64 where
  | finite (negative : Bool) (mantissa : Nat) (exponent : Int)
  | infinite (negative : Bool)
  | nan
  deriving DecidableEq, Repr, Inhabited

namespace Binary64

/-- The least exponent; subnormal numbers have it. -/
def minExponent : Int := -1074

/-- The greatest exponent of a finite double. -/
def maxExponent : Int := 971

def zero (negative : Bool) : Binary64 := .finite negative 0 minExponent

/-- The natural number nearest to `n / d`, a half going to the even neighbour. -/
def roundHalfEven (n d : Nat) : Nat :=
  let q := n / d
  let r := n % d
  if d < 2 * r ∨ (2 * r = d ∧ q % 2 = 1) then q + 1 else q

/-- `n / d` divided by `2 ^ q` and rounded. -/
def roundScaled (n d : Nat) (q : Int) : Nat :=
  if 0 ≤ q then roundHalfEven n (d * Nat.pow 2 q.toNat)
  else roundHalfEven (n * Nat.pow 2 (-q).toNat) d

/-- The double nearest to `n / d`. -/
def ofRatio (negative : Bool) (n d : Nat) : Binary64 :=
  if n = 0 then zero negative
  else
    -- the quotient lies between 2 ^ (e - 1) and 2 ^ (e + 1)
    let e : Int := (Nat.log2 n : Int) - (Nat.log2 d : Int)
    let below : Bool :=
      if 0 ≤ e then n < d * Nat.pow 2 e.toNat else n * Nat.pow 2 (-e).toNat < d
    let e := if below then e - 1 else e
    let q := max (e - 52) minExponent
    let m := roundScaled n d q
    let (m, q) := if m = Nat.pow 2 53 then (Nat.pow 2 52, q + 1) else (m, q)
    if maxExponent < q then .infinite negative else .finite negative m q

/-- The double nearest to `digits * 10 ^ exponent`. Beyond 400 powers of ten either way the
result is an infinity or zero, so no huge power is computed. -/
def ofDecimal (negative : Bool) (digits : Nat) (exponent : Int) : Binary64 :=
  let size : Int := (Nat.toDigits 10 digits).length
  if digits = 0 ∨ size + exponent < -400 then zero negative
  else if 400 < size + exponent then .infinite negative
  else if 0 ≤ exponent then ofRatio negative (digits * Nat.pow 10 exponent.toNat) 1
  else ofRatio negative digits (Nat.pow 10 (-exponent).toNat)

def ofInt (n : Int) : Binary64 := ofRatio (n < 0) n.natAbs 1

def isFinite : Binary64 → Bool
  | .finite .. => true
  | _ => false

end Binary64

end ContractAudit
