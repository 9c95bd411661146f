/-!
# Spelling of decimals

What a text of decimal digits is worth, and the exponent behind the letter of a scientific number.
-/

namespace ContractAudit.Decimal

/-- The value of a text of digits. -/
def digitsValue (ds : List Char) : Nat := ds.foldl (fun n c => n * 10 + (c.toNat - 48)) 0

/-- The integer that digits spell behind at most one sign. -/
def exponent? (cs : List Char) : Option Int :=
  let (negative, ds) : Bool × List Char := match cs with
    | '-' :: ds => (true, ds)
    | '+' :: ds => (false, ds)
    | ds => (false, ds)
  if ds.isEmpty || !ds.all Char.isDigit then none
  else some (if negative then -(digitsValue ds : Int) else digitsValue ds)

end ContractAudit.Decimal
