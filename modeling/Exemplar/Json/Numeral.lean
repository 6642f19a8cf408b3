import Exemplar.Json.Basic
/-!
# Numerals

A written number and the scalar that it stands for.
-/
namespace Exemplar.Json

/-- A written number, taken apart. -/
structure Numeral where
  negative : Bool
  whole : List Char
  fraction : List Char
  exponent : Int
  /-- Neither a point nor an exponent is written. -/
  integral : Bool
  deriving DecidableEq

def Numeral.scalar (n : Numeral) : Scalar :=
  if n.integral then
    let m := Decimal.value n.whole
    .int (if n.negative then -(m : Int) else m)
  else
    .float (Double.ofDecimal n.negative (Decimal.value (n.whole ++ n.fraction))
      (n.exponent - n.fraction.length))

end Exemplar.Json
