import Exemplar.Number.Decimal
/-!
# Double precision numbers

A finite double is a sign, a significand and an exponent, with the value
`± significand · 2 ^ (exponent - 1074)`. The pair is canonical, so equality of doubles is
equality of the data, except that the two zeros are different data with one value.
All arithmetic is on natural numbers and exact.
-/
namespace Exemplar

/-- The pairs that stand for a finite magnitude: the significand fills its 53 bits unless the
exponent is the smallest one. -/
def CanonicalPair (significand exponent : Nat) : Prop :=
  significand < 2 ^ 53 ∧ (exponent = 0 ∨ 2 ^ 52 ≤ significand) ∧ exponent ≤ 2045

instance (m e : Nat) : Decidable (CanonicalPair m e) := by
  unfold CanonicalPair; infer_instance

structure Dyadic where
  negative : Bool
  significand : Nat
  exponent : Nat
  canonical : CanonicalPair significand exponent
  deriving DecidableEq

inductive Double where
  | nan
  | infinity (negative : Bool)
  | finite (x : Dyadic)
  deriving DecidableEq

namespace Double

/-- The double of a canonical pair; any other pair is beyond the largest finite double. -/
def pack (negative : Bool) (significand exponent : Nat) : Double :=
  if h : CanonicalPair significand exponent then .finite ⟨negative, significand, exponent, h⟩
  else .infinity negative

def zero (negative : Bool) : Double := pack negative 0 0

/-- The integer nearest to `a / d`, a tie going to the even one. -/
def roundQuotient (a d : Nat) : Nat :=
  let q := a / d
  let r := a % d
  if 2 * r < d then q else if d < 2 * r then q + 1 else if q % 2 = 0 then q else q + 1

/-- The double nearest to `± num / den`, a tie going to the even significand. -/
def ofRatio (negative : Bool) (num den : Nat) : Double :=
  let scaled := num * 2 ^ 1074
  let exponent := Nat.log2 (scaled / den) - 52
  let significand := roundQuotient scaled (den * 2 ^ exponent)
  if significand = 2 ^ 53 then pack negative (2 ^ 52) (exponent + 1)
  else pack negative significand exponent

/-- The double nearest to `± digits · 10 ^ exponent`. Magnitudes from `10 ^ 309` on overflow and
those below `10 ^ -324` vanish, whatever their digits. -/
def ofDecimal (negative : Bool) (digits : Nat) (exponent : Int) : Double :=
  if digits = 0 then zero negative
  else
    let top := (Decimal.width digits : Int) + exponent
    if top ≥ 310 then .infinity negative
    else if top ≤ -324 then zero negative
    else match exponent with
      | .ofNat k => ofRatio negative (digits * 10 ^ k) 1
      | .negSucc k => ofRatio negative digits (10 ^ (k + 1))

def ratio (x : Dyadic) : Nat × Nat := (x.significand * 2 ^ x.exponent, 2 ^ 1074)

/-- Equality of values: the zeros are equal, and a NaN equals nothing. -/
def sameValue : Double → Double → Bool
  | .nan, _ => false
  | _, .nan => false
  | .infinity s, .infinity t => s == t
  | .finite x, .finite y =>
    x.significand == y.significand && x.exponent == y.exponent &&
      (x.negative == y.negative || x.significand == 0)
  | _, _ => false

def equalsInt : Double → Int → Bool
  | .finite x, i =>
    let (num, den) := ratio x
    num == i.natAbs * den && (num == 0 || x.negative == decide (i < 0))
  | _, _ => false

end Double
end Exemplar
