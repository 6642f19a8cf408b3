import Exemplar.Number.Double
/-!
# The shortest decimal of a double

Of the decimals that read back as a given double, `shortest` takes one with the fewest digits,
and of those the nearest; a tie goes to the even last digit. On a grid of decimals with a
fixed number of digits only the two neighbours of the double can be nearest, so these are
the candidates. `text` writes the result: positionally while the leading digit stands at a
place from `10 ^ -4` up to `10 ^ 15`, with an exponent otherwise.
-/
namespace Exemplar.Double

/-- The place of the decimal point: the `p` with `10 ^ (p - 1) ≤ num / den < 10 ^ p`, for a
positive quotient. -/
def pointPlace (num den : Nat) : Int :=
  if den ≤ num then (Decimal.width (num / den) : Int)
  else 1 - (Decimal.width ((den + num - 1) / num - 1) : Int)

/-- The two neighbours of `num / den` among the multiples of `10 ^ unit`, the nearer one first,
counted in that unit. -/
def neighbours (num den : Nat) (unit : Int) : List Nat :=
  let (a, d) := match unit with
    | .ofNat k => (num, den * 10 ^ k)
    | .negSucc k => (num * 10 ^ (k + 1), den)
  let q := a / d
  let r := a % d
  if 2 * r < d then [q, q + 1]
  else if d < 2 * r then [q + 1, q]
  else if q % 2 = 0 then [q, q + 1] else [q + 1, q]

/-- A decimal of `count` digits that reads back as `x`, if a neighbour of `x` does. -/
def decimalOf? (x : Dyadic) (place : Int) (count : Nat) : Option (Nat × Int) :=
  let (num, den) := ratio x
  let unit := place - count
  ((neighbours num den unit).find? fun c => ofDecimal x.negative c unit == .finite x).map
    fun c => (c, unit)

def exactDecimal (x : Dyadic) : Nat × Int :=
  (x.significand * 2 ^ x.exponent * 5 ^ 1074, -1074)

/-- Digits and exponent of the shortest decimal that reads back as `x`. Seventeen digits
always suffice; the exact expansion stands after them so that the function is total. -/
def shortest (x : Dyadic) : Nat × Int :=
  if x.significand = 0 then (0, 0)
  else
    let (num, den) := ratio x
    let place := pointPlace num den
    ((List.range 17).findSome? fun i => decimalOf? x place (i + 1)).getD (exactDecimal x)

/-- Digits without trailing zeros, with the exponent raised to match. -/
def trimZeros (digits : List Char) (exponent : Int) : List Char × Int :=
  let zeros := digits.reverse.takeWhile (· == '0')
  match digits.take (digits.length - zeros.length) with
  | [] => (['0'], 0)
  | kept => (kept, exponent + zeros.length)

/-- The exponent part: a sign and at least two digits. -/
def exponentText (e : Int) : List Char :=
  let ds := Decimal.digits e.natAbs
  'e' :: (if e < 0 then '-' else '+') :: (if ds.length < 2 then '0' :: ds else ds)

/-- Write `0.digits · 10 ^ point`. -/
def placePoint (ds : List Char) (point : Int) : List Char :=
  if point > 16 || point < -3 then
    let mantissa := match ds with
      | [] => ['0']
      | [d] => [d]
      | d :: rest => d :: '.' :: rest
    mantissa ++ exponentText (point - 1)
  else match point with
    | .ofNat p =>
      if p = 0 then '0' :: '.' :: ds
      else if ds.length ≤ p then ds ++ List.replicate (p - ds.length) '0' ++ ['.', '0']
      else ds.take p ++ '.' :: ds.drop p
    | .negSucc p => '0' :: '.' :: (List.replicate (p + 1) '0' ++ ds)

def magnitudeText (x : Dyadic) : List Char :=
  if x.significand = 0 then ['0', '.', '0']
  else
    let (n, e) := shortest x
    let (ds, e) := trimZeros (Decimal.digits n) e
    placePoint ds (ds.length + e)

def finiteText (x : Dyadic) : List Char :=
  if x.negative then '-' :: magnitudeText x else magnitudeText x

def text : Double → String
  | .nan => "nan"
  | .infinity false => "inf"
  | .infinity true => "-inf"
  | .finite x => String.ofList (finiteText x)

end Exemplar.Double
