import Exemplar.Number.Shortest
import Exemplar.Text.Quoted
/-!
# Scalars

The values without parts: null, booleans, integers, doubles and strings. Besides equality
there is the comparison `==`, by which numbers are compared by value and a boolean counts as
the number 0 or 1. Keys of maps are looked up by it.
-/
namespace Exemplar

/-- A value without parts. -/
inductive Scalar where
  | null
  | bool (b : Bool)
  | int (i : Int)
  | float (x : Double)
  | str (s : String)
  deriving DecidableEq

namespace Scalar

def ofBool (b : Bool) : Int := if b then 1 else 0

def index? : Scalar → Option Int
  | .bool b => some (ofBool b)
  | .int i => some i
  | _ => none

/-- Comparison by value: `1`, `1.0` and `true` are the same. -/
def same : Scalar → Scalar → Bool
  | .null, .null => true
  | .str s, .str t => s = t
  | .bool a, .bool b => decide (a = b)
  | .bool a, .int i => decide (ofBool a = i)
  | .int i, .bool a => decide (i = ofBool a)
  | .int i, .int j => decide (i = j)
  | .bool a, .float x => x.equalsInt (ofBool a)
  | .float x, .bool a => x.equalsInt (ofBool a)
  | .int i, .float x => x.equalsInt i
  | .float x, .int i => x.equalsInt i
  | .float x, .float y => x.sameValue y
  | _, _ => false

instance : BEq Scalar := ⟨same⟩

/-- A number by its place on a scale: below, on or above the finite numbers, and how many units of
the smallest double it has. What is no number has no place. -/
def place? : Scalar → Option (Int × Int)
  | .bool b => some (0, ofBool b * 2 ^ 1074)
  | .int i => some (0, i * 2 ^ 1074)
  | .float (.finite x) =>
    let units : Int := (Double.ratio x).1
    some (0, if x.negative then -units else units)
  | .float (.infinity negative) => some (if negative then -1 else 1, 0)
  | _ => none

def isNumber : Scalar → Bool
  | .bool _ => true
  | .int _ => true
  | .float _ => true
  | _ => false

/-- Whether one scalar comes before another one. Numbers and strings have an order each, in which
what is no number comes before and behind nothing; other scalars have none. -/
def less? (s t : Scalar) : Option Bool :=
  match s, t with
  | .str a, .str b => some (decide (a < b))
  | s, t =>
    if s.isNumber && t.isNumber then
      match s.place?, t.place? with
      | some a, some b => some (decide (a.1 < b.1 ∨ (a.1 = b.1 ∧ a.2 < b.2)))
      | _, _ => some false
    else none

def plainText : Scalar → String
  | .null => "None"
  | .bool true => "True"
  | .bool false => "False"
  | .int i => Decimal.intText i
  | .float x => x.text
  | .str s => s

/-- The text of a scalar inside a message or a container: strings are quoted. -/
def quoted : Scalar → String
  | .str s => Text.quotedString s
  | s => s.plainText

end Scalar
end Exemplar
