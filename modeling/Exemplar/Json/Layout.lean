import Exemplar.Scalar
/-!
# Layouts

A tree is written in one line or with every item on a line of its own. What sets the levels apart
is asked for by an indent: a number of blanks, or a text that is repeated.
-/
namespace Exemplar

/-- What is asked for to set the levels of a written tree apart. Nothing asks for one line; a value
that is no number and no text asks for what cannot be done. -/
inductive Indent where
  | none
  | blanks (n : Int)
  | text (s : String)
  | unusable
  deriving DecidableEq, Repr

/-- Why an indent cannot be used: it is no number and no text, or too large to be counted, or too
large to be kept. -/
inductive IndentFault where
  | unusable
  | uncountable
  | tooLarge
  deriving DecidableEq, Repr

/-- The layout of a written tree: everything in one line without blanks, or every item on its own
line, each level set apart by a text. -/
inductive Layout where
  | compact
  | lines (step : List Char)
  deriving DecidableEq, Repr

namespace Indent

/-- The indent that a value asks for. Truth counts as a number. -/
def ofScalar : Scalar → Indent
  | .null => .none
  | .bool b => .blanks (Scalar.ofBool b)
  | .int i => .blanks i
  | .str s => .text s
  | .float _ => .unusable

/-- The layout for an indent. No negative number takes more room than none. A number of blanks is
counted in 64 bits, and 2 ^ 47 of them would fill the address space of a process. -/
def layout : Indent → Except IndentFault Layout
  | .none => .ok .compact
  | .text s => .ok (.lines s.toList)
  | .unusable => .error .unusable
  | .blanks n =>
    if n < -(2 ^ 63) ∨ 2 ^ 63 ≤ n then .error .uncountable
    else if 2 ^ 47 ≤ n then .error .tooLarge
    else .ok (.lines (List.replicate n.toNat ' '))

end Indent

namespace Layout

def newline : Layout → Nat → List Char
  | .compact, _ => []
  | .lines step, level => '\n' :: (List.replicate level step).flatten

def colon : Layout → List Char
  | .compact => [':']
  | .lines _ => [':', ' ']

end Layout
end Exemplar
