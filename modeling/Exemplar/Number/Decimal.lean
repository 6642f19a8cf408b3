/-!
# Decimal digits

Natural numbers as lists of decimal digits, most significant first, and back.
-/
namespace Exemplar.Decimal

-- `2 ^ k` means the power of the core library also where an algebraic one is in scope.
attribute [instance (2000), default_instance 20000] instPowNat

def digitChar (d : Nat) : Char := Char.ofNat (48 + d)

def digitValue (c : Char) : Nat := c.toNat - 48

def isDigit (c : Char) : Bool := 48 ≤ c.toNat && c.toNat ≤ 57

/-- The decimal digits of `n` without leading zeros; zero has the single digit `0`. -/
def digits (n : Nat) : List Char :=
  if n < 10 then [digitChar n] else digits (n / 10) ++ [digitChar (n % 10)]

def value (ds : List Char) : Nat := ds.foldl (fun n c => n * 10 + digitValue c) 0

def width (n : Nat) : Nat := (digits n).length

def ofInt : Int → List Char
  | .ofNat n => digits n
  | .negSucc n => '-' :: digits (n + 1)

def intText (i : Int) : String := String.ofList (ofInt i)

def natText (n : Nat) : String := String.ofList (digits n)

end Exemplar.Decimal
