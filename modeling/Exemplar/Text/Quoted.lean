import Exemplar.Text.Printable
/-!
# Quoted text

Text shown between quotes inside a message. The quote is the single one, unless the text
holds a single quote and no double one. The backslash, the quote, line breaks and tabs are
escaped by a backslash, and characters that are not printable by their code.
-/
namespace Exemplar.Text

/-- The hexadecimal digit of a value below sixteen, in lower case. -/
def hexDigit (n : Nat) : Char := if n < 10 then Char.ofNat (48 + n) else Char.ofNat (87 + n)

/-- `n` written with exactly `width` hexadecimal digits. -/
def hexDigits : (width n : Nat) → List Char
  | 0, _ => []
  | width + 1, n => hexDigits width (n / 16) ++ [hexDigit (n % 16)]

/-- The quote that encloses a text with or without quotes of its own. -/
def quoteFor (holdsSingle holdsDouble : Bool) : Char :=
  if holdsSingle && !holdsDouble then '"' else '\''

def codeEscape (n : Nat) : List Char :=
  if n < 0x100 then '\\' :: 'x' :: hexDigits 2 n
  else if n < 0x10000 then '\\' :: 'u' :: hexDigits 4 n
  else '\\' :: 'U' :: hexDigits 8 n

def quotedChar (quote c : Char) : List Char :=
  if c == '\\' || c == quote then ['\\', c]
  else if c == '\n' then ['\\', 'n']
  else if c == '\r' then ['\\', 'r']
  else if c == '\t' then ['\\', 't']
  else if isPrintable c then [c]
  else codeEscape c.toNat

def quoted (s : List Char) : List Char :=
  let quote := quoteFor (s.contains '\'') (s.contains '"')
  quote :: s.flatMap (quotedChar quote) ++ [quote]

def quotedString (s : String) : String := String.ofList (quoted s.toList)

/-- An octet inside quotes: only printable ASCII is shown as itself. -/
def quotedOctet (quote : Char) (b : UInt8) : List Char :=
  let n := b.toNat
  if 0x20 ≤ n ∧ n ≤ 0x7E then
    let c := Char.ofNat n
    if c == '\\' || c == quote then ['\\', c] else [c]
  else if n = 0x0A then ['\\', 'n']
  else if n = 0x0D then ['\\', 'r']
  else if n = 0x09 then ['\\', 't']
  else '\\' :: 'x' :: hexDigits 2 n

/-- Octets between quotes, marked by a leading `b`. -/
def quotedOctets (s : List UInt8) : List Char :=
  let quote := quoteFor (s.contains 0x27) (s.contains 0x22)
  'b' :: quote :: s.flatMap (quotedOctet quote) ++ [quote]

end Exemplar.Text
