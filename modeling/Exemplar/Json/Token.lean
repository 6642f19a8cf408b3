import Exemplar.Json.Numeral
import Exemplar.Text.Octets
/-!
# Tokens of JSON text

A document is read as octets. `tokens` cuts them into tokens up to the end of the text or the
first octet that fits no token. The end of the text counts as one more blank: only with it is a
number that touches the end complete, and only with it does an unfinished token fail.
-/
namespace Exemplar.Json

/-- What a token says. The octets of a string are those that its escapes stand for. -/
inductive Lexeme where
  | openMap
  | closeMap
  | openList
  | closeList
  | comma
  | colon
  | literal (value : Scalar)
  | string (octets : List UInt8)
  | number (n : Numeral)

/-- A token with the offsets of its first octet and of the octet after its last. -/
structure Token where
  lexeme : Lexeme
  start : Nat
  stop : Nat

inductive LexicalFault where
  | literal
  | controlInString
  | escape
  | hexDigit
  | encoding
  | minusDigit
  | pointDigit
  | exponentDigit
  | comment
  | character
  deriving DecidableEq, Repr

def LexicalFault.message : LexicalFault → String
  | .literal => "invalid string in json text."
  | .controlInString => "invalid character inside string."
  | .escape => "inside a string, '\\' occurs before a character which it may not."
  | .hexDigit => "invalid (non-hex) character occurs after '\\u' inside string."
  | .encoding => "invalid bytes in UTF8 string."
  | .minusDigit => "malformed number, a digit is required after the minus sign."
  | .pointDigit => "malformed number, a digit is required after the decimal point."
  | .exponentDigit => "malformed number, a digit is required after the exponent."
  | .comment => "probable comment found in input text, comments are not enabled."
  | .character => "invalid char in json text."

def LexicalFault.reportedBehind : LexicalFault → Bool
  | .encoding => true
  | .character => true
  | _ => false

/-- The outcome of reading one token: the lexeme with the number of octets behind the first one,
a fault with the distance of its octet from the first one, or the end of the octets. -/
inductive Scan (α : Type) where
  | done (value : α) (count : Nat)
  | fault (cause : LexicalFault) (distance : Nat)
  | unfinished

namespace Scan

def shift {α : Type} (n : Nat) : Scan α → Scan α
  | done a count => done a (n + count)
  | fault c distance => fault c (n + distance)
  | unfinished => unfinished

def map {α β : Type} (f : α → β) : Scan α → Scan β
  | done a count => done (f a) count
  | fault c distance => fault c distance
  | unfinished => unfinished

end Scan

def isBlank (b : UInt8) : Bool :=
  let n := b.toNat
  n = 0x20 || (0x09 ≤ n && n ≤ 0x0D)

def isDigitOctet (b : UInt8) : Bool := 0x30 ≤ b.toNat && b.toNat ≤ 0x39

def hexValue? (b : UInt8) : Option Nat :=
  let n := b.toNat
  if 0x30 ≤ n ∧ n ≤ 0x39 then some (n - 0x30)
  else if 0x41 ≤ n ∧ n ≤ 0x46 then some (n - 0x37)
  else if 0x61 ≤ n ∧ n ≤ 0x66 then some (n - 0x57)
  else none

/-- The value of four hexadecimal digits at the head, or the distance of the first octet that is
none. -/
def hexAt : (digits : Nat) → (value distance : Nat) → List UInt8 → Except (Option Nat) Nat
  | 0, value, _, _ => .ok value
  | _ + 1, _, _, [] => .error none
  | digits + 1, value, distance, b :: rest =>
    match hexValue? b with
    | some d => hexAt digits (value * 16 + d) (distance + 1) rest
    | none => .error (some distance)

/-- The octets of a code point in three or fewer octets, surrogates included. -/
def encodeUnit (n : Nat) : List UInt8 :=
  if n < 0x80 then [Text.octet n]
  else if n < 0x800 then [Text.octet (0xC0 + n / 0x40), Text.octet (0x80 + n % 0x40)]
  else [Text.octet (0xE0 + n / 0x1000), Text.octet (0x80 + n / 0x40 % 0x40),
    Text.octet (0x80 + n % 0x40)]

/-- The octets of the code point that two escaped units make together. The second unit gives its
low ten bits, whatever it is. -/
def encodePair (high low : Nat) : List UInt8 :=
  let n := (high % 0x40) * 0x400 + (high / 0x40 % 0x10 + 1) * 0x10000 + low % 0x400
  [Text.octet (0xF0 + n / 0x40000), Text.octet (0x80 + n / 0x1000 % 0x40),
    Text.octet (0x80 + n / 0x40 % 0x40), Text.octet (0x80 + n % 0x40)]

def isHighUnit (n : Nat) : Bool := 0xD800 ≤ n && n ≤ 0xDBFF

def simpleEscape? (b : UInt8) : Option UInt8 :=
  match b.toNat with
  | 0x22 => some 0x22
  | 0x5C => some 0x5C
  | 0x2F => some 0x2F
  | 0x62 => some 0x08
  | 0x66 => some 0x0C
  | 0x6E => some 0x0A
  | 0x72 => some 0x0D
  | 0x74 => some 0x09
  | _ => none

def stringFollowers? (b : UInt8) : Option Nat :=
  let n := b.toNat
  if 0xC0 ≤ n ∧ n ≤ 0xDF then some 1
  else if 0xE0 ≤ n ∧ n ≤ 0xEF then some 2
  else if 0xF0 ≤ n ∧ n ≤ 0xF7 then some 3
  else none

def prepend (octets : List UInt8) (s : Scan (List UInt8)) : Scan (List UInt8) :=
  s.map (octets ++ ·)

/-- What an escaped unit contributes and how many octets of the text behind it belong to it: a unit
that opens a pair takes the next escaped unit with it, or leaves a question mark. -/
def unitOctets (unit : Nat) (behind : List UInt8) : List UInt8 × Nat :=
  if isHighUnit unit then
    match behind with
    | 0x5C :: 0x75 :: more =>
      match hexAt 4 0 0 more with
      | .ok low => (encodePair unit low, 6)
      | .error _ => ([0x3F], 0)
    | _ => ([0x3F], 0)
  else (encodeUnit unit, 0)

def scanString (s : List UInt8) : Scan (List UInt8) :=
  match s with
  | [] => .unfinished
  | b :: rest =>
    if b = 0x22 then .done [] 1
    else if b = 0x5C then
      match rest with
      | [] => .unfinished
      | e :: rest =>
        match simpleEscape? e with
        | some octet => (prepend [octet] (scanString rest)).shift 2
        | none =>
          if e = 0x75 then
            match hexAt 4 0 0 rest with
            | .error none => .unfinished
            | .error (some distance) => .fault .hexDigit (2 + distance)
            | .ok unit =>
              let (octets, extra) := unitOctets unit (rest.drop 4)
              (prepend octets (scanString ((rest.drop 4).drop extra))).shift (6 + extra)
          else .fault .escape 1
    else if b.toNat < 0x20 then .fault .controlInString 0
    else if b.toNat < 0x80 then (prepend [b] (scanString rest)).shift 1
    else
      match stringFollowers? b with
      | none => .fault .encoding 0
      | some more =>
        let tail := rest.take more
        let good := tail.takeWhile Text.isContinuation
        if good.length < tail.length then .fault .encoding (1 + good.length)
        else if tail.length < more then .unfinished
        else (prepend (b :: tail) (scanString (rest.drop more))).shift (1 + more)
termination_by s.length
decreasing_by all_goals simp only [List.length_drop, List.length_cons]; omega

def leadingDigits (s : List UInt8) : List Char :=
  (s.takeWhile isDigitOctet).map fun b => Char.ofNat b.toNat

/-- Read the exponent of a number from behind its letter: its value and the octets it takes. -/
def scanExponent (s : List UInt8) : Scan Int :=
  let (negative, signs) := match s with
    | 0x2D :: _ => (true, 1)
    | 0x2B :: _ => (false, 1)
    | _ => (false, 0)
  match leadingDigits (s.drop signs) with
  | [] => .fault .exponentDigit signs
  | ds =>
    let n : Int := Decimal.value ds
    .done (if negative then -n else n) (signs + ds.length)

/-- Read what may follow the whole part of a number: a fraction and an exponent. -/
def scanTail (negative : Bool) (whole : List Char) (s : List UInt8) : Scan Numeral :=
  let exponentAt (fraction : List Char) (integral : Bool) (s : List UInt8) : Scan Numeral :=
    match s with
    | b :: rest =>
      if b = 0x65 || b = 0x45 then
        ((scanExponent rest).map fun e => ⟨negative, whole, fraction, e, false⟩).shift 1
      else .done ⟨negative, whole, fraction, 0, integral⟩ 0
    | [] => .done ⟨negative, whole, fraction, 0, integral⟩ 0
  match s with
  | 0x2E :: rest =>
    match leadingDigits rest with
    | [] => .fault .pointDigit 1
    | ds => (exponentAt ds false (rest.drop ds.length)).shift (1 + ds.length)
  | _ => exponentAt [] true s

/-- Read a number without its sign: either a lone zero or digits that start with another one. -/
def scanMagnitude (negative : Bool) (s : List UInt8) : Scan Numeral :=
  match leadingDigits s with
  | [] => .fault .minusDigit 0
  | '0' :: _ => (scanTail negative ['0'] (s.drop 1)).shift 1
  | ds => (scanTail negative ds (s.drop ds.length)).shift ds.length

def scanLiteral (value : Scalar) : (letters s : List UInt8) → (distance : Nat) → Scan Lexeme
  | [], _, distance => .done (.literal value) distance
  | _ :: _, [], _ => .unfinished
  | l :: letters, b :: s, distance =>
    if l = b then scanLiteral value letters s (distance + 1) else .fault .literal distance

/-- Read the token that starts with `first`; counts and distances are from the octet behind it. -/
def scanToken (first : UInt8) (rest : List UInt8) : Scan Lexeme :=
  match first.toNat with
  | 0x7B => .done .openMap 0
  | 0x7D => .done .closeMap 0
  | 0x5B => .done .openList 0
  | 0x5D => .done .closeList 0
  | 0x2C => .done .comma 0
  | 0x3A => .done .colon 0
  | 0x22 => (scanString rest).map .string
  | 0x74 => scanLiteral (.bool true) [0x72, 0x75, 0x65] rest 0
  | 0x66 => scanLiteral (.bool false) [0x61, 0x6C, 0x73, 0x65] rest 0
  | 0x6E => scanLiteral .null [0x75, 0x6C, 0x6C] rest 0
  | 0x2D => (scanMagnitude true rest).map .number
  | _ =>
    if isDigitOctet first then
      match scanMagnitude false (first :: rest) with
      | .done n count => .done (.number n) (count - 1)
      | .fault c distance => .fault c (distance - 1)
      | .unfinished => .unfinished
    else .unfinished

/-- How the octets of a document end: all read, inside an unfinished token, or at a fault, given
with the offset of its octet. -/
inductive Ending where
  | clean
  | unfinished
  | fault (cause : LexicalFault) (place : Nat)

def startsToken (b : UInt8) : Bool :=
  isDigitOctet b ||
    [0x7B, 0x7D, 0x5B, 0x5D, 0x2C, 0x3A, 0x22, 0x74, 0x66, 0x6E, 0x2D].contains b.toNat

def tokensFrom (offset : Nat) (s : List UInt8) : List Token × Ending :=
  match s with
  | [] => ([], .clean)
  | b :: rest =>
    if isBlank b then tokensFrom (offset + 1) rest
    else if b = 0x2F then ([], .fault .comment offset)
    else if !startsToken b then ([], .fault .character offset)
    else match scanToken b rest with
      | .unfinished => ([], .unfinished)
      | .fault cause distance => ([], .fault cause (offset + 1 + distance))
      | .done lexeme count =>
        let stop := offset + 1 + count
        let (more, ending) := tokensFrom stop (rest.drop count)
        (⟨lexeme, offset, stop⟩ :: more, ending)
termination_by s.length
decreasing_by all_goals simp only [List.length_drop, List.length_cons]; omega

/-- The tokens of a document, whose end counts as one more blank. -/
def tokens (data : List UInt8) : List Token × Ending := tokensFrom 0 (data ++ [0x20])

end Exemplar.Json
