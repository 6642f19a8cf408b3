import Exemplar.Text.Digit
/-!
# Literals

A literal writes a value down: a number, a quoted string, a word for truth or for nothing, or
literals grouped by round brackets or by braces. A real and an imaginary number make a complex one.
Here it is only asked whether a text is a literal.
-/
namespace Exemplar.Text.Literal

/-- What matters of the value of a literal: which numbers may take a sign and be added, which
strings may stand side by side, and what may stand in a set. -/
inductive Kind where
  | real (signed : Bool)
  | imaginary (signed : Bool)
  | text
  | octets
  | fixed
  | changeable
  deriving DecidableEq, Repr

def Kind.mayBeKey (s : Kind) : Bool := s != .changeable

/-- Whether a character is a decimal digit of ASCII. -/
def isPlainDigit (c : Char) : Bool := '0' ≤ c && c ≤ '9'

def isWordChar (c : Char) : Bool :=
  isPlainDigit c || ('a' ≤ c && c ≤ 'z') || ('A' ≤ c && c ≤ 'Z') || c = '_' || 0x80 ≤ c.toNat

/-- Blanks between the parts of a literal; line breaks count inside brackets. -/
def isGap (inside : Bool) (c : Char) : Bool :=
  c = ' ' || c = '\t' || c = '\x0c' || (inside && (c = '\n' || c = '\r'))

/-- A text without the blanks and remarks in front of it. A backslash joins the next line. -/
def skip (inside : Bool) : (fuel : Nat) → List Char → List Char
  | 0, s => s
  | fuel + 1, s =>
    match s.dropWhile (isGap inside) with
    | '#' :: rest => skip inside fuel (rest.dropWhile (· ≠ '\n'))
    | '\\' :: '\n' :: rest => skip inside fuel rest
    | rest => rest

def isGrouped (digit : Char → Bool) : List Char → Bool
  | [] => false
  | [c] => digit c
  | c :: '_' :: rest => digit c && isGrouped digit rest
  | c :: rest => digit c && isGrouped digit rest

def isDigitIn (base : Nat) (c : Char) : Bool :=
  let d := if isPlainDigit c then c.toNat - '0'.toNat
    else if 'a' ≤ c.toLower && c.toLower ≤ 'f' then c.toLower.toNat - 'a'.toNat + 10
    else 16
  d < base

def isBased (base : Nat) : List Char → Bool
  | '_' :: rest => isGrouped (isDigitIn base) rest
  | rest => isGrouped (isDigitIn base) rest

def isPointed (s : List Char) : Bool :=
  let before := s.takeWhile (· ≠ '.')
  match s.dropWhile (· ≠ '.') with
  | '.' :: after =>
    (before.isEmpty || isGrouped isPlainDigit before) &&
      (after.isEmpty || isGrouped isPlainDigit after) && !(before.isEmpty && after.isEmpty)
  | _ => false

def isFraction (s : List Char) : Bool :=
  let mantissa := s.takeWhile (· ≠ 'e')
  match s.dropWhile (· ≠ 'e') with
  | 'e' :: '+' :: power => (isPointed mantissa || isGrouped isPlainDigit mantissa) &&
    isGrouped isPlainDigit power
  | 'e' :: '-' :: power => (isPointed mantissa || isGrouped isPlainDigit mantissa) &&
    isGrouped isPlainDigit power
  | 'e' :: power => (isPointed mantissa || isGrouped isPlainDigit mantissa) &&
    isGrouped isPlainDigit power
  | _ => isPointed mantissa

/-- Whether a text in small letters is a whole number. No other digit follows a zero at the
start. -/
def isWhole : List Char → Bool
  | '0' :: 'x' :: rest => isBased 16 rest
  | '0' :: 'o' :: rest => isBased 8 rest
  | '0' :: 'b' :: rest => isBased 2 rest
  | '0' :: rest => isGrouped isPlainDigit ('0' :: rest) && rest.all fun c => c = '0' || c = '_'
  | s => isGrouped isPlainDigit s

def number? (s : List Char) : Option Kind :=
  let s := s.map Char.toLower
  match s.reverse with
  | 'j' :: digits =>
    if isGrouped isPlainDigit digits.reverse || isFraction digits.reverse then
      some (.imaginary false)
    else none
  | _ => if isWhole s || isFraction s then some (.real false) else none

/-- The end of a run of word characters and points; a sign may follow the letter of an
exponent. -/
def numberRun : List Char → List Char × List Char
  | [] => ([], [])
  | [c] => if isWordChar c || c = '.' then ([c], []) else ([], [c])
  | c :: sign :: rest =>
    if isWordChar c || c = '.' then
      if (c = 'e' || c = 'E') && (sign = '+' || sign = '-') then
        let (run, after) := numberRun rest
        (c :: sign :: run, after)
      else
        let (run, after) := numberRun (sign :: rest)
        (c :: run, after)
    else ([], c :: sign :: rest)

/-- The number at the start of a text. The digits behind the letter of base sixteen take no
sign. -/
def numberAt? (s : List Char) : Option (Kind × List Char) :=
  let plain := (s.takeWhile isWordChar, s.dropWhile isWordChar)
  let (run, after) :=
    match s with
    | '0' :: 'x' :: _ => plain
    | '0' :: 'X' :: _ => plain
    | _ => numberRun s
  (number? run).map fun sort => (sort, after)

def startsWithHex (count : Nat) (s : List Char) : Bool :=
  (s.take count).length = count && (s.take count).all (isDigitIn 16)

/-- How a string is written: as octets, with backslashes as they are, and with which quotes. -/
structure Quoting where
  octets : Bool
  raw : Bool
  quote : Char
  tripled : Bool

/-- Whether an escape that begins with a character behind a backslash is complete. -/
def escapes (q : Quoting) (c : Char) (rest : List Char) : Bool :=
  if q.raw then true
  else match c with
    | 'x' => startsWithHex 2 rest
    | 'u' => q.octets || startsWithHex 4 rest
    | 'U' => q.octets || (startsWithHex 8 rest && rest.take 2 = ['0', '0'] &&
        (rest[2]? = some '0' || (rest[2]? = some '1' && rest[3]? = some '0')))
    | 'N' => q.octets
    | _ => true

def behindString? (q : Quoting) : List Char → Option (List Char)
  | [] => none
  | [c] => if c = q.quote && !q.tripled then some [] else none
  | c :: d :: rest =>
    if q.octets && 0x80 ≤ c.toNat then none
    else if c = '\\' then
      if escapes q d rest && !(q.octets && 0x80 ≤ d.toNat) then behindString? q rest else none
    else if c = q.quote then
      if !q.tripled then some (d :: rest)
      else match d, rest with
        | d, e :: rest =>
          if d = c && e = c then some rest else behindString? q (d :: e :: rest)
        | _, [] => none
    else if c = '\n' && !q.tripled then none
    else behindString? q (d :: rest)

/-- The letters that may stand before a quote: whether the string is one of octets, and whether its
backslashes are kept. -/
def stringLetters : List (String × Bool × Bool) :=
  [("", false, false), ("r", false, true), ("u", false, false), ("b", true, false),
    ("br", true, true), ("rb", true, true)]

def stringAt? (s : List Char) : Option (Kind × List Char) :=
  let letters := String.ofList ((s.takeWhile isWordChar).map Char.toLower)
  match stringLetters.lookup letters, s.dropWhile isWordChar with
  | some (octets, raw), quote :: rest =>
    if quote = '"' || quote = '\'' then
      let sort : Kind := if octets then .octets else .text
      match rest with
      | c :: d :: rest' =>
        if c = quote && d = quote then
          (behindString? ⟨octets, raw, quote, true⟩ rest').map fun after => (sort, after)
        else (behindString? ⟨octets, raw, quote, false⟩ rest).map fun after => (sort, after)
      | _ => (behindString? ⟨octets, raw, quote, false⟩ rest).map fun after => (sort, after)
    else none
  | _, _ => none

def fixedWords : List String := ["True", "False", "None"]

def Kind.signed? : Kind → Option Kind
  | .real false => some (.real true)
  | .imaginary false => some (.imaginary true)
  | _ => none

mutual
/-- The literal at the start of a text, inside brackets or outside. `fuel` bounds the parts. -/
def valueAt? (inside : Bool) : (fuel : Nat) → List Char → Option (Kind × List Char)
  | 0, _ => none
  | fuel + 1, s => do
    let (left, rest) ← signedAt? inside fuel (skip inside s.length s)
    match skip inside rest.length rest with
    | c :: more =>
      if c = '+' || c = '-' then
        let (right, rest) ← partAt? inside fuel (skip inside more.length more)
        match left, right with
        | .real _, .imaginary false => return (.fixed, rest)
        | _, _ => none
      else return (left, rest)
    | [] => return (left, rest)
/-- A part with a sign before it, if there is one. -/
def signedAt? (inside : Bool) : (fuel : Nat) → List Char → Option (Kind × List Char)
  | 0, _ => none
  | fuel + 1, c :: rest => do
    if c = '+' || c = '-' then
      let (sort, rest) ← partAt? inside fuel (skip inside rest.length rest)
      return (← sort.signed?, rest)
    else partAt? inside fuel (c :: rest)
  | _, [] => none
/-- A literal without signs and sums. -/
def partAt? (inside : Bool) : (fuel : Nat) → List Char → Option (Kind × List Char)
  | 0, _ => none
  | fuel + 1, s =>
    match s with
    | [] => none
    | '(' :: rest => groupAt? fuel rest
    | '\x7b' :: rest => bracesAt? fuel rest
    | '.' :: '.' :: '.' :: rest => some (.fixed, rest)
    | c :: _ =>
      if isPlainDigit c || c = '.' then numberAt? s
      else match stringAt? s with
        | some (sort, rest) => stringsAt? inside fuel sort rest
        | none =>
          let word := String.ofList (s.takeWhile isWordChar)
          let rest := s.dropWhile isWordChar
          if fixedWords.contains word then some (.fixed, rest)
          else if word = "set" then emptySetAt? inside rest
          else none
def stringsAt? (inside : Bool) : (fuel : Nat) → Kind → List Char → Option (Kind × List Char)
  | 0, _, _ => none
  | fuel + 1, sort, s =>
    match stringAt? (skip inside s.length s) with
    | some (other, rest) => if other = sort then stringsAt? inside fuel sort rest else none
    | none => some (sort, s)
/-- The brackets that call for an empty set. -/
def emptySetAt? (inside : Bool) (s : List Char) : Option (Kind × List Char) :=
  match skip inside s.length s with
  | '(' :: rest =>
    match skip true rest.length rest with
    | ')' :: rest => some (.changeable, rest)
    | _ => none
  | _ => none
def groupAt? : (fuel : Nat) → List Char → Option (Kind × List Char)
  | 0, _ => none
  | fuel + 1, s =>
    match skip true s.length s with
    | ')' :: rest => some (.fixed, rest)
    | s => do
      let (sort, rest) ← valueAt? true fuel s
      match skip true rest.length rest with
      | ')' :: rest => return (sort, rest)
      | ',' :: rest =>
        let (keys, rest) ← listAt? ')' fuel rest
        return (if sort.mayBeKey && keys then .fixed else .changeable, rest)
      | _ => none
/-- Literals separated by commas up to a closing bracket, and whether all may be keys. -/
def listAt? (close : Char) : (fuel : Nat) → List Char → Option (Bool × List Char)
  | 0, _ => none
  | fuel + 1, s =>
    match skip true s.length s with
    | [] => none
    | c :: rest =>
      if c = close then some (true, rest)
      else do
        let (sort, rest) ← valueAt? true fuel (c :: rest)
        match skip true rest.length rest with
        | ',' :: rest =>
          let (keys, rest) ← listAt? close fuel rest
          return (sort.mayBeKey && keys, rest)
        | d :: rest => if d = close then return (sort.mayBeKey, rest) else none
        | [] => none
/-- What stands behind a brace: a set or a table. -/
def bracesAt? : (fuel : Nat) → List Char → Option (Kind × List Char)
  | 0, _ => none
  | fuel + 1, s =>
    match skip true s.length s with
    | '\x7d' :: rest => some (.changeable, rest)
    | s => do
      let (sort, rest) ← valueAt? true fuel s
      if !sort.mayBeKey then none
      else match skip true rest.length rest with
        | '\x7d' :: rest => return (.changeable, rest)
        | ',' :: rest =>
          let (keys, rest) ← listAt? '\x7d' fuel rest
          if keys then return (.changeable, rest) else none
        | ':' :: rest => do
          let (_, rest) ← valueAt? true fuel rest
          tableAt? fuel rest
        | _ => none
def tableAt? : (fuel : Nat) → List Char → Option (Kind × List Char)
  | 0, _ => none
  | fuel + 1, s =>
    match skip true s.length s with
    | '\x7d' :: rest => some (.changeable, rest)
    | ',' :: rest =>
      match skip true rest.length rest with
      | '\x7d' :: rest => some (.changeable, rest)
      | s => do
        let (sort, rest) ← valueAt? true fuel s
        if !sort.mayBeKey then none
        else match skip true rest.length rest with
          | ':' :: rest => do
            let (_, rest) ← valueAt? true fuel rest
            tableAt? fuel rest
          | _ => none
    | _ => none
end

/-- Whether nothing but blanks, remarks and line breaks is left. -/
def isOver (s : List Char) : Bool := (skip true s.length s).isEmpty

def endsWell : (fuel : Nat) → List Char → Bool
  | 0, _ => false
  | fuel + 1, s =>
    isOver s || match skip false s.length s with
      | ',' :: rest =>
        isOver rest || match valueAt? false fuel (skip false rest.length rest) with
          | some (_, rest) => endsWell fuel rest
          | none => false
      | _ => false

/-- Whether a text is a literal, or several ones separated by commas. -/
def isLiteral (s : List Char) : Bool :=
  let fuel := 8 * s.length + 8
  match valueAt? false fuel s with
  | some (_, rest) => endsWell fuel rest
  | none => false

end Exemplar.Text.Literal
