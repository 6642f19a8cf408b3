import Exemplar.Json.Event
/-!
# The place of an error

Where a text stops being JSON, as line and column. This is a second reading of the text, by
characters: it admits the names `NaN` and `Infinity` and numbers of any size, so it may find no
error in a text that cannot be read, and then the end of the text is the place.
-/
namespace Exemplar.Json

/-- The outcome of looking for the first error: its index, none, or an integer too long to be
looked at. -/
inductive Search where
  | error (index : Nat)
  | fine
  | abandoned
  deriving DecidableEq, Repr

inductive Due where
  | value
  | itemOrEnd
  | keyOrEnd
  | key
  | colon
  | separator
  deriving DecidableEq, Repr

/-- The longest integer that is looked at, in digits. -/
def integerDigitLimit : Nat := 4300

def isSpace (c : Char) : Bool := c = ' ' || c = '\t' || c = '\n' || c = '\r'

def isHexDigit (c : Char) : Bool :=
  Decimal.isDigit c || ('a' ≤ c && c ≤ 'f') || ('A' ≤ c && c ≤ 'F')

/-- The end of a string literal: the number of characters through the closing quote, the distance
of a bad character, or no closing quote. -/
inductive StringEnd where
  | closed (count : Nat)
  | bad (distance : Nat)
  | unterminated
  deriving DecidableEq, Repr

def StringEnd.shift (n : Nat) : StringEnd → StringEnd
  | closed count => closed (n + count)
  | bad distance => bad (n + distance)
  | unterminated => unterminated

def findStringEnd : List Char → StringEnd
  | [] => .unterminated
  | '"' :: _ => .closed 1
  | '\\' :: rest =>
    match rest with
    | [] => .unterminated
    | 'u' :: a :: b :: c :: d :: e :: rest =>
      if isHexDigit a && isHexDigit b && isHexDigit c && isHexDigit d then
        (findStringEnd (e :: rest)).shift 6
      else .bad 1
    | 'u' :: _ => .bad 1
    | c :: rest =>
      if ['"', '\\', '/', 'b', 'f', 'n', 'r', 't'].contains c then (findStringEnd rest).shift 2
      else .bad 0
  | c :: rest => if c.toNat < 0x20 then .bad 0 else (findStringEnd rest).shift 1

def digitRun (s : List Char) : Nat := (s.takeWhile Decimal.isDigit).length

def fractionLength : List Char → Nat
  | '.' :: rest => if digitRun rest = 0 then 0 else 1 + digitRun rest
  | _ => 0

def exponentLength : List Char → Nat
  | c :: rest =>
    if c = 'e' || c = 'E' then
      let signs := match rest with
        | '+' :: _ => 1
        | '-' :: _ => 1
        | _ => 0
      let ds := digitRun (rest.drop signs)
      if ds = 0 then 0 else 1 + signs + ds
    else 0
  | [] => 0

/-- The length of the longest number at the head of a text, with the length of its whole part and
whether it is an integer. -/
def numberLength? (s : List Char) : Option (Nat × Nat × Bool) :=
  let signs := match s with
    | '-' :: _ => 1
    | _ => 0
  let body := s.drop signs
  let whole := match body with
    | '0' :: _ => 1
    | _ => digitRun body
  if whole = 0 then none
  else
    let rest := body.drop whole
    let fraction := fractionLength rest
    let exponent := exponentLength (rest.drop fraction)
    some (signs + whole + fraction + exponent, whole, fraction + exponent == 0)

def valueNames : List (List Char) :=
  ["null".toList, "true".toList, "false".toList, "NaN".toList, "Infinity".toList,
    "-Infinity".toList]

/-- The outcome of looking at a value without parts, from its first character on. -/
inductive Plain where
  | taken (count : Nat)
  | error (distance : Nat)
  | abandoned

/-- Look at a string, a name or a number. -/
def plainValue (s : List Char) : Plain :=
  match s with
  | '"' :: rest =>
    match findStringEnd rest with
    | .closed count => .taken (1 + count)
    | .bad distance => .error (1 + distance)
    | .unterminated => .error 0
  | _ =>
    match valueNames.find? fun name => name.isPrefixOf s with
    | some name => .taken name.length
    | none =>
      match numberLength? s with
      | some (count, whole, integral) =>
        if integral && integerDigitLimit < whole then .abandoned else .taken count
      | none => .error 0

def search (due : Due) (stack : List Container) (index : Nat) (s : List Char) : Search :=
  match s with
  | [] => if due = .separator ∧ stack = [] then .fine else .error index
  | c :: rest =>
    if isSpace c then search due stack (index + 1) rest
    else
      match due, stack, c with
      | .separator, .map :: _, ',' => search .key stack (index + 1) rest
      | .separator, .map :: outer, '\x7d' => search .separator outer (index + 1) rest
      | .separator, .list :: _, ',' => search .value stack (index + 1) rest
      | .separator, .list :: outer, ']' => search .separator outer (index + 1) rest
      | .separator, _, _ => .error index
      | .colon, _, ':' => search .value stack (index + 1) rest
      | .colon, _, _ => .error index
      | .keyOrEnd, _ :: outer, '\x7d' => search .separator outer (index + 1) rest
      | .itemOrEnd, _ :: outer, ']' => search .separator outer (index + 1) rest
      | due, _, c =>
        if due = .key || due = .keyOrEnd then
          if c = '"' then
            match findStringEnd rest with
            | .closed count => search .colon stack (index + 1 + count) (rest.drop count)
            | .bad distance => .error (index + 1 + distance)
            | .unterminated => .error index
          else .error index
        else if c = '\x7b' then search .keyOrEnd (.map :: stack) (index + 1) rest
        else if c = '[' then search .itemOrEnd (.list :: stack) (index + 1) rest
        else
          match plainValue (c :: rest) with
          | .error distance => .error (index + distance)
          | .abandoned => .abandoned
          | .taken count =>
            search .separator stack (index + 1 + (count - 1)) (rest.drop (count - 1))
termination_by s.length
decreasing_by all_goals simp only [List.length_drop, List.length_cons]; omega

/-- Line and column of an index: lines end at newline characters. -/
def lineColumn (s : List Char) (index : Nat) : Nat × Nat :=
  let before := s.take index
  (1 + before.count '\n', 1 + (before.reverse.takeWhile (· ≠ '\n')).length)

def isLineBreak (c : Char) : Bool :=
  let n := c.toNat
  (0x0A ≤ n && n ≤ 0x0D) || (0x1C ≤ n && n ≤ 0x1E) || n = 0x85 || n = 0x2028 || n = 0x2029

/-- The lengths of the lines of a text. A carriage return and the newline behind it end one line,
and the end of the text starts no line. -/
def lineLengths (current : Nat) (started : Bool) : List Char → List Nat
  | [] => if started then [current] else []
  | '\r' :: '\n' :: rest => current :: lineLengths 0 false rest
  | c :: rest =>
    if isLineBreak c then current :: lineLengths 0 false rest
    else lineLengths (current + 1) true rest

/-- The end of a text as line and column, the lines being those of the whole text. -/
def endPlace (s : List Char) : Nat × Nat :=
  let lengths := match lineLengths 0 false s with
    | [] => [0]
    | ls => ls
  (lengths.length, lengths.getLastD 0 + 1)

def errorPlace (s : List Char) : Nat × Nat :=
  if s.head? = some (Char.ofNat 0xFEFF) then lineColumn s 0
  else match search .value [] 0 s with
    | .error index => lineColumn s index
    | _ => endPlace s

end Exemplar.Json
