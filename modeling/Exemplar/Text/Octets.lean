/-!
# Text as octets

UTF-8 in both directions. `encode` writes characters, `decode?` reads them back and refuses
everything that no text is written as, and `decodeLossy` reads any octets, with one
replacement character for each broken sequence.
-/
namespace Exemplar.Text

def octet (n : Nat) : UInt8 := UInt8.ofNat n

def encodeChar (c : Char) : List UInt8 :=
  let n := c.toNat
  if n < 0x80 then [octet n]
  else if n < 0x800 then [octet (0xC0 + n / 0x40), octet (0x80 + n % 0x40)]
  else if n < 0x10000 then
    [octet (0xE0 + n / 0x1000), octet (0x80 + n / 0x40 % 0x40), octet (0x80 + n % 0x40)]
  else
    [octet (0xF0 + n / 0x40000), octet (0x80 + n / 0x1000 % 0x40),
      octet (0x80 + n / 0x40 % 0x40), octet (0x80 + n % 0x40)]

def encode (s : List Char) : List UInt8 := s.flatMap encodeChar

def encodeString (s : String) : List UInt8 := encode s.toList

def isContinuation (b : UInt8) : Bool := 0x80 ≤ b.toNat && b.toNat ≤ 0xBF

/-- The second octets that a lead octet of a longer sequence admits: this rules out overlong
forms, surrogates and code points beyond the last one. -/
def secondRange (lead : Nat) : Nat × Nat :=
  if lead = 0xE0 then (0xA0, 0xBF)
  else if lead = 0xED then (0x80, 0x9F)
  else if lead = 0xF0 then (0x90, 0xBF)
  else if lead = 0xF4 then (0x80, 0x8F)
  else (0x80, 0xBF)

/-- How many octets follow a lead octet; none is given for an octet that leads nothing. -/
def followers? (lead : Nat) : Option Nat :=
  if lead < 0x80 then some 0
  else if 0xC2 ≤ lead ∧ lead ≤ 0xDF then some 1
  else if 0xE0 ≤ lead ∧ lead ≤ 0xEF then some 2
  else if 0xF0 ≤ lead ∧ lead ≤ 0xF4 then some 3
  else none

/-- What stands at the head of a non-empty list of octets: a character with the number of
octets it took, or a broken sequence with the number of octets to drop. -/
inductive Head where
  | char (c : Char) (width : Nat)
  | badLead
  | badContinuation (width : Nat)
  deriving DecidableEq, Repr

/-- Read the head of `lead :: rest`. -/
def readHead (lead : UInt8) (rest : List UInt8) : Head :=
  let n := lead.toNat
  match followers? n with
  | none => .badLead
  | some 0 => .char (Char.ofNat n) 1
  | some more =>
    match rest with
    | [] => .badContinuation 1
    | b :: rest =>
      let (low, high) := secondRange n
      if b.toNat < low || high < b.toNat then .badContinuation 1
      else if more = 1 then .char (Char.ofNat ((n - 0xC0) * 0x40 + (b.toNat - 0x80))) 2
      else match rest with
        | [] => .badContinuation 2
        | c :: rest =>
          if !isContinuation c then .badContinuation 2
          else if more = 2 then
            .char (Char.ofNat
              ((n - 0xE0) * 0x1000 + (b.toNat - 0x80) * 0x40 + (c.toNat - 0x80))) 3
          else match rest with
            | [] => .badContinuation 3
            | d :: _ =>
              if !isContinuation d then .badContinuation 3
              else .char (Char.ofNat ((n - 0xF0) * 0x40000 + (b.toNat - 0x80) * 0x1000 +
                (c.toNat - 0x80) * 0x40 + (d.toNat - 0x80))) 4

/-- Why octets are not a text: the offending octet, its offset, and whether it cannot lead a
sequence at all. -/
structure DecodeFault where
  value : UInt8
  offset : Nat
  badLead : Bool
  deriving DecidableEq, Repr

/-- Read octets that must be the encoding of a text; `offset` counts those already read. -/
def decodeFrom (offset : Nat) (s : List UInt8) : Except DecodeFault (List Char) :=
  match s with
  | [] => .ok []
  | lead :: rest =>
    match readHead lead rest with
    | .char c width =>
      match decodeFrom (offset + width) (rest.drop (width - 1)) with
      | .ok cs => .ok (c :: cs)
      | .error f => .error f
    | .badLead => .error ⟨lead, offset, true⟩
    | .badContinuation _ => .error ⟨lead, offset, false⟩
termination_by s.length
decreasing_by simp only [List.length_drop, List.length_cons]; omega

def decode? (s : List UInt8) : Except DecodeFault (List Char) := decodeFrom 0 s

def replacement : Char := Char.ofNat 0xFFFD

/-- Read any octets, writing a replacement character for each broken sequence. -/
def decodeLossy (s : List UInt8) : List Char :=
  match s with
  | [] => []
  | lead :: rest =>
    match readHead lead rest with
    | .char c width => c :: decodeLossy (rest.drop (width - 1))
    | .badLead => replacement :: decodeLossy rest
    | .badContinuation width => replacement :: decodeLossy (rest.drop (width - 1))
termination_by s.length
decreasing_by all_goals simp only [List.length_drop, List.length_cons]; omega

end Exemplar.Text
