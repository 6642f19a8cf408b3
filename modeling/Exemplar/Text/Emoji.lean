import Exemplar.Text.Case
import Exemplar.Text.Digit
import Exemplar.Text.Emoji.Table
/-!
# Codes of emoji

A name between colons is a code, and an emoji is shown in its place: `:bug:` is a beetle. The name
may end in a variant, which asks for a coloured picture or for a letter in black and white. A code
without an emoji is shown as it is.
-/
namespace Exemplar.Text.Emoji

/-- What an emoji looks like, as its characters. It may come in the tones of skin. -/
structure Picture where
  shown : List Char
  toned : Bool

/-- The picture that is written by code points in hexadecimal digits, with a star behind those of a
picture that comes in tones. -/
def pictureOf (written : List Char) : Picture :=
  let digit (c : Char) : Nat := if c ≤ '9' then c.toNat - '0'.toNat else c.toNat - 'A'.toNat + 10
  let number (ds : List Char) : Char := Char.ofNat (ds.foldl (fun n c => n * 16 + digit c) 0)
  let codes := (String.ofList (written.filter (· ≠ '*'))).splitOn "-"
  ⟨codes.map fun code => number code.toList, written.getLast? = some '*'⟩

/-- The names in a list of words with their pictures; a word that begins a picture comes before its
names. -/
def entriesOf (current : Picture) : List (List Char) → List (String × Picture)
  | [] => []
  | ('U' :: '+' :: written) :: rest => entriesOf (pictureOf written) rest
  | name :: rest => (String.ofList name, current) :: entriesOf current rest

/-- All pictures by name, except for the tones. -/
def pictures : List (String × Picture) := entriesOf ⟨[], false⟩ (words table.toList)

/-- The tones of skin: how a name ends that asks for one, and the character that gives it. -/
def tones : List (List Char × Char) := [
  ("_light_skin_tone".toList, Char.ofNat 0x1F3FB),
  ("_medium-light_skin_tone".toList, Char.ofNat 0x1F3FC),
  ("_medium_skin_tone".toList, Char.ofNat 0x1F3FD),
  ("_medium-dark_skin_tone".toList, Char.ofNat 0x1F3FE),
  ("_dark_skin_tone".toList, Char.ofNat 0x1F3FF)]

def coloured : Char := Char.ofNat 0xFE0F

def monochrome : Char := Char.ofNat 0xFE0E

/-- A picture in a tone: the tone follows the first character, in the place of a variant. -/
def inTone (tone : Char) : List Char → List Char
  | [] => []
  | c :: d :: rest => if d = coloured then c :: tone :: rest else c :: tone :: d :: rest
  | [c] => [c, tone]

def tonedPicture? (name ending : List Char) (tone : Char) : Option (List Char) :=
  if ending.isSuffixOf name then
    let base := String.ofList (name.take (name.length - ending.length))
    ((pictures.lookup base).filter Picture.toned).map fun p => inTone tone p.shown
  else none

def named? (name : List Char) : Option (List Char) :=
  match pictures.lookup (String.ofList name) with
  | some p => some p.shown
  | none => tones.findSome? fun (ending, tone) => tonedPicture? name ending tone

/-- How a code may end: the ending, and the variant that it asks for. -/
def endings : List (List Char × List Char) :=
  [("-emoji:".toList, [coloured]), ("-text:".toList, [monochrome]), (":".toList, [])]

/-- The end of a code at the start of a text: the ending, its variant, and the text behind it. -/
def ending? (s : List Char) : Option (List Char × List Char × List Char) :=
  (endings.find? fun e => e.1.isPrefixOf s).map fun (ending, variant) =>
    (ending, variant, s.drop ending.length)

/-- A code without its first colon. -/
structure Code where
  name : List Char
  ending : List Char
  variant : List Char

/-- The code that a text goes on with behind a colon, and the text behind the code. No blank stands
in a code. -/
def code? (s : List Char) : Option (Code × List Char) :=
  match ending? s with
  | some (ending, variant, after) => some (⟨[], ending, variant⟩, after)
  | none =>
    match s with
    | [] => none
    | c :: rest =>
      if isBlank c then none
      else (code? rest).map fun (code, after) => ({ code with name := c :: code.name }, after)

theorem ending?_length {s ending variant after : List Char}
    (h : ending? s = some (ending, variant, after)) : after.length ≤ s.length := by
  simp only [ending?, Option.map_eq_some_iff] at h
  obtain ⟨e, _, h⟩ := h
  simp only [Prod.mk.injEq] at h
  obtain ⟨_, _, rfl⟩ := h
  simp

/-- Nothing is added behind a code. -/
theorem code?_length {s after : List Char} {code : Code} (h : code? s = some (code, after)) :
    after.length ≤ s.length := by
  induction s generalizing code with
  | nil =>
    unfold code? at h
    split at h
    · next he =>
      simp only [Option.some.injEq, Prod.mk.injEq] at h
      obtain ⟨_, rfl⟩ := h
      exact ending?_length he
    · simp at h
  | cons c rest ih =>
    unfold code? at h
    split at h
    · next he =>
      simp only [Option.some.injEq, Prod.mk.injEq] at h
      obtain ⟨_, rfl⟩ := h
      exact ending?_length he
    · simp only at h
      split at h
      · simp at h
      · obtain ⟨⟨code', after'⟩, h', heq⟩ := Option.map_eq_some_iff.1 h
        simp only [Prod.mk.injEq] at heq
        obtain ⟨_, rfl⟩ := heq
        exact Nat.le_succ_of_le (ih h')

def Code.shown (code : Code) : List Char :=
  match named? (lowered code.name) with
  | some picture => picture ++ code.variant
  | none => ':' :: code.name ++ code.ending

def replaceCodes (s : List Char) : List Char :=
  match s with
  | [] => []
  | ':' :: rest =>
    match h : code? rest with
    | some (code, after) =>
      have := code?_length h
      code.shown ++ replaceCodes after
    | none => ':' :: replaceCodes rest
  | c :: rest => c :: replaceCodes rest
termination_by s.length

end Exemplar.Text.Emoji
