import Exemplar.Json.Numeral
import Exemplar.Json.Position
import Exemplar.Json.Reader
import Exemplar.Proofs.Document
import Exemplar.Text.Octets

/-! The grammar of documents. One tree has many texts: blanks may stand around every value, characters
of a string may be escaped, and a number may be written with an exponent. A reader follows the grammar
if it gives the events of a tree for each of its texts. -/
namespace Exemplar.Json

def AllDigits (ds : List Char) : Prop := ∀ c ∈ ds, Decimal.isDigit c = true

/-- The whole part of a number is a lone zero or does not start with one. -/
def WholePart (ds : List Char) : Prop :=
  ds = ['0'] ∨ ∃ c cs, ds = c :: cs ∧ c ≠ '0'

inductive ExponentText : List Char → Int → Prop
  | plain {letter : Char} {ds : List Char} (hletter : letter = 'e' ∨ letter = 'E') (hne : ds ≠ [])
      (hd : AllDigits ds) : ExponentText (letter :: ds) (Decimal.value ds)
  | signed {letter : Char} {ds : List Char} (hletter : letter = 'e' ∨ letter = 'E')
      (negative : Bool) (hne : ds ≠ []) (hd : AllDigits ds) :
      ExponentText (letter :: (if negative then '-' else '+') :: ds)
        (if negative then -(Decimal.value ds : Int) else Decimal.value ds)

inductive MagnitudeText (negative : Bool) : List Char → Numeral → Prop
  | integer {ds : List Char} (hw : WholePart ds) (hd : AllDigits ds) :
      MagnitudeText negative ds ⟨negative, ds, [], 0, true⟩
  | fraction {ds fs : List Char} (hw : WholePart ds) (hd : AllDigits ds) (hne : fs ≠ [])
      (hf : AllDigits fs) : MagnitudeText negative (ds ++ '.' :: fs) ⟨negative, ds, fs, 0, false⟩
  | exponent {ds es : List Char} {e : Int} (hw : WholePart ds) (hd : AllDigits ds)
      (he : ExponentText es e) : MagnitudeText negative (ds ++ es) ⟨negative, ds, [], e, false⟩
  | scaled {ds fs es : List Char} {e : Int} (hw : WholePart ds) (hd : AllDigits ds) (hne : fs ≠ [])
      (hf : AllDigits fs) (he : ExponentText es e) :
      MagnitudeText negative (ds ++ '.' :: fs ++ es) ⟨negative, ds, fs, e, false⟩

def withSign (negative : Bool) (text : List Char) : List Char :=
  if negative then '-' :: text else text

def shortEscapes : List (Char × Char) :=
  [('"', '"'), ('\\', '\\'), ('/', '/'), ('b', '\x08'), ('f', '\x0c'), ('n', '\n'), ('r', '\r'),
    ('t', '\t')]

def hexDigitValue? (c : Char) : Option Nat :=
  if Decimal.isDigit c then some (c.toNat - 0x30)
  else if 'A' ≤ c ∧ c ≤ 'F' then some (c.toNat - 0x37)
  else if 'a' ≤ c ∧ c ≤ 'f' then some (c.toNat - 0x57)
  else none

def hexNumber? (n : Nat) : List Char → Option Nat
  | [] => some n
  | c :: cs =>
    match hexDigitValue? c with
    | some d => hexNumber? (n * 16 + d) cs
    | none => none

structure UnitText (ds : List Char) (n : Nat) : Prop where
  length : ds.length = 4
  number : hexNumber? 0 ds = some n

/-- The texts of a string between its quotes. A character beyond the units takes two of them. -/
inductive Spells : List Char → List Char → Prop
  | nil : Spells [] []
  | plain {c : Char} {cs s : List Char} (hquote : c ≠ '"') (hback : c ≠ '\\')
      (hlow : 0x20 ≤ c.toNat) (rest : Spells cs s) : Spells (c :: cs) (c :: s)
  | escape {letter c : Char} {cs s : List Char} (h : (letter, c) ∈ shortEscapes)
      (rest : Spells cs s) : Spells ('\\' :: letter :: cs) (c :: s)
  | unit {ds cs s : List Char} {c : Char} (h : UnitText ds c.toNat) (rest : Spells cs s) :
      Spells ('\\' :: 'u' :: (ds ++ cs)) (c :: s)
  | pair {ds ds' cs s : List Char} {c : Char} {high low : Nat} (hhigh : high < 0x400)
      (hlow : low < 0x400) (h : UnitText ds (0xD800 + high)) (h' : UnitText ds' (0xDC00 + low))
      (hc : c.toNat = 0x10000 + high * 0x400 + low) (rest : Spells cs s) :
      Spells ('\\' :: 'u' :: (ds ++ '\\' :: 'u' :: (ds' ++ cs))) (c :: s)

def Blanks (cs : List Char) : Prop := ∀ c ∈ cs, isSpace c = true

/-- What stretches of a text stand for: a value by itself or between blanks, the items of a list, and
the entries of a map. -/
inductive Phrase where
  | value (v : Json)
  | padded (v : Json)
  | items (xs : List Json)
  | entry (name : String) (v : Json)
  | entries (xs : List (Scalar × Json))

inductive Spelled : Phrase → List Char → Prop
  | null : Spelled (.value null) "null".toList
  | true : Spelled (.value (.scalar (.bool true))) "true".toList
  | false : Spelled (.value (.scalar (.bool false))) "false".toList
  | number {negative : Bool} {text : List Char} {n : Numeral} (h : MagnitudeText negative text n) :
      Spelled (.value (.scalar n.scalar)) (withSign negative text)
  | string {text s : List Char} (h : Spells text s) :
      Spelled (.value (str (String.ofList s))) ('"' :: (text ++ ['"']))
  | noItems {bs : List Char} (h : Blanks bs) : Spelled (.value (.list [])) ('[' :: (bs ++ [']']))
  | list {xs : List Json} {text : List Char} (h : Spelled (.items xs) text) :
      Spelled (.value (.list xs)) ('[' :: (text ++ [']']))
  | noEntries {bs : List Char} (h : Blanks bs) :
      Spelled (.value (.map [])) ('\x7b' :: (bs ++ ['\x7d']))
  | map {xs : List (Scalar × Json)} {text : List Char} (h : Spelled (.entries xs) text) :
      Spelled (.value (.map xs)) ('\x7b' :: (text ++ ['\x7d']))
  | padded {v : Json} {before text behind : List Char} (hb : Blanks before)
      (h : Spelled (.value v) text) (hb' : Blanks behind) :
      Spelled (.padded v) (before ++ text ++ behind)
  | item {v : Json} {text : List Char} (h : Spelled (.padded v) text) : Spelled (.items [v]) text
  | items {v : Json} {xs : List Json} {text more : List Char} (h : Spelled (.padded v) text)
      (rest : Spelled (.items xs) more) : Spelled (.items (v :: xs)) (text ++ ',' :: more)
  | entry {v : Json} {before name s behind text : List Char} (hb : Blanks before)
      (hs : Spells name s) (hb' : Blanks behind) (h : Spelled (.padded v) text) :
      Spelled (.entry (String.ofList s) v)
        (before ++ '"' :: (name ++ '"' :: (behind ++ ':' :: text)))
  | lastEntry {name : String} {v : Json} {text : List Char} (h : Spelled (.entry name v) text) :
      Spelled (.entries [(.str name, v)]) text
  | entries {name : String} {v : Json} {xs : List (Scalar × Json)} {text more : List Char}
      (h : Spelled (.entry name v) text) (rest : Spelled (.entries xs) more) :
      Spelled (.entries ((.str name, v) :: xs)) (text ++ ',' :: more)

/-- The reader gives the events of a document for each of its texts, if the scalars meet a
condition. -/
def Reader.Follows [Reader] (p : Scalar → Prop) : Prop :=
  ∀ v text, Spelled (.padded v) text → IsDocument p v →
    Reader.read (Text.encode text) = ⟨v.events, none⟩

/-- Scalars that documents hold: finite doubles, and integers that meet a condition. -/
def Admitted (p : Int → Prop) : Scalar → Prop
  | .int i => p i
  | .float x => ∃ y, x = .finite y
  | _ => True

instance (p : Int → Prop) [DecidablePred p] : DecidablePred (Admitted p)
  | .int i => inferInstanceAs (Decidable (p i))
  | .float (.finite y) => .isTrue ⟨y, rfl⟩
  | .float (.infinity _) => .isFalse nofun
  | .float .nan => .isFalse nofun
  | .null => .isTrue trivial
  | .bool _ => .isTrue trivial
  | .str _ => .isTrue trivial

theorem Admitted.imp {p q : Int → Prop} (h : ∀ i, p i → q i) {s : Scalar} (hs : Admitted p s) :
    Admitted q s := by
  cases s with
  | int i => exact h i hs
  | _ => exact hs

abbrev Within (low high : Int) : Scalar → Prop := Admitted fun i => low ≤ i ∧ i ≤ high

abbrev Writable : Scalar → Prop := Admitted fun _ => True

end Exemplar.Json
