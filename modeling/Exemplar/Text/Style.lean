import Exemplar.Text.Case
import Exemplar.Text.Digit
/-!
# Styles

A style is described in words: attributes, each of which may be denied by the word before it, a
colour, a colour of the ground, and the address of a link. Descriptions that say the same have the
same standard form.
-/
namespace Exemplar.Text.Style

/-- The attributes in standard order, each with its short names. -/
def attributeNames : List (String × List String) := [
  ("bold", ["b"]), ("dim", ["d"]), ("italic", ["i"]), ("underline", ["u"]), ("blink", []),
  ("blink2", []), ("reverse", ["r"]), ("conceal", ["c"]), ("strike", ["s"]),
  ("underline2", ["uu"]), ("frame", []), ("encircle", []), ("overline", ["o"])]

def attribute? (word : List Char) : Option String :=
  let name := String.ofList word
  (attributeNames.find? fun (full, short) => full == name || short.contains name).map Prod.fst

def colourTable : String := "
  black red green yellow blue magenta cyan white bright_black bright_red bright_green bright_yellow
  bright_blue bright_magenta bright_cyan bright_white grey0 gray0 navy_blue dark_blue blue3 blue1
  dark_green deep_sky_blue4 dodger_blue3 dodger_blue2 green4 spring_green4 turquoise4 deep_sky_blue3
  dodger_blue1 green3 spring_green3 dark_cyan light_sea_green deep_sky_blue2 deep_sky_blue1
  spring_green2 cyan3 dark_turquoise turquoise2 green1 spring_green1 medium_spring_green cyan2 cyan1
  dark_red deep_pink4 purple4 purple3 blue_violet orange4 grey37 gray37 medium_purple4 slate_blue3
  royal_blue1 chartreuse4 dark_sea_green4 pale_turquoise4 steel_blue steel_blue3 cornflower_blue
  chartreuse3 cadet_blue sky_blue3 steel_blue1 pale_green3 sea_green3 aquamarine3 medium_turquoise
  chartreuse2 sea_green2 sea_green1 aquamarine1 dark_slate_gray2 dark_magenta dark_violet purple
  light_pink4 plum4 medium_purple3 slate_blue1 yellow4 wheat4 grey53 gray53 light_slate_grey
  light_slate_gray medium_purple light_slate_blue dark_olive_green3 dark_sea_green light_sky_blue3
  sky_blue2 dark_sea_green3 dark_slate_gray3 sky_blue1 chartreuse1 light_green pale_green1
  dark_slate_gray1 red3 medium_violet_red magenta3 dark_orange3 indian_red hot_pink3 medium_orchid3
  medium_orchid medium_purple2 dark_goldenrod light_salmon3 rosy_brown grey63 gray63 medium_purple1
  gold3 dark_khaki navajo_white3 grey69 gray69 light_steel_blue3 light_steel_blue yellow3
  dark_sea_green2 light_cyan3 light_sky_blue1 green_yellow dark_olive_green2 dark_sea_green1
  pale_turquoise1 deep_pink3 magenta2 hot_pink2 orchid medium_orchid1 orange3 light_pink3 pink3
  plum3 violet light_goldenrod3 tan misty_rose3 thistle3 plum2 khaki3 light_goldenrod2 light_yellow3
  grey84 gray84 light_steel_blue1 yellow2 dark_olive_green1 honeydew2 light_cyan1 red1 deep_pink2
  deep_pink1 magenta1 orange_red1 indian_red1 hot_pink dark_orange salmon1 light_coral
  pale_violet_red1 orchid2 orchid1 orange1 sandy_brown light_salmon1 light_pink1 pink1 plum1 gold1
  navajo_white1 misty_rose1 thistle1 yellow1 light_goldenrod1 khaki1 wheat1 cornsilk1 grey100
  gray100 grey3 gray3 grey7 gray7 grey11 gray11 grey15 gray15 grey19 gray19 grey23 gray23 grey27
  gray27 grey30 gray30 grey35 gray35 grey39 gray39 grey42 gray42 grey46 gray46 grey50 gray50 grey54
  gray54 grey58 gray58 grey62 gray62 grey66 gray66 grey70 gray70 grey74 gray74 grey78 gray78 grey82
  gray82 grey85 gray85 grey89 gray89 grey93 gray93"

def colourNames : List (List Char) := words colourTable.toList

/-- Why a description has no standard form of its own: it is no style, or a colour in it has a part
that is no number. -/
inductive Fault where
  | unknown
  | notNumeric
  deriving DecidableEq, Repr

def inBrackets? (start : String) (s : List Char) : Option (List Char) :=
  if start.toList.isPrefixOf s && s.getLast? = some ')' then
    some (s.drop start.length).dropLast
  else none

/-- Whether a character is a decimal digit of ASCII. -/
def isPlainDigit (c : Char) : Bool := '0' ≤ c && c ≤ '9'

def isHexDigit (c : Char) : Bool := isPlainDigit c || ('a' ≤ c && c ≤ 'f')

/-- Whether three parts of a colour are numbers up to 255. -/
def checkParts (parts : List (Option Int)) : Except Fault Unit :=
  if parts.length ≠ 3 then .error .unknown
  else if parts.contains none then .error .notNumeric
  else if parts.all fun p => p.all (· ≤ 255) then .ok ()
  else .error .unknown

/-- Whether a word in small letters is a colour: a name, six hexadecimal digits, the number of a
colour, or three numbers for its parts. -/
def checkColour (word : List Char) : Except Fault Unit :=
  if word = "default".toList || colourNames.contains word then .ok ()
  else match word with
    | '#' :: digits =>
      if digits.length = 6 && digits.all isHexDigit then .ok () else .error .unknown
    | _ =>
      match inBrackets? "color(" word, inBrackets? "rgb(" word with
      | some digits, _ =>
        if 1 ≤ digits.length && digits.length ≤ 3 && digits.all isPlainDigit then
          if (digits.foldl (fun n c => n * 10 + (c.toNat - '0'.toNat)) 0) ≤ 255 then .ok ()
          else .error .unknown
        else .error .unknown
      | none, some parts =>
        if parts.isEmpty || !parts.all fun c => isDigit c || c = ',' then .error .unknown
        else checkParts (((String.ofList parts).splitOn ",").map integer?)
      | none, none => .error .unknown

end Exemplar.Text.Style

namespace Exemplar.Text

/-- A style: attributes that are set or denied, and colours and a link in words. -/
structure Style where
  attributes : List (String × Bool)
  colour : Option (List Char)
  ground : Option (List Char)
  link : Option (List Char)

namespace Style

/-- The style that says nothing. -/
def empty : Style := ⟨[], none, none, none⟩

def setAttribute (s : Style) (name : String) (value : Bool) : Style :=
  { s with attributes := (name, value) :: s.attributes }

/-- The style that words describe, after what was described before. -/
def ofWords (s : Style) : List (List Char) → Except Fault Style
  | [] => .ok s
  | word :: rest =>
    match String.ofList (lowered word), rest with
    | "on", colour :: rest => do
      checkColour (lowered colour)
      ofWords { s with ground := some (lowered colour) } rest
    | "not", denied :: rest =>
      match attribute? denied with
      | some name => ofWords (s.setAttribute name false) rest
      | none => .error .unknown
    | "link", address :: rest => ofWords { s with link := some address } rest
    | name, rest =>
      match attribute? name.toList with
      | some name => ofWords (s.setAttribute name true) rest
      | none => do
        checkColour name.toList
        ofWords { s with colour := some name.toList } rest

/-- The words for the attributes of a style, in standard order. -/
def attributeWords (s : Style) : List (List Char) :=
  attributeNames.flatMap fun (name, _) =>
    match s.attributes.lookup name with
    | some true => [name.toList]
    | some false => ["not".toList, name.toList]
    | none => []

def toWords (s : Style) : List (List Char) :=
  s.attributeWords ++ s.colour.toList ++
    (s.ground.map fun c => ["on".toList, c]).getD [] ++
    (s.link.map fun a => ["link".toList, a]).getD []

/-- The word for the style that says nothing. -/
def emptyName : List Char := "none".toList

/-- The standard form of a description. What describes no style stands for itself, in small letters
and without blanks around it. -/
def standardForm (s : List Char) : Except Fault (List Char) :=
  if trim s = emptyName || s.isEmpty then .ok emptyName
  else match ofWords empty (words s) with
    | .ok style =>
      .ok (if style.toWords.isEmpty then emptyName else [' '].intercalate style.toWords)
    | .error .unknown => .ok (lowered (trim s))
    | .error .notNumeric => .error .notNumeric

end Style
end Exemplar.Text
