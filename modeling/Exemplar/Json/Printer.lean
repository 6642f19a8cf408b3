import Exemplar.Json.Basic
import Exemplar.Json.Layout
/-!
# Writing JSON

`Json.write` renders a tree as JSON text with a given indent, and `Json.compactText` in one line.
Keys are written in order. Only quotes, backslashes and control characters are escaped.
-/
namespace Exemplar.Json

def escapeChar (c : Char) : List Char :=
  if c = '"' then ['\\', '"']
  else if c = '\\' then ['\\', '\\']
  else if c = '\n' then ['\\', 'n']
  else if c = '\r' then ['\\', 'r']
  else if c = '\t' then ['\\', 't']
  else if c.toNat = 8 then ['\\', 'b']
  else if c.toNat = 12 then ['\\', 'f']
  else if c.toNat < 0x20 then '\\' :: 'u' :: Text.hexDigits 4 c.toNat
  else [c]

def writeString (s : List Char) : List Char := '"' :: s.flatMap escapeChar ++ ['"']

/-- A double as a JSON value; the values that JSON lacks are written by name. -/
def writeDouble : Double → List Char
  | .nan => "NaN".toList
  | .infinity false => "Infinity".toList
  | .infinity true => "-Infinity".toList
  | .finite x => Double.finiteText x

def writePlain : Scalar → List Char
  | .null => "null".toList
  | .bool true => "true".toList
  | .bool false => "false".toList
  | .int i => Decimal.ofInt i
  | .float x => writeDouble x
  | .str s => s.toList

def writeScalar : Scalar → List Char
  | .str s => writeString s.toList
  | s => writePlain s

/-- A scalar as a key, always a string literal. -/
def writeKey (k : Scalar) : List Char := writeString (writePlain k)

mutual
def writeAt (layout : Layout) (level : Nat) : Json → List Char
  | .scalar s => writeScalar s
  | .list [] => ['[', ']']
  | .list (x :: xs) =>
    '[' :: layout.newline (level + 1) ++ writeAt layout (level + 1) x ++
      writeItems layout (level + 1) xs ++ layout.newline level ++ [']']
  | .map [] => ['\x7b', '\x7d']
  | .map ((k, x) :: xs) =>
    '\x7b' :: layout.newline (level + 1) ++ writeKey k ++ layout.colon ++
      writeAt layout (level + 1) x ++ writeEntries layout (level + 1) xs ++
      layout.newline level ++ ['\x7d']
def writeItems (layout : Layout) (level : Nat) : List Json → List Char
  | [] => []
  | x :: xs => ',' :: layout.newline level ++ writeAt layout level x ++ writeItems layout level xs
def writeEntries (layout : Layout) (level : Nat) : List (Scalar × Json) → List Char
  | [] => []
  | (k, x) :: xs =>
    ',' :: layout.newline level ++ writeKey k ++ layout.colon ++ writeAt layout level x ++
      writeEntries layout level xs
end

def textIn (layout : Layout) (v : Json) : String := String.ofList (writeAt layout 0 v)

/-- Whether a value is a string, which is written the same way at every indent. -/
def isString : Json → Bool
  | .scalar (.str _) => true
  | _ => false

/-- The text of a tree with an indent, which must be usable unless the tree is a string. -/
def write (v : Json) (indent : Indent) : Except IndentFault String :=
  if v.isString then .ok (v.textIn .compact)
  else do return v.textIn (← indent.layout)

def compactText (v : Json) : String := v.textIn .compact

end Exemplar.Json
