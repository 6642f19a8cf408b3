import Exemplar.Number.Decimal
import Exemplar.Text.Residue
/-!
# Identifiers from keys

Keys and enum literals may be any text; the names made from them are identifiers. A property name
is never a keyword and never the name of something that every model has; an enum code is in upper
case and starts with a letter.
-/
namespace Exemplar.Identifier

/-- The methods of a struct model, which no property may hide. -/
def methodNames : List String :=
  ["parse", "parse_url", "get", "post", "write", "pretty_print", "as_json", "parent",
    "descendents"]

/-- The operations of a map, which no property may hide. -/
def mapOperations : List String :=
  ["clear", "copy", "fromkeys", "get", "items", "keys", "pop", "popitem", "setdefault", "update",
    "values"]

def nodeMembers : List String :=
  ["put", "remove", "autocreate", "intrinsic_type", "get_parent", "_parent_ref", "_jschema_type",
    "_jschema_model"]

/-- Names that no property may have. -/
def reservedNames : List String := methodNames ++ mapOperations ++ nodeMembers

def keywords : List String :=
  ["False", "None", "True", "and", "as", "assert", "async", "await", "break", "class", "continue",
    "def", "del", "elif", "else", "except", "finally", "for", "from", "global", "if", "import",
    "in", "is", "lambda", "nonlocal", "not", "or", "pass", "raise", "return", "try", "while",
    "with", "yield"]

/-- Words that are keywords in some places only. -/
def softKeywords : List String := ["_", "case", "match"]

def isTaken (name : String) : Bool :=
  keywords.contains name || softKeywords.contains name || reservedNames.contains name

def isWordChar (c : Char) : Bool :=
  Decimal.isDigit c || ('A' ≤ c && c ≤ 'Z') || ('a' ≤ c && c ≤ 'z') || c = '_'

def stripUnderscores (s : List Char) : List Char :=
  ((s.dropWhile (· = '_')).reverse.dropWhile (· = '_')).reverse

/-- A name that starts and ends with two underscores and has something between them. -/
def isDunder (s : List Char) : Bool :=
  4 < s.length && ['_', '_'].isPrefixOf s && ['_', '_'].isPrefixOf s.reverse

/-- The name of a text before it is checked against taken names: the ASCII residue with an
underscore for every character that no name may have, not empty and not starting with a digit. -/
def sanitize (text : String) : List Char :=
  let name := (Text.asciiResidue text.toList).map fun c => if isWordChar c then c else '_'
  let name := if isDunder name then stripUnderscores name else name
  match name with
  | [] => ['_']
  | c :: rest => if Decimal.isDigit c then '_' :: c :: rest else c :: rest

def ofText (text : String) : String :=
  let name := String.ofList (sanitize text)
  if isTaken name then name ++ "_" else name

def upper (c : Char) : Char := if 'a' ≤ c && c ≤ 'z' then Char.ofNat (c.toNat - 32) else c

def codeOfText (text : String) : String :=
  match (sanitize text).map upper with
  | '_' :: rest => String.ofList ('V' :: '_' :: rest)
  | name => String.ofList name

end Exemplar.Identifier
