import Exemplar.Assoc
import Exemplar.Scalar
/-!
# JSON trees

Documents and samples as trees of maps, lists and scalars. A map keeps its entries in order;
its keys are scalars, although documents read from text have strings only.
-/
namespace Exemplar

inductive Json where
  | scalar (s : Scalar)
  | list (items : List Json)
  | map (entries : List (Scalar × Json))

namespace Json

abbrev null : Json := .scalar .null

abbrev str (s : String) : Json := .scalar (.str s)

instance : Inhabited Json := ⟨null⟩

def isMap : Json → Bool
  | .map _ => true
  | _ => false

def isList : Json → Bool
  | .list _ => true
  | _ => false

def isNull : Json → Bool
  | .scalar .null => true
  | _ => false

mutual
/-- Comparison by value: scalars by `==`, lists item by item, maps entry by entry in any
order. -/
def same : Json → Json → Bool
  | .scalar s, .scalar t => s == t
  | .list xs, .list ys => sameItems xs ys
  | .map xs, .map ys => xs.length == ys.length && sameEntries xs ys
  | _, _ => false
def sameItems : List Json → List Json → Bool
  | [], [] => true
  | x :: xs, y :: ys => same x y && sameItems xs ys
  | _, _ => false
def sameEntries : List (Scalar × Json) → List (Scalar × Json) → Bool
  | [], _ => true
  | (k, x) :: xs, ys =>
    (match Assoc.get? ys k with
      | some y => same x y
      | none => false) && sameEntries xs ys
end

instance : BEq Json := ⟨same⟩

mutual
/-- The text of a value inside a message: strings are quoted, lists stand in brackets and maps in
braces. -/
def quoted : Json → String
  | .scalar s => s.quoted
  | .list items => "[" ++ quotedItems true items ++ "]"
  | .map entries => "\x7b" ++ quotedEntries true entries ++ "\x7d"
def quotedItems (first : Bool) : List Json → String
  | [] => ""
  | x :: xs => (if first then "" else ", ") ++ quoted x ++ quotedItems false xs
def quotedEntries (first : Bool) : List (Scalar × Json) → String
  | [] => ""
  | (k, x) :: xs =>
    (if first then "" else ", ") ++ k.quoted ++ ": " ++ quoted x ++ quotedEntries false xs
end

/-- The text of a value that stands alone: a string is not quoted. -/
def text : Json → String
  | .scalar s => s.plainText
  | v => v.quoted

end Json
end Exemplar
