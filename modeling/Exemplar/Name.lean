/-!
# Dotted names

Type names are segments joined by dots. The namespace of a name is what stands before its last
dot, its segment what stands behind it.
-/
namespace Exemplar.Name

/-- The part before the last dot; empty when there is no dot. -/
def namespaceOf (name : String) : String :=
  String.ofList ((name.toList.reverse.dropWhile (· ≠ '.')).drop 1).reverse

/-- The part behind the last dot; the whole name when there is no dot. -/
def segment (name : String) : String :=
  String.ofList (name.toList.reverse.takeWhile (· ≠ '.')).reverse

def member (space segment : String) : String := space ++ "." ++ segment

def unknownText (name : String) : String := s!"Unknown type: {name}"

/-- What stands before each dot of a reversed name, from the last dot to the first, as long as
something does. -/
def enclosingReversed : List Char → List (List Char)
  | [] => []
  | '.' :: rest => if rest.isEmpty then [] else rest :: enclosingReversed rest
  | _ :: rest => enclosingReversed rest

/-- The namespaces that a name lies in, innermost first. -/
def enclosing (name : String) : List String :=
  (enclosingReversed name.toList.reverse).map fun cs => String.ofList cs.reverse

/-- A name that is not empty, followed by the namespaces it lies in. -/
def selfAndEnclosing (name : String) : List String :=
  if name = "" then [] else name :: enclosing name

end Exemplar.Name
