/-!
# Paths

A path says where it starts and which names lead from there. Names are separated by slashes;
repeated slashes and names that mean the place itself do not matter, while the way up stays.
-/
namespace Exemplar

/-- A path: the slashes that it starts with, and its names. -/
structure Path where
  root : String
  names : List String
  deriving DecidableEq, Repr

namespace Path

def cut (c : Char) : List Char → List (List Char)
  | [] => [[]]
  | d :: rest =>
    match cut c rest with
    | [] => []
    | part :: parts => if d = c then [] :: part :: parts else (d :: part) :: parts

/-- The slashes that a path starts with: two are kept, more than two are one. -/
def rootOf (text : List Char) : String :=
  match (text.takeWhile (· = '/')).length with
  | 0 => ""
  | 2 => "//"
  | _ => "/"

def ofText (text : String) : Path :=
  ⟨rootOf text.toList,
    ((cut '/' text.toList).map String.ofList).filter fun name => name ≠ "" && name ≠ "."⟩

def joined (names : List String) : String := "/".intercalate names

/-- The text of a path. The path without names is the place itself. -/
def text (p : Path) : String :=
  if p.root = "" ∧ p.names = [] then "." else p.root ++ joined p.names

def append (p : Path) (names : List String) : Path := { p with names := p.names ++ names }

def name (p : Path) : String := p.names.getLastD ""

/-- The last name and what stands behind its last dot, as long as something stands before the dot
and behind it. -/
def split (p : Path) : String × Option String :=
  let cs := p.name.toList.reverse
  let behind := cs.takeWhile (· ≠ '.')
  match cs.dropWhile (· ≠ '.') with
  | '.' :: before =>
    if behind.isEmpty || before.isEmpty then (p.name, none)
    else (String.ofList before.reverse, some (String.ofList behind.reverse))
  | _ => (p.name, none)

def stem (p : Path) : String := p.split.1

def extension? (p : Path) : Option String := p.split.2

end Path
end Exemplar
