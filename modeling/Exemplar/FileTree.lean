import Exemplar.Assoc
import Exemplar.Glob
import Exemplar.Path
/-!
# Trees of files

A folder with everything below it, as one value, and the ways to what stands in it.
-/
namespace Exemplar

/-- A regular file with its content, or a folder with named entries. Both can be read, and nothing is a
link to something else. -/
inductive FileTree where
  | file (data : List UInt8)
  | folder (entries : List (String × FileTree))

/-- Why nothing can be found under a path: there is no such name, the way leads through a file, or
no name has this form or this length. -/
inductive Absence where
  | missing
  | throughFile
  | badName
  | longName
  deriving DecidableEq, Repr

namespace FileTree

def empty : FileTree := .folder []

def entries : FileTree → List (String × FileTree)
  | .file _ => []
  | .folder es => es

/-- Put a tree in the place that names lead to. Folders on the way are made; a folder stays what it
is where an empty one is put. -/
def put : List String → FileTree → FileTree → FileTree
  | [], .folder [], .folder es => .folder es
  | [], new, _ => new
  | name :: rest, new, old =>
    let below := (Assoc.get? old.entries name).getD .empty
    .folder (Assoc.insert old.entries name (put rest new below))

/-- Walk along names, with the folders above at hand for the way up. -/
def walk : (above : List FileTree) → FileTree → List String → Except Absence FileTree
  | _, t, [] => .ok t
  | _, .file _, _ :: _ => .error .throughFile
  | above, .folder es, name :: rest =>
    if name = ".." then
      match above with
      | [] => .error .missing
      | t :: above => walk above t rest
    else if 255 < name.utf8ByteSize then .error .longName
    else
      match Assoc.get? es name with
      | some t => walk (.folder es :: above) t rest
      | none => .error .missing

/-- What stands under a path that starts at the tree. Other places hold nothing. -/
def find (t : FileTree) (p : Path) : Except Absence FileTree :=
  if p.text.contains '\x00' then .error .badName
  else if 4096 ≤ p.text.utf8ByteSize then .error .longName
  else if p.root = "" then walk [] t p.names
  else .error .missing

mutual
/-- A folder and all folders below it, each with the names that lead to it and the folders above it,
innermost first. -/
def folders (above : List FileTree) : FileTree → List (List String × List FileTree × FileTree)
  | .file _ => []
  | .folder es => ([], above, .folder es) :: entryFolders (.folder es :: above) es
def entryFolders (above : List FileTree) :
    List (String × FileTree) → List (List String × List FileTree × FileTree)
  | [] => []
  | (_, .file _) :: rest => entryFolders above rest
  | (name, .folder es) :: rest =>
    (folders above (.folder es)).map (fun (way, found) => (name :: way, found)) ++
      entryFolders above rest
end

/-- The files that steps lead to, with the names on the way. The way up is open to exact names
only. -/
def select : List GlobStep → (above : List FileTree) → FileTree →
    List (List String × List UInt8)
  | [], _, .file data => [([], data)]
  | [], _, .folder _ => []
  | .anywhere :: rest, above, t =>
    (folders above t).flatMap fun (way, above, found) =>
      (select rest above found).map fun (more, data) => (way ++ more, data)
  | .named g :: rest, above, t =>
    t.entries.flatMap fun (name, found) =>
      if g.covers name.toList then
        (select rest (t :: above) found).map fun (way, data) => (name :: way, data)
      else []
  | .exactly ".." :: rest, above, .folder _ =>
    match above with
    | [] => []
    | t :: above => (select rest above t).map fun (way, data) => (".." :: way, data)
  | .exactly name :: rest, above, t =>
    match Assoc.get? t.entries name with
    | some found => (select rest (t :: above) found).map fun (way, data) => (name :: way, data)
    | none => []

/-- The files that steps lead to, each once. -/
def selectOnce (steps : List GlobStep) (t : FileTree) : List (List String × List UInt8) :=
  Assoc.ofEntries (select steps [] t)

end FileTree
end Exemplar
