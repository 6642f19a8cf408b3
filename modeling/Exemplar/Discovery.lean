import Exemplar.FileTree
import Exemplar.Schema.Build
import Exemplar.Text.Quoted
/-!
# Sources on disk

A file becomes a source by its place: the folders that lead to it are the namespace of its type and
its name is the name of the type. A folder gives one source for each file with a known extension,
one extension after the other, each group in the order of the names on the way.
-/
namespace Exemplar

/-- What stands under paths. -/
abbrev Files := Path → Except Absence FileTree

/-- Why sources cannot be found: a place holds no folder or nothing at all, a file lies outside of
all namespaces, a name is too long to be looked up, an extension is no pattern, or what was found
cannot be announced. -/
inductive DiscoveryFault where
  | noFolder (place : String)
  | noFile (place : String)
  | noNamespace (place : String)
  | longName (place : String)
  | badPattern (extension : String)
  | announcement (f : Text.Markup.Fault)
  deriving DecidableEq, Repr

def DiscoveryFault.message : DiscoveryFault → String
  | .noFolder place => s!"Directory not found: {place}"
  | .noFile place => s!"File not found: {place}"
  | .noNamespace place =>
    s!"Cannot define {Text.quotedString place} outside a namespace; move it into a sub-directory"
  | .longName place => s!"Name too long: {place}"
  | .badPattern extension => s!"Not a pattern: {extension}"
  | .announcement _ => "The number of sources cannot be announced"

namespace Discovery

/-- The first part of a text up to a place; places before the start count from the end. -/
def upTo (place : Int) (s : List Char) : List Char :=
  s.take (if place < 0 then (place + s.length).toNat else place.toNat)

/-- The name of the type that the file of a place gives: the extension and its dot are dropped, and
slashes of either kind become dots. -/
def typeName (place extension : String) : Except DiscoveryFault String :=
  let cs := place.toList
  let kept := upTo (cs.length - extension.toList.length - 1) cs
  let name := kept.map fun c => if c = '/' || c = '\\' then '.' else c
  if name.contains '.' then .ok (String.ofList name) else .error (.noNamespace place)

/-- The extensions of sources, in the order in which they are looked for. -/
def extensions : List String := [SourceKind.schema.extension, SourceKind.sample.extension]

def ofFile (name : String) (p : Path) (data : List UInt8) : Source :=
  let kind := if p.extension? = some SourceKind.sample.extension then .sample else .schema
  (⟨name, kind, some p.text⟩, .octets data)

/-- The steps to the files with an extension: any folders, and then the way that the extension
writes, which is a pattern. -/
def steps? (extension : String) : Option (List GlobStep) := do
  let steps ← (Path.ofText ("*." ++ extension)).names.mapM GlobStep.ofText?
  return .anywhere :: steps

/-- Whether one way does not come behind another: the names are compared one by one, and each by its
characters. -/
def precedes (a b : List String × List UInt8) : Bool :=
  !(b.1.map String.toList).lex (a.1.map String.toList) fun x y => x.lex y

/-- The files below a folder with an extension, in order. A slash at the end of the extension asks
for folders, which are no files. -/
def filesWith (t : FileTree) (extension : String) :
    Except DiscoveryFault (List (List String × List UInt8)) :=
  match steps? extension with
  | none => .error (.badPattern extension)
  | some steps =>
    .ok (if extension.endsWith "/" then [] else (t.selectOnce steps).mergeSort precedes)

def ofFound (root : Path) (extension : String) (f : List String × List UInt8) :
    Except DiscoveryFault Source := do
  let name ← typeName (Path.joined f.1) extension
  return (⟨name, .ofExtension extension, some (root.append f.1).text⟩, .octets f.2)

/-- What is announced of the sources of a folder, whose path is not escaped. -/
def announcement (root : Path) (count : Nat) : String :=
  s!"[bold blue]Found {Decimal.natText count} schema sources under {root.text}[/bold blue]"

def inFolder (console : Text.Console) (root : Path) (t : FileTree) (extensions : List String) :
    Except DiscoveryFault (List Source) := do
  let groups ← extensions.mapM fun e => do (← filesWith t e).mapM (ofFound root e)
  let found := groups.flatten
  (console.print (announcement root found.length)).mapError .announcement
  return found

def below (files : Files) (root : Path) (extensions : List String)
    (console : Text.Console := Text.Markup.console) : Except DiscoveryFault (List Source) :=
  match files root with
  | .ok (.folder es) => inFolder console root (.folder es) extensions
  | .error .longName => .error (.longName root.text)
  | _ => .error (.noFolder root.text)

/-- The sources that a path gives: those below a folder, or a file by itself, whose type gets its
name inside a given namespace. -/
def atPath (files : Files) (space : String) (console : Text.Console) (p : Path) :
    Except DiscoveryFault (List Source) :=
  match files p with
  | .ok (.folder es) => inFolder console p (.folder es) extensions
  | .ok (.file data) => .ok [ofFile (Name.member space p.stem) p data]
  | .error .longName => .error (.longName p.text)
  | .error _ => .error (.noFile p.text)

def atPaths (files : Files) (space : String) (paths : List Path)
    (console : Text.Console := Text.Markup.console) : Except DiscoveryFault (List Source) := do
  let groups ← paths.mapM (atPath files space console)
  return groups.flatten

end Discovery
end Exemplar
