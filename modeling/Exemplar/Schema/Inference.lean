import Exemplar.Identifier.Names
import Exemplar.Schema.AliasScope
import Exemplar.Schema.Definition
import Exemplar.Name
import Exemplar.Schema.Options
/-!
# Types from a document

A document is walked depth first, and every map and list in it defines a type under the name of
its place. A map defines a struct, or an enum if it has the enum marker; a list defines a list
type over its first element. Scalars define nothing: they are type names or samples, and what
they refer to is settled when all documents are read.

    "customers" : [{ "name" : "string", "id" : "int" }]

defines `Root.customers`, a list of depth one, over the struct `Root.customers.Element`.
-/
namespace Exemplar

/-- The sample that a plain value gives: every scalar is replaced by the name of its type. -/
def Json.typeNames : Json → Json
  | .scalar s => .str (Primitive.ofScalar s).name
  | .list items => .list (itemNames items)
  | .map entries => .map (entryNames entries)
where
  /-- The samples of the items. -/
  itemNames : List Json → List Json
    | [] => []
    | x :: xs => Json.typeNames x :: itemNames xs
  /-- The samples of the entries. -/
  entryNames : List (Scalar × Json) → List (Scalar × Json)
    | [] => []
    | (k, x) :: xs => (k, Json.typeNames x) :: entryNames xs

namespace Inference

/-- Where a value stands: the source, the markers and the kind of containers of its document, and
whether the value lies in a sample that the types keep. Values of fields and innermost elements of
lists are kept. -/
structure Context where
  source : String
  markers : Markers
  linked : Bool
  kept : Option Kept := none

namespace Context

def inside (c : Context) (key : Scalar) : Context :=
  { c with kept := c.kept.map fun k => k.inside key }

/-- The place of what the value holds under a key, which is kept as a sample. -/
def sample (c : Context) (key : Scalar) (v : Json) : Context :=
  { c with kept := some ((c.kept.map fun k => k.inside key).getD (.ofSample v)) }

def keeping (c : Context) (v : Json) : Context :=
  { c with kept := some (c.kept.getD (.ofSample v)) }

def under (c : Context) (marker : Option Scalar) : Context :=
  match marker with
  | some key => c.inside key
  | none => c

/-- Where the literals come from that the value holds under the marker of enums. -/
def literals (c : Context) : LiteralOrigin := ⟨c.linked, (c.under c.markers.enumKey).kept⟩

end Context

def elementName (list : String) : String := Name.member list "Element"

/-- Take the literals of an enum in order, each text only once. -/
def enumValues (literals : List Json) : List (String × Json) :=
  (literals.foldl (fun (acc : NameTable × List (String × Json)) literal =>
    let key := Scalar.str literal.text
    if acc.1.contains key then acc
    else
      let table := acc.1.add Identifier.codeOfText key
      (table, acc.2 ++ [((table.name? key).getD "", literal)])) (.empty, [])).2

/-- The literals of the value under the enum marker; a value that is no list is the only one. -/
def literalsOf : Json → List Json
  | .list literals => literals
  | v => [v]

def fieldNames (c : Context) (entries : List (Scalar × Json)) : NameTable :=
  NameTable.ofKeys Identifier.ofText ((Assoc.keys entries).filter c.markers.isField)

def fieldsOf (c : Context) (entries : List (Scalar × Json)) : List Field :=
  let names := fieldNames c entries
  (entries.filter fun e => c.markers.isField e.1).map fun (key, sample) =>
    { key, property := (names.name? key).getD "", sample }

/-- What a map defines under a name: an enum, what its marked value defines, or a struct behind
all that its aliases and its fields define. -/
def assembleMap (c : Context) (scope : AliasScope) (name : String)
    (entries : List (Scalar × Json)) (marked : List Definition)
    (aliases : AliasScope → List Definition × AliasScope)
    (fields : NameTable → AliasScope → List Definition) : List Definition :=
  match Markers.value? c.markers.enumKey entries with
  | some literals =>
    [{ name, source := c.source, shape := .enum (enumValues (literalsOf literals)) c.literals }]
  | none =>
    if (Markers.value? c.markers.mapOfKey entries).isSome then marked
    else
      let (own, inside) := aliases (scope.push [])
      own ++ fields (fieldNames c entries) inside ++
        [{ name, source := c.source,
           shape := .struct (fieldsOf c entries) inside.snapshot }]

/-- A list type over the sample of its innermost first element. -/
def listDefinition (c : Context) (name : String) (depth : Nat) (sample : Json) : Definition :=
  { name, source := c.source, shape := .list depth sample none }

mutual
def ofValue (c : Context) (scope : AliasScope) (name : String) : Json → List Definition
  | .scalar _ => []
  | .list items => ofItems c scope name 0 items
  | .map entries =>
    assembleMap c scope name entries (ofMarked c scope name entries)
      (fun inside => ofAliases c inside name entries)
      (fun names inside => ofFields c inside name names entries)
/-- What the list type of a name defines, `depth` levels into the list. -/
def ofItems (c : Context) (scope : AliasScope) (name : String) (depth : Nat) :
    List Json → List Definition
  | [] => [listDefinition c name depth (.list [])]
  | first :: _ => ofElement (c.inside (.int 0)) scope name (depth + 1) first
def ofElement (c : Context) (scope : AliasScope) (name : String) (depth : Nat) :
    Json → List Definition
  | .scalar s => [listDefinition c name depth (.scalar s)]
  | .list items => ofItems c scope name depth items
  | .map entries =>
    let element := elementName name
    let c := c.keeping (.map entries)
    assembleMap c scope element entries (ofMarked c scope element entries)
      (fun inside => ofAliases c inside element entries)
      (fun names inside => ofFields c inside element names entries) ++
      [listDefinition c name depth (.map entries)]
/-- What the value under the map marker defines. It introduces no nesting level. -/
def ofMarked (c : Context) (scope : AliasScope) (name : String) :
    List (Scalar × Json) → List Definition
  | [] => []
  | (key, v) :: rest =>
    if c.markers.mapOfKey.any fun m => key == m then ofValue (c.inside key) scope name v
    else ofMarked c scope name rest
/-- What the fields of a map define, each under the name of its property. -/
def ofFields (c : Context) (scope : AliasScope) (name : String) (names : NameTable) :
    List (Scalar × Json) → List Definition
  | [] => []
  | (key, v) :: rest =>
    (if c.markers.isField key then
      ofValue (c.sample key v) scope (Name.member name ((names.name? key).getD "")) v
    else []) ++ ofFields c scope name names rest
/-- What the alias block of a map defines, and the scope behind it. -/
def ofAliases (c : Context) (scope : AliasScope) (name : String) :
    List (Scalar × Json) → List Definition × AliasScope
  | [] => ([], scope)
  | (key, v) :: rest =>
    if c.markers.aliasesKey.any fun a => key == a then ofAliasBlock (c.inside key) scope name v
    else ofAliases c scope name rest
/-- What a value defines as an alias block: only a map is one. -/
def ofAliasBlock (c : Context) (scope : AliasScope) (name : String) :
    Json → List Definition × AliasScope
  | .map entries => ofAliasEntries c scope name entries
  | _ => ([], scope)
/-- What the entries of an alias block define. An alias of a container names a type of its own; an
alias of a scalar takes over what that text stands for, as far as it is known at that place. -/
def ofAliasEntries (c : Context) (scope : AliasScope) (name : String) :
    List (Scalar × Json) → List Definition × AliasScope
  | [] => ([], scope)
  | (a, .scalar s) :: rest =>
    let target := s.plainText
    let known := match scope.resolve (.str target) with
      | some "" => target
      | some resolved => resolved
      | none => target
    ofAliasEntries c (scope.declare a known) name rest
  | (a, v) :: rest =>
    let typeName := Name.member name (Identifier.ofText a.plainText)
    let scope := scope.declare a typeName
    let own := ofValue (c.inside a) scope typeName v
    let (more, scope) := ofAliasEntries c scope name rest
    (own ++ more, scope)
end

end Inference
end Exemplar
