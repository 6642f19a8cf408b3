import Exemplar.Diagnostic
import Exemplar.Json.Basic
/-!
# Types

Types that are inferred from samples: structs, enums and lists, each defined under a dotted name,
and the primitive types. A reference to a defined type gives its name and its edition, the number
of definitions under that name that came before it.
-/
namespace Exemplar

/-- The types that scalars have. -/
inductive Primitive where
  | string
  | boolean
  | int
  | number
  | date
  | uri
  | object
  | any
  deriving DecidableEq, Repr

namespace Primitive

def name : Primitive → String
  | .string => "string"
  | .boolean => "boolean"
  | .int => "int"
  | .number => "number"
  | .date => "date"
  | .uri => "uri"
  | .object => "object"
  | .any => "*"

def all : List Primitive := [.string, .boolean, .int, .number, .date, .uri, .object, .any]

def ofName? (name : String) : Option Primitive := all.find? fun p => p.name == name

def ofScalar : Scalar → Primitive
  | .null => .any
  | .bool _ => .boolean
  | .int _ => .int
  | .float _ => .number
  | .str _ => .string

end Primitive

inductive TypeRef where
  | primitive (p : Primitive)
  | defined (name : String) (edition : Nat)
  deriving DecidableEq, Repr

def TypeRef.name : TypeRef → String
  | .primitive p => p.name
  | .defined name _ => name

inductive AutoCreate where
  | none
  | map
  | list
  deriving DecidableEq, Repr

def AutoCreate.word : AutoCreate → String
  | .none => "none"
  | .map => "map"
  | .list => "list"

/-- A field of a struct. Its type is unknown until the types are finished. -/
structure Field where
  key : Scalar
  property : String
  sample : Json
  type : Option TypeRef := none
  autocreate : AutoCreate := .none

/-- A value inside a container that the types keep as a sample: the container, and the way from it
to the value. -/
structure Kept where
  sample : Json
  way : List Scalar

namespace Kept

def ofSample (sample : Json) : Kept := ⟨sample, []⟩

def inside (k : Kept) (key : Scalar) : Kept := { k with way := k.way ++ [key] }

end Kept

/-- Where the literals of an enum come from: whether containers among them are linked, and what
holds the literals, if the types keep it. -/
structure LiteralOrigin where
  linked : Bool
  kept : Option Kept

/-- What a type consists of. The aliases of a struct are those visible inside it. -/
inductive Shape where
  | struct (fields : List Field) (aliases : Assoc Scalar String)
  | enum (values : List (String × Json)) (origin : LiteralOrigin)
  | list (depth : Nat) (sample : Json) (element : Option TypeRef)

inductive Kind where
  | struct
  | enum
  | list
  | primitive
  deriving DecidableEq, Repr

def Kind.word : Kind → String
  | .struct => "struct"
  | .enum => "enum"
  | .list => "list"
  | .primitive => "primitive"

def Shape.kind : Shape → Kind
  | .struct _ _ => .struct
  | .enum _ _ => .enum
  | .list _ _ _ => .list

/-- A type defined under a name by a source. The inner types are those whose namespace is this
type, by segment. -/
structure Definition where
  name : String
  source : String
  shape : Shape
  edition : Nat := 0
  errors : List Diagnostic := []
  inner : Assoc String String := []

namespace Definition

def kind (d : Definition) : Kind := d.shape.kind

def ref (d : Definition) : TypeRef := .defined d.name d.edition

def addErrors (d : Definition) (errors : List Diagnostic) : Definition :=
  { d with errors := d.errors ++ errors }

def fields (d : Definition) : List Field :=
  match d.shape with
  | .struct fields _ => fields
  | _ => []

def aliases (d : Definition) : Assoc Scalar String :=
  match d.shape with
  | .struct _ aliases => aliases
  | _ => []

def values (d : Definition) : List (String × Json) :=
  match d.shape with
  | .enum values _ => values
  | _ => []

/-- The description of the type: its name and where it comes from. -/
def description (d : Definition) : String := s!"{d.name} (inferred from {d.source})"

def text (d : Definition) : String :=
  let word := match d.kind with
    | .struct => "StructType"
    | .enum => "EnumType"
    | .list => "ListWrapperType"
    | .primitive => "PrimitiveType"
  s!"{word}({Text.quotedString d.name})"

def field? (d : Definition) (property : String) : Option Field :=
  d.fields.find? fun f => f.property == property

/-- The property of a key. Of several fields with one key the last gives the name. -/
def propertyFor? (d : Definition) (key : Scalar) : Option String :=
  Assoc.get? (Assoc.ofEntries (d.fields.map fun f => (f.key, f.property))) key

def fieldForKey? (d : Definition) (key : Scalar) : Option Field :=
  (d.propertyFor? key).bind d.field?

def isAliasTarget (d : Definition) (name : String) : Bool :=
  d.aliases.any fun e => e.2 == name

def literal? (d : Definition) (code : String) : Option Json :=
  (d.values.find? fun e => e.1 == code).map Prod.snd

/-- The first code whose literal compares equal to a value. -/
def code? (d : Definition) (value : Json) : Option String :=
  (d.values.find? fun e => e.2 == value).map Prod.fst

end Definition

def AutoCreate.ofKind : TypeRef → Option Kind → AutoCreate
  | .primitive .object, _ => .map
  | _, some .struct => .map
  | _, some .list => .list
  | _, _ => .none

end Exemplar
