import Exemplar.Identifier.Basic
import Exemplar.Schema.Registry
/-!
# Models

The model of a type describes its properties, its methods and how it is constructed. A struct has a
property for each field and is constructed; an enum has a fixed property for each code; a list
type has methods only.
-/
namespace Exemplar

structure Parameter where
  name : String
  type : String
  required : Bool
  deriving DecidableEq, Repr

inductive Operation where
  | parse
  | parseUrl
  | get
  | post
  | write
  | prettyPrint
  | asJson
  | parent
  | descendents
  deriving DecidableEq, Repr

def Operation.name : Operation → String
  | .parse => "parse"
  | .parseUrl => "parse_url"
  | .get => "get"
  | .post => "post"
  | .write => "write"
  | .prettyPrint => "pretty_print"
  | .asJson => "as_json"
  | .parent => "parent"
  | .descendents => "descendents"

/-- What a method gives: a value of an inferred or primitive type, or something described in
words. -/
inductive Returned where
  | type (t : TypeRef)
  | words (text : String)
  deriving DecidableEq, Repr

/-- A method. A static method is called without an instance. -/
structure Method where
  operation : Operation
  returns : Returned
  parameters : List Parameter
  static : Bool
  deriving DecidableEq, Repr

inductive Access where
  /-- The entry of an instance under a key. -/
  | entry (field : Field)
  /-- The literal of a code, the same for all. -/
  | literal (value : Json)

structure Property where
  name : String
  type : Option TypeRef
  access : Access

namespace Property

def key? (p : Property) : Option Scalar :=
  match p.access with
  | .entry f => some f.key
  | .literal _ => none

def autocreate (p : Property) : AutoCreate :=
  match p.access with
  | .entry f => f.autocreate
  | .literal _ => .none

/-- Whether the property belongs to the type and not to its instances. -/
def static (p : Property) : Bool := p.key?.isNone

def writable (p : Property) : Bool := p.key?.isSome

end Property

structure Model where
  type : Definition
  properties : List Property
  methods : List Method
  constructible : Bool

namespace Model

def property? (m : Model) (name : String) : Option Property :=
  m.properties.find? fun p => p.name == name

def method? (m : Model) (name : String) : Option Method :=
  m.methods.find? fun f => f.operation.name == name

def fetchParameters : List Parameter :=
  [⟨"url", "string", true⟩, ⟨"args", "Mapping[str, Any]", false⟩]

/-- The methods that make a value of a type out of a text or of a fetched document. -/
def productionMethods (t : TypeRef) : List Method :=
  [⟨.parse, .type t, [⟨"content", "string", true⟩], true⟩,
    ⟨.parseUrl, .type t, [⟨"url", "uri", true⟩], true⟩,
    ⟨.get, .type t, fetchParameters, true⟩,
    ⟨.post, .type t, fetchParameters, true⟩]

def instanceMethods (parent : TypeRef) : List Method :=
  [⟨.write, .words "string", [], false⟩,
    ⟨.prettyPrint, .words "string", [⟨"indent", "int", false⟩], false⟩,
    ⟨.asJson, .type (.primitive .object), [], false⟩,
    ⟨.parent, .type parent, [], false⟩,
    ⟨.descendents, .words "Iterable[object]", [], false⟩]

def listMethods (description : String) : List Method :=
  [⟨.write, .words "string", [⟨"value", description, true⟩], true⟩,
    ⟨.prettyPrint, .words "string",
      [⟨"value", description, true⟩, ⟨"indent", "int", false⟩], true⟩]

def fieldProperties (fields : List Field) : List Property :=
  fields.map fun f => ⟨f.property, f.type, .entry f⟩

def literalProperties (d : Definition) (values : List (String × Json)) : List Property :=
  values.map fun (code, literal) => ⟨code, some d.ref, .literal literal⟩

end Model

namespace Registry

/-- The type that the parent of an instance of a struct is declared to have: the nearest struct
around the type, seen through list types only. A struct that is an alias target of it may occur
anywhere, so its parent can be any map. -/
def parentType (r : Registry) (d : Definition) : TypeRef :=
  go (Name.enclosing d.name)
where
  /-- Look at the namespaces from the innermost one on. -/
  go : List String → TypeRef
    | [] => .primitive .object
    | space :: rest =>
      match r.get? space with
      | some outer =>
        match outer.kind with
        | .struct => if outer.isAliasTarget d.name then .primitive .object else outer.ref
        | .list => go rest
        | _ => .primitive .object
      | none => .primitive .object

/-- The model of a definition. List types that are their own elements have none, as they cannot be
described. -/
def model? (r : Registry) (d : Definition) : Option Model :=
  match d.shape with
  | .enum values _ => some ⟨d, Model.literalProperties d values, [], false⟩
  | .list _ _ _ =>
    (r.describeDefinition? d).map fun text =>
      ⟨d, [], Model.productionMethods d.ref ++ Model.listMethods text, false⟩
  | .struct fields _ =>
    some ⟨d, Model.fieldProperties fields,
      Model.productionMethods d.ref ++ Model.instanceMethods (r.parentType d), true⟩

end Registry
end Exemplar
