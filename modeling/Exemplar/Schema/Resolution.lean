import Exemplar.Schema.Catalogue
/-!
# Resolving references

When every document is read, samples are resolved to types: a string names a primitive type, an
alias, a type by its full name, or a type relative to one of the structs around it, innermost
first. Fields and elements that have a type of their own by their place refer to that.
-/
namespace Exemplar

/-- A struct that a sample is looked up from: its name and the aliases visible in it. -/
structure Surrounding where
  name : String
  aliases : Aliases

namespace Definition

/-- The struct as the surrounding of its samples. -/
def surrounding (d : Definition) : Surrounding := ⟨d.name, d.aliases⟩

end Definition

abbrev TypeTable := Assoc String Definition

namespace TypeTable

/-- Follow an alias through a table until a name is no alias or comes up again. Each step uses an
alias that was not used before, so a table is exhausted after as many steps as it has entries. -/
def chase (aliases : Aliases) (seen : List String) : (steps : Nat) → (name : String) → String
  | 0, name => name
  | steps + 1, name =>
    if seen.contains name then name
    else match aliases.get? (.str name) with
      | some target => chase aliases (name :: seen) steps target
      | none => name

/-- What an alias stands for in the end. -/
def dealias (s : Surrounding) (a : String) : String :=
  chase s.aliases [] (s.aliases.length + 1) a

/-- The type of a name: the one with that full name, or the one relative to the surrounding struct
or to the nearest namespace around it. -/
def lookup (types : TypeTable) (name : String) (s : Option Surrounding) : Option Definition :=
  match types.get? name with
  | some d => some d
  | none =>
    (s.map fun s => Name.selfAndEnclosing s.name).getD []
      |>.findSome? fun space => types.get? (Name.member space name)

def classifyName (types : TypeTable) (name : String) (s : Option Surrounding) : Option TypeRef :=
  match Primitive.ofName? name with
  | some p => some (.primitive p)
  | none =>
    match s with
    | some around =>
      if around.aliases.has (.str name) then
        let target := dealias around name
        match Primitive.ofName? target with
        | some p => some (.primitive p)
        | none => (types.lookup target s).map Definition.ref
      else (types.lookup name s).map Definition.ref
    | none => (types.lookup name s).map Definition.ref

/-- The type of a sample that defines none by its place. -/
def classify (types : TypeTable) (sample : Json) (s : Option Surrounding) : Option TypeRef :=
  match sample with
  | .map _ => some (.primitive .object)
  | .list _ => some (.primitive .any)
  | .scalar (.str name) => types.classifyName name s
  | .scalar scalar => some (.primitive (.ofScalar scalar))

/-- The nearest struct that a name lies in. -/
def enclosingStruct (types : TypeTable) (name : String) : Option Definition :=
  (Name.enclosing name).findSome? fun space =>
    (types.get? space).filter fun d => d.kind == .struct

/-- The type of a field: the one defined at its place, or what its sample refers to. -/
def fieldType? (types : TypeTable) (struct : Definition) (f : Field) : Option TypeRef :=
  match types.get? (Name.member struct.name f.property) with
  | some d => some d.ref
  | none => types.classify f.sample (some struct.surrounding)

/-- The type of the elements of a list. -/
def elementType? (types : TypeTable) (name : String) (sample : Json) : Option TypeRef :=
  match types.get? (Inference.elementName name) with
  | some d => some d.ref
  | none => types.classify sample ((types.enclosingStruct name).map Definition.surrounding)

def kind? (types : TypeTable) : TypeRef → Option Kind
  | .primitive _ => some .primitive
  | .defined name _ => (types.get? name).map Definition.kind

/-- The field with its type; a sample that refers to nothing gives the type of anything. -/
def resolveField (types : TypeTable) (struct : Definition) (f : Field) : Field :=
  let type := (types.fieldType? struct f).getD (.primitive .any)
  { f with type := some type, autocreate := .ofKind type (types.kind? type) }

/-- The diagnostic of a field whose sample refers to nothing. -/
def unknownField (struct : Definition) (f : Field) : Diagnostic :=
  .placeless .unresolvedType
    s!"Unknown type {f.sample.quoted} for field {f.key.quoted} of {struct.name}"

/-- The diagnostic of a list whose sample refers to nothing. -/
def unknownElement (name : String) (sample : Json) : Diagnostic :=
  .placeless .unresolvedType s!"Unknown element type {sample.quoted} for {name}"

/-- The definition with its references resolved. -/
def resolve (types : TypeTable) (d : Definition) : Definition :=
  match d.shape with
  | .struct fields aliases =>
    let unknown := fields.filter fun f => (types.fieldType? d f).isNone
    { d with
      shape := .struct (fields.map (types.resolveField d)) aliases
      errors := d.errors ++ unknown.map (unknownField d) }
  | .list depth sample _ =>
    match types.elementType? d.name sample with
    | some element => { d with shape := .list depth sample (some element) }
    | none =>
      { d with
        shape := .list depth sample (some (.primitive .any))
        errors := d.errors ++ [unknownElement d.name sample] }
  | .enum _ _ => d

/-- The types whose namespace is a name, by segment. -/
def innerTypes (types : TypeTable) (name : String) : Assoc String String :=
  Assoc.ofEntries <| (types.map Prod.snd).filterMap fun d =>
    if Name.namespaceOf d.name = name then some (Name.segment d.name, d.name) else none

/-- The definition with the types inside it. -/
def linkInner (types : TypeTable) (d : Definition) : Definition :=
  { d with inner := types.innerTypes d.name }

end TypeTable

namespace Catalogue

/-- Link inner types and resolve all references, once. -/
def finish (c : Catalogue) : Catalogue :=
  if c.finished then c
  else
    let types : TypeTable := c.types
    { c with
      types := types.map fun (name, d) => (name, types.resolve (types.linkInner d))
      finished := true }

end Catalogue
end Exemplar
