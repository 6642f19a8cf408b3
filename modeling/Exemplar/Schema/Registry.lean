import Exemplar.Schema.Resolution
/-!
# Registries of types

A registry is the finished result of reading documents. It is never changed: when the documents
change, another registry is built.
-/
namespace Exemplar

/-- Finished types by name, and the names that each source registered. Definitions that were
replaced are kept for references to them. -/
structure Registry where
  types : TypeTable
  files : Assoc String (List String)
  replaced : List Definition

namespace Registry

def empty : Registry := ⟨[], [], []⟩

def ofCatalogue (c : Catalogue) : Registry := ⟨c.types, c.files, c.replaced⟩

def ofDocument (options : Options) (d : Document) : Except Text.Markup.Fault Registry :=
  let (added, c) := Catalogue.empty.addDocument options d
  added.map fun () => ofCatalogue c.finish

def get? (r : Registry) (name : String) : Option Definition := r.types.get? name

def names (r : Registry) : List String := r.types.keys

def definitions (r : Registry) : List Definition := r.types.map Prod.snd

def ofKind (r : Registry) (kind : Kind) : List Definition :=
  r.definitions.filter fun d => d.kind == kind

def namesOfSource (r : Registry) (source : String) : List String := (r.files.get? source).getD []

/-- Every dotted namespace of every name, each once. -/
def namespaces (r : Registry) : List String :=
  (r.names.flatMap Name.enclosing).eraseDups

/-- The diagnostics by type, for types that have any. -/
def errors (r : Registry) : Assoc String (List Diagnostic) :=
  r.types.filterMap fun (name, d) => if d.errors.isEmpty then none else some (name, d.errors)

def text (r : Registry) : String := s!"TypeRegistry({Decimal.natText r.types.length} types)"

/-- The definition that a reference was made to, even if it is replaced by now. -/
def definition? (r : Registry) (name : String) (edition : Nat) : Option Definition :=
  match r.get? name with
  | some d =>
    if d.edition = edition then some d
    else r.replaced.find? fun d => d.name == name && d.edition == edition
  | none => none

/-- The element name of a list type enclosed in as many levels as the type has, at least one. -/
def listText (element : String) : (depth : Nat) → String
  | 0 => s!"List[{element}]"
  | 1 => s!"List[{element}]"
  | depth + 1 => s!"List[{listText element depth}]"

/-- A readable form of a type, following the elements of list types for a limited number of
steps. -/
def describeWithin (r : Registry) : (steps : Nat) → Option TypeRef → Option String
  | _, none => some "?"
  | _, some (.primitive p) => some p.name
  | steps, some (.defined name edition) =>
    match r.definition? name edition with
    | none => some name
    | some d =>
      match d.shape with
      | .list depth _ element =>
        match steps with
        | 0 => none
        | steps + 1 => (describeWithin r steps element).map fun e => listText e depth
      | _ => some name

/-- A readable form of a type. There is none for list types that are their own elements: a chain of
different list types is no longer than the number of types. -/
def describe? (r : Registry) (t : Option TypeRef) : Option String :=
  r.describeWithin (r.types.length + r.replaced.length + 1) t

def describeDefinition? (r : Registry) (d : Definition) : Option String := r.describe? (some d.ref)

end Registry
end Exemplar
