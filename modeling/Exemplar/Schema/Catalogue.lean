import Exemplar.Schema.Inference
/-!
# Collecting definitions

A `Catalogue` holds the definitions of one or more documents. A later definition replaces an
earlier one of the same name, takes its place in the order, and carries a diagnostic that says
so; every registration is also listed under its source. That a definition replaces another one is
announced before it happens, and markup in the names can break the announcement.
-/
namespace Exemplar

/-- Definitions by name, in the order in which the names were first used, and the names that each
source registered. Replaced definitions are kept aside, for references that were made to them. -/
structure Catalogue where
  types : Assoc String Definition
  files : Assoc String (List String)
  replaced : List Definition
  finished : Bool

namespace Catalogue

def empty : Catalogue := ⟨[], [], [], false⟩

def get? (c : Catalogue) (name : String) : Option Definition := c.types.get? name

def collision (new old : Definition) : Diagnostic :=
  .placeless .nameCollision
    s!"Type {new.name} from {new.source} replaces the definition from {old.source}"

def listUnder (files : Assoc String (List String)) (source name : String) :
    Assoc String (List String) :=
  files.insert source ((files.get? source).getD [] ++ [name])

def register (c : Catalogue) (d : Definition) : Catalogue :=
  let files := listUnder c.files d.source d.name
  match c.get? d.name with
  | none => { c with types := c.types.insert d.name d, files }
  | some old =>
    let d := { d.addErrors [collision d old] with edition := old.edition + 1 }
    { c with types := c.types.insert d.name d, files, replaced := old :: c.replaced }

/-- Announce that a definition is about to replace another one, if it is. Names and sources are not
escaped in the announcement. -/
def announce (console : Text.Console) (c : Catalogue) (d : Definition) :
    Except Text.Markup.Fault Unit :=
  match c.get? d.name with
  | some old => console.print s!"[yellow]{(collision d old).message}[/yellow]"
  | none => .ok ()

/-- Register definitions in order, up to the first one that cannot be announced. -/
def registerAll (console : Text.Console) (c : Catalogue) :
    List Definition → Except Text.Markup.Fault Unit × Catalogue
  | [] => (.ok (), c)
  | d :: ds =>
    match c.announce console d with
    | .ok () => (c.register d).registerAll console ds
    | .error f => (.error f, c)

def addErrors (c : Catalogue) (name : String) (errors : List Diagnostic) : Catalogue :=
  { c with types := c.types.modify name fun d => d.addErrors errors }

end Catalogue

/-- A document whose types are to be inferred. Plain samples hold values where other documents hold
type names. -/
structure Document where
  name : String
  source : String
  value : Json
  errors : List Diagnostic := []
  plain : Bool := false
  linked : Bool := true

namespace Document

/-- The source that the definitions are listed under; an empty one gives way to the name. -/
def origin (d : Document) : String := if d.source = "" then d.name else d.source

/-- The value that types are inferred from: null counts as an empty map, and a plain sample as the
names of its types. -/
def sample (d : Document) : Json :=
  let v := if d.value.isNull then .map [] else d.value
  if d.plain then v.typeNames else v

def definitions (options : Options) (d : Document) : List Definition :=
  let markers := if d.plain then Markers.none else .ofOptions options
  Inference.ofValue ⟨d.origin, markers, d.linked && !d.plain, none⟩ .empty d.name d.sample

end Document

namespace Catalogue

/-- An empty struct under the name of a document that defines nothing there, so that its diagnostics
have a home. -/
def missingRoot? (c : Catalogue) (d : Document) : Option Definition :=
  if (c.get? d.name).any fun root => root.source == d.origin then none
  else some { name := d.name, source := d.origin, shape := .struct [] [] }

/-- Take in what a document defines. The diagnostics of the document go to its root type. When an
announcement fails, what was registered before stays. -/
def addDocument (options : Options) (c : Catalogue) (d : Document) :
    Except Text.Markup.Fault Unit × Catalogue :=
  match c.registerAll options.console (d.definitions options) with
  | (.error f, c) => (.error f, c)
  | (.ok (), c) =>
    match c.registerAll options.console (c.missingRoot? d).toList with
    | (.error f, c) => (.error f, c)
    | (.ok (), c) => (.ok (), c.addErrors d.name d.errors)

end Catalogue
end Exemplar
