import Exemplar.Model.Descriptor
import Exemplar.Scalar
import Exemplar.Text.Markup
/-!
# Reports

What the command line prints about types: tables of all types, of the members of one type, and of
the problems that were found. Cells are marked-up texts until they are shown.
-/
namespace Exemplar

/-- A table with a title, the heads of its columns, and rows of cells. -/
structure Table where
  title : String
  columns : List String
  rows : List (List String)
  deriving DecidableEq, Repr

/-- Why a report cannot be given: a type has no description, or markup cannot be shown. -/
inductive ReportFault where
  | endless
  | markup (f : Text.Markup.Fault)
  deriving DecidableEq, Repr

namespace Report

open Text.Markup

def shown (s : String) : Except ReportFault String := (plain s).mapError .markup

/-- What is shown of a table. Its title is a plain text. -/
def shownTable (t : Table) : Except ReportFault Table := do
  let rows ← t.rows.mapM fun row => row.mapM shown
  return { t with rows }

def described (r : Registry) (t : Option TypeRef) : Except ReportFault String :=
  match r.describe? t with
  | some text => .ok text
  | none => .error .endless

def listed (texts : List String) : String := ", ".intercalate texts

def byName {α : Type} (entries : List (String × α)) : List (String × α) :=
  entries.mergeSort fun a b => decide (a.1 ≤ b.1)

/-- What a type looks like: the fields of a struct, the codes of an enum, the elements of a list. -/
def shape (r : Registry) (d : Definition) : Except ReportFault String :=
  match d.shape with
  | .struct fields _ => do
    let texts ← fields.mapM fun f => do
      let text ← described r f.type
      return s!"{f.property}: {text}"
    return listed texts
  | .enum values _ => return listed (values.map Prod.fst)
  | .list _ _ _ => described r (some d.ref)

def count (n : Nat) : String := if n = 0 then "" else Decimal.natText n

def types (r : Registry) : Except ReportFault Table := do
  let rows ← (byName r.types).mapM fun (name, d) => do
    return [name, d.kind.word, escaped (← shape r d), count d.errors.length]
  return ⟨"Inferred Types", ["Type", "Kind", "Shape", "Errors"], rows⟩

def notes (p : Property) : List String :=
  (match p.key? with
    | some key => if key = .str p.name then [] else [s!"key {key.quoted}"]
    | none => []) ++
  (if p.autocreate = .none then [] else [s!"autocreate {p.autocreate.word}"]) ++
  (if p.static then ["static"] else [])

def propertyRow (r : Registry) (p : Property) : Except ReportFault (List String) := do
  return [p.name, "property", escaped (← described r p.type), escaped (listed (notes p))]

def signature (m : Method) : String :=
  let parameters := m.parameters.map fun p => if p.required then p.name else s!"{p.name}=None"
  s!"{m.operation.name}({listed parameters})"

def methodRow (r : Registry) (m : Method) : Except ReportFault (List String) := do
  let returned ← match m.returns with
    | .words text => pure text
    | .type t => described r (some t)
  return [signature m, "method", escaped returned, if m.static then "static" else ""]

def members (r : Registry) (m : Model) : Except ReportFault Table := do
  let properties ← m.properties.mapM (propertyRow r)
  let methods ← m.methods.mapM (methodRow r)
  return ⟨s!"{m.type.name} ({m.type.kind.word})", ["Member", "Kind", "Type", "Notes"],
    properties ++ methods⟩

def diagnosticRow (name : String) (d : Diagnostic) : List String :=
  [name, d.kind.word, Decimal.intText d.line, Decimal.intText d.column, escaped d.message]

def problems (r : Registry) : Table :=
  ⟨"Diagnostics", ["Type", "Kind", "Line", "Column", "Message"],
    (byName r.errors).flatMap fun (name, ds) => ds.map (diagnosticRow name)⟩

end Report
end Exemplar
