import Exemplar.Proofs.FinishedTypes
import Exemplar.Proofs.PlainTypes
import Mathlib.Data.List.Forall2

/-! Fields of plain samples. Once all types are registered, the type of each field and each element
is found by its name alone, and it is the type of the value that stands there. -/
namespace Exemplar
open Json Inference

namespace Inference

/-- What refers to the type of a value at a site: maps and lists have a type of their own under the
name of the site. -/
def refAt (name : String) : Json → TypeRef
  | .scalar s => .primitive (.ofScalar s)
  | _ => .defined name 0

/-- The name of a scalar's type refers to this type everywhere. -/
theorem classify_typeNames (types : TypeTable) (s : Scalar) (around : Option Surrounding) :
    types.classify (Json.scalar s).typeNames around = some (.primitive (.ofScalar s)) := by
  cases s <;> rfl

variable {space source : String} {found : List (String × Json)}

def typesAt (source : String) (found : List (String × Json)) : TypeTable :=
  (Catalogue.ofDefinitions source (definitionsAt source found)).types

theorem typeAt_site (h : Apart space found) {name : String} {v : Json} (hsite : (name, v) ∈ found) :
    Assoc.get? (typesAt source found) name = definitionAt source (name, v) :=
  get?_site source h hsite

theorem fieldType?_site (h : Apart space found) (hclosed : Closed found) {name : String}
    {entries : List (Scalar × Json)} (hsite : (name, .map entries) ∈ found) {e : Scalar × Json}
    (he : e ∈ entries) {struct : Definition} (hname : struct.name = name) {f : Field}
    (hproperty : f.property = propertyIn (propertyNames entries) e.1)
    (hsample : f.sample = e.2.typeNames) :
    (typesAt source found).fieldType? struct f = some (refAt (Name.member name f.property) e.2) := by
  have hfield := hclosed.entry hsite e he
  rw [← hproperty] at hfield
  rw [TypeTable.fieldType?, hname, typeAt_site h hfield]
  cases hv : e.2 with
  | scalar s =>
    rw [hsample, hv]
    exact classify_typeNames _ s _
  | list items => rfl
  | map entries => rfl

theorem elementType?_site (source : String) (h : Apart space found) (hclosed : Closed found)
    {name : String} {items : List Json} (hsite : (name, .list items) ∈ found) :
    (typesAt source found).elementType? name (elementSample items) =
      some (refAt (elementName name) ((itemInnermost items).getD null)) := by
  rw [TypeTable.elementType?, typeAt_site h (hclosed.element hsite), elementSample]
  cases hinner : itemInnermost items with
  | none => rfl
  | some v =>
    cases v with
    | scalar s => exact classify_typeNames _ s _
    | list items => rfl
    | map entries => rfl

/-- A struct keeps its fields and gets the types of their values. -/
theorem resolved_struct (h : Apart space found) (hclosed : Closed found) {name : String}
    {entries : List (Scalar × Json)} (hsite : (name, .map entries) ∈ found) :
    ∃ d fields, (definitionAt source (name, .map entries)).map (resolvedIn (typesAt source found)) =
        some d ∧ d.name = name ∧ d.edition = 0 ∧ d.errors = [] ∧ d.shape = .struct fields [] ∧
      List.Forall₂ (fun e f => f.key = e.1 ∧ f.property = propertyIn (propertyNames entries) e.1 ∧
        f.type = some (refAt (Name.member name f.property) e.2)) entries fields := by
  have htype {e : Scalar × Json} (he : e ∈ entries) {struct : Definition}
      (hname : struct.name = name) : (typesAt source found).fieldType? struct
        { key := e.1, property := propertyIn (propertyNames entries) e.1, sample := e.2.typeNames } =
      some (refAt (Name.member name (propertyIn (propertyNames entries) e.1)) e.2) :=
    fieldType?_site h hclosed hsite he hname rfl rfl
  refine ⟨_, _, rfl, rfl, rfl, ?_, rfl, ?_⟩
  · change [] ++ ((plainFields entries).filter _).map _ = []
    rw [List.nil_append, List.map_eq_nil_iff, List.filter_eq_nil_iff]
    intro f hf
    obtain ⟨e, he, rfl⟩ := List.mem_map.mp hf
    rw [htype he rfl]
    simp
  · rw [plainFields, List.map_map, List.forall₂_map_right_iff, List.forall₂_same]
    intro e he
    refine ⟨rfl, rfl, ?_⟩
    simp only [Function.comp_apply, TypeTable.resolveField]
    rw [htype he rfl]
    rfl

/-- A list type keeps its depth and gets the type of its innermost first element. -/
theorem resolved_list (h : Apart space found) (hclosed : Closed found) {name : String}
    {items : List Json} (hsite : (name, .list items) ∈ found) :
    ∃ d, (definitionAt source (name, .list items)).map (resolvedIn (typesAt source found)) =
        some d ∧ d.name = name ∧ d.edition = 0 ∧ d.errors = [] ∧
      d.shape = .list (itemLevels items) (elementSample items)
        (some (refAt (elementName name) ((itemInnermost items).getD null))) := by
  have helement := elementType?_site source h hclosed hsite
  refine ⟨_, rfl, ?_⟩
  simp only [resolvedIn, TypeTable.resolve, TypeTable.linkInner, helement, and_self]

end Inference
end Exemplar
