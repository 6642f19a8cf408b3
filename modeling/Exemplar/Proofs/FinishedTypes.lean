import Exemplar.Proofs.Tables
import Exemplar.Schema.Registry

/-! Finished types. Each definition keeps its name, its source and its edition when the inner types are
linked and the references are resolved, and stays where it is in the table. -/
namespace Exemplar

namespace Inference

def resolvedIn (types : TypeTable) (d : Definition) : Definition :=
  types.resolve (types.linkInner d)

theorem resolvedIn_name_source_ref (types : TypeTable) (d : Definition) :
    (resolvedIn types d).name = d.name ∧ (resolvedIn types d).source = d.source ∧
      (resolvedIn types d).ref = d.ref := by
  rw [resolvedIn, TypeTable.resolve]
  split
  · exact ⟨rfl, rfl, rfl⟩
  · split <;> exact ⟨rfl, rfl, rfl⟩
  · exact ⟨rfl, rfl, rfl⟩

theorem inner_resolvedIn (types : TypeTable) (d : Definition) :
    (resolvedIn types d).inner = types.innerTypes d.name := by
  rw [resolvedIn, TypeTable.resolve]
  split
  · rfl
  · split <;> rfl
  · rfl

/-- Only what fields and elements refer to is new in a finished type. -/
theorem shape_resolvedIn (types : TypeTable) (d : Definition) : (resolvedIn types d).shape =
    match d.shape with
    | .struct fields aliases => .struct (fields.map (types.resolveField (types.linkInner d))) aliases
    | .list depth sample _ =>
      .list depth sample (some ((types.elementType? d.name sample).getD (.primitive .any)))
    | .enum values origin => .enum values origin := by
  obtain ⟨name, source, shape, edition, errors, inner⟩ := d
  cases shape with
  | struct fields aliases => rfl
  | enum values origin => rfl
  | list depth sample element =>
    simp only [resolvedIn, TypeTable.resolve, TypeTable.linkInner]
    cases types.elementType? name sample <;> rfl

theorem fields_resolvedIn (types : TypeTable) (d : Definition) :
    (resolvedIn types d).fields = d.fields.map (types.resolveField (types.linkInner d)) := by
  rw [Definition.fields, Definition.fields, shape_resolvedIn]
  cases d.shape <;> rfl

theorem aliases_resolvedIn (types : TypeTable) (d : Definition) :
    (resolvedIn types d).aliases = d.aliases := by
  rw [Definition.aliases, Definition.aliases, shape_resolvedIn]
  cases d.shape <;> rfl

theorem kind_resolvedIn (types : TypeTable) (d : Definition) :
    (resolvedIn types d).kind = d.kind := by
  rw [Definition.kind, Definition.kind, shape_resolvedIn]
  cases d.shape <;> rfl

/-- A list that is finished has an element, that of anything if its sample refers to nothing. -/
theorem list_resolvedIn {types : TypeTable} {d : Definition} {depth : Nat} {sample : Json}
    {element : Option TypeRef} (h : (resolvedIn types d).shape = .list depth sample element) :
    element = some ((types.elementType? d.name sample).getD (.primitive .any)) := by
  rw [shape_resolvedIn] at h
  split at h
  · cases h
  · cases h
    rfl
  · cases h

end Inference

namespace Registry
open Inference

variable {c : Catalogue}

theorem types_finish (h : c.finished = false) :
    (ofCatalogue c.finish).types = c.types.map fun e => (e.1, resolvedIn c.types e.2) := by
  rw [Catalogue.finish, h]
  rfl

theorem get?_finish (h : c.finished = false) (name : String) :
    (ofCatalogue c.finish).get? name = (c.get? name).map (resolvedIn c.types) := by
  rw [get?, types_finish h]
  exact Assoc.get?_map _ _ _

/-- The nearest struct around a name is the finished one of before. -/
theorem enclosingStruct_finish (h : c.finished = false) (name : String) :
    (ofCatalogue c.finish).types.enclosingStruct name =
      (TypeTable.enclosingStruct c.types name).map (resolvedIn c.types) := by
  have hget (space : String) : (ofCatalogue c.finish).types.get? space =
      (c.types.get? space).map (resolvedIn c.types) := get?_finish h space
  rw [TypeTable.enclosingStruct, TypeTable.enclosingStruct, List.map_findSome?]
  refine congrArg (fun f => List.findSome? f _) (funext fun space => ?_)
  rw [hget, Function.comp_apply]
  cases c.types.get? space with
  | none => rfl
  | some d =>
    rw [Option.map_some, Option.filter_some, Option.filter_some, kind_resolvedIn]
    split <;> rfl

theorem names_finish (h : c.finished = false) : (ofCatalogue c.finish).names = c.types.keys := by
  rw [names, types_finish h, Assoc.keys, List.map_map]
  rfl

theorem replaced_finish (c : Catalogue) : (ofCatalogue c.finish).replaced = c.replaced := by
  rw [Catalogue.finish]
  split <;> rfl

theorem files_finish (c : Catalogue) : (ofCatalogue c.finish).files = c.files := by
  rw [Catalogue.finish]
  split <;> rfl

end Registry
end Exemplar
