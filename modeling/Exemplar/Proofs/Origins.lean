import Exemplar.Proofs.OwnPlaces

/-! Where the types of a registry come from. Each is a definition of one of the documents, or an empty
struct for a document that defines nothing under its name; when the types are finished, names are
resolved as they are in the finished registry. -/
namespace Exemplar
open Inference

namespace Catalogue

/-- What is registered of documents is defined by one of them, or stands for one that defines nothing
under its name. -/
theorem exists_of_mem_history {options : Options} {c : Catalogue} {docs : List Document}
    {e : Definition} (h : e ∈ c.history options docs) :
    ∃ doc ∈ docs, e ∈ doc.definitions options ∨
      e = { name := doc.name, source := doc.origin, shape := .struct [] [] } := by
  induction docs generalizing c with
  | nil => cases h
  | cons doc docs ih =>
    rcases List.mem_append.mp h with h | h
    · refine ⟨doc, List.mem_cons_self, ?_⟩
      rcases List.mem_append.mp h with h | h
      · exact .inl (admitted_subset _ c _ e h)
      · split at h
        · have hroot := Option.mem_toList.mp (admitted_subset _ _ _ e h)
          rw [missingRoot?] at hroot
          split at hroot
          · cases hroot
          · exact .inr (Option.some.inj hroot).symm
        · cases h
    · obtain ⟨doc', hdoc', hmade⟩ := ih h
      exact ⟨doc', List.mem_cons_of_mem doc hdoc', hmade⟩

end Catalogue

namespace Registry

variable {c : Catalogue}

theorem lookup_finish (h : c.finished = false) (name : String) (s : Option Surrounding) :
    (ofCatalogue c.finish).types.lookup name s =
      (TypeTable.lookup c.types name s).map (resolvedIn c.types) := by
  have hget (place : String) : (ofCatalogue c.finish).types.get? place =
      (c.types.get? place).map (resolvedIn c.types) := get?_finish h place
  rw [TypeTable.lookup, TypeTable.lookup, hget]
  cases c.types.get? name with
  | some d => rfl
  | none =>
    simp only [Option.map_none, List.map_findSome?, hget]
    rfl

/-- Names are resolved in the finished registry as they were when it was finished. -/
theorem classify_finish (h : c.finished = false) (sample : Json) (s : Option Surrounding) :
    (ofCatalogue c.finish).types.classify sample s = TypeTable.classify c.types sample s := by
  have href (name : String) (s : Option Surrounding) :
      ((ofCatalogue c.finish).types.lookup name s).map Definition.ref =
        (TypeTable.lookup c.types name s).map Definition.ref := by
    rw [lookup_finish h, Option.map_map]
    congr 1
    exact funext fun d => (resolvedIn_name_source_ref c.types d).2.2
  unfold TypeTable.classify TypeTable.classifyName
  simp only [href]

theorem surrounding_resolvedIn (types : TypeTable) (d : Definition) :
    (resolvedIn types d).surrounding = d.surrounding := by
  rw [Definition.surrounding, Definition.surrounding, aliases_resolvedIn,
    (resolvedIn_name_source_ref types d).1]

theorem surrounding_finish (h : c.finished = false) (name : String) :
    ((ofCatalogue c.finish).types.enclosingStruct name).map Definition.surrounding =
      (TypeTable.enclosingStruct c.types name).map Definition.surrounding := by
  rw [enclosingStruct_finish h, Option.map_map]
  congr 1
  exact funext (surrounding_resolvedIn c.types)

theorem elementType?_finish (h : c.finished = false) (name : String) (sample : Json) :
    (ofCatalogue c.finish).types.elementType? name sample =
      TypeTable.elementType? c.types name sample := by
  have hget (place : String) : (ofCatalogue c.finish).types.get? place =
      (c.types.get? place).map (resolvedIn c.types) := get?_finish h place
  rw [TypeTable.elementType?, TypeTable.elementType?, hget, classify_finish h, surrounding_finish h]
  cases c.types.get? (elementName name) with
  | none => rfl
  | some d => exact congrArg some (resolvedIn_name_source_ref c.types d).2.2

theorem fieldType?_finish (h : c.finished = false) (d : Definition) (f : Field) :
    (ofCatalogue c.finish).types.fieldType? (resolvedIn c.types d) f =
      TypeTable.fieldType? c.types d f := by
  have hget (place : String) : (ofCatalogue c.finish).types.get? place =
      (c.types.get? place).map (resolvedIn c.types) := get?_finish h place
  rw [TypeTable.fieldType?, TypeTable.fieldType?, hget, classify_finish h, surrounding_resolvedIn,
    (resolvedIn_name_source_ref c.types d).1]
  cases c.types.get? (Name.member d.name f.property) with
  | none => rfl
  | some own => exact congrArg some (resolvedIn_name_source_ref c.types own).2.2

variable {options : Options} {docs : List Document} {name : String} {d : Definition} {f : Field}

/-- A type of documents is a finished definition of one of them. -/
theorem exists_definition (h : (ofDocuments options docs).get? name = some d) :
    d.name = name ∧ ∃ doc ∈ docs, ∃ e x, (e ∈ doc.definitions options ∨
      e = { name := doc.name, source := doc.origin, shape := .struct [] [] }) ∧ e.name = name ∧
      x.name = name ∧ x.shape = e.shape ∧ d.source = doc.origin ∧
      d = resolvedIn (Catalogue.empty.addDocuments options docs).types x := by
  have hopen := Catalogue.finished_addDocuments options .empty docs
  rw [ofDocuments, get?_finish hopen] at h
  obtain ⟨x, hx, rfl⟩ := Option.map_eq_some_iff.mp h
  obtain ⟨hname, ⟨e, hlast, hsource, hshape⟩, -⟩ :=
    (Catalogue.accounts_addDocuments options docs).stands name x hx
  obtain ⟨hmem, hsame⟩ := List.mem_filter.mp (List.mem_of_getLast? hlast)
  obtain ⟨doc, hdoc, hdefined⟩ := Catalogue.exists_of_mem_history hmem
  obtain ⟨hresolved, hresolvedSource, -⟩ :=
    resolvedIn_name_source_ref (Catalogue.empty.addDocuments options docs).types x
  refine ⟨hresolved.trans hname, doc, hdoc, e, x, hdefined, (of_decide_eq_true hsame).trans hname, hname,
    hshape, ?_, rfl⟩
  rw [hresolvedSource, hsource]
  rcases hdefined with hdefined | rfl
  · exact (madeBy_definitions options doc e hdefined).source
  · rfl

/-- A field has the type that is registered at its place, or the one that its sample gives. -/
theorem field_ofDocuments (h : (ofDocuments options docs).get? name = some d) (hf : f ∈ d.fields) :
    f.type = some (((ofDocuments options docs).types.fieldType? d f).getD (.primitive .any)) := by
  have hopen := Catalogue.finished_addDocuments options .empty docs
  obtain ⟨-, doc, -, e, x, -, -, -, -, -, rfl⟩ := exists_definition h
  rw [fields_resolvedIn] at hf
  obtain ⟨g, -, rfl⟩ := List.mem_map.mp hf
  rw [ofDocuments, fieldType?_finish hopen]
  rfl

/-- The elements of a list type are of the type that its sample gives in the registry. -/
theorem element_ofDocuments (h : (ofDocuments options docs).get? name = some d) {depth : Nat}
    {sample : Json} {element : Option TypeRef} (hshape : d.shape = .list depth sample element) :
    element = some (((ofDocuments options docs).types.elementType? name sample).getD
      (.primitive .any)) := by
  have hopen := Catalogue.finished_addDocuments options .empty docs
  obtain ⟨-, doc, -, e, x, -, -, hname, -, -, rfl⟩ := exists_definition h
  rw [list_resolvedIn hshape, ofDocuments, elementType?_finish hopen, hname]

end Registry
end Exemplar
