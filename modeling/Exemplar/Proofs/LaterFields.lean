import Exemplar.Proofs.LaterDocuments

/-! Fields and elements of a plain sample that is read after other documents. A container refers to
its own type, behind the one that it replaces. A scalar has no type of its own: where an earlier
document left a type at its place, it refers to that one. -/
namespace Exemplar
open Json Inference

namespace Inference

def refOver (c : Catalogue) (name : String) : Json → TypeRef
  | .scalar s =>
    match c.get? name with
    | some old => old.ref
    | none => .primitive (.ofScalar s)
  | _ =>
    match c.get? name with
    | some old => .defined name (old.edition + 1)
    | none => .defined name 0

variable {c c' : Catalogue} {d : Document} {q : Scalar → Prop} {name : String}

/-- The reference to a definition at a site. -/
theorem ref_taken {v : Json} {e : Definition} (hat : definitionAt d.origin (name, v) = some e) :
    (d.taken c e).ref = refOver c name v := by
  have hplaced : (c.placed e).ref = refOver c name v := by
    obtain ⟨hname, -, hedition, -⟩ := made_at hat
    have hcontainer : refOver c name v = match c.get? name with
        | some old => .defined name (old.edition + 1)
        | none => .defined name 0 := by
      cases v with
      | scalar s => cases hat
      | _ => rfl
    rw [hcontainer, Catalogue.placed, hname]
    cases c.get? name with
    | none => rw [Definition.ref, hname, hedition]
    | some old => exact congrArg (fun n => TypeRef.defined n (old.edition + 1)) hname
  rw [Document.taken]
  split
  · exact hplaced
  · exact hplaced

/-- What a sample at a site refers to: what stands there, or else the type that the sample names. -/
theorem ref_site (h : d.Added c c') (hv : IsDocument q d.value) {v : Json}
    (hsite : (name, v) ∈ sites d.name d.root) {sample : Json} {around : Option Surrounding}
    (hsample : ∀ s, v = .scalar s →
      TypeTable.classify c'.types sample around = some (.primitive (.ofScalar s))) :
    (match Assoc.get? c'.types name with
      | some e => some e.ref
      | none => TypeTable.classify c'.types sample around) = some (refOver c name v) := by
  have hget := h.get?_site hv hsite
  rw [Catalogue.get?] at hget
  rw [hget]
  cases hat : definitionAt d.origin (name, v) with
  | some e => exact congrArg some (ref_taken hat)
  | none =>
    cases v with
    | scalar s =>
      rw [refOver]
      cases c.get? name with
      | some old => rfl
      | none => exact hsample s rfl
    | list items => cases hat
    | map entries => cases hat

theorem fieldType?_later (h : d.Added c c') (hv : IsDocument q d.value)
    {entries : List (Scalar × Json)} (hsite : (name, .map entries) ∈ sites d.name d.root)
    {e : Scalar × Json} (he : e ∈ entries) {struct : Definition} (hname : struct.name = name)
    {f : Field} (hproperty : f.property = propertyIn (propertyNames entries) e.1)
    (hsample : f.sample = e.2.typeNames) :
    TypeTable.fieldType? c'.types struct f = some (refOver c (Name.member name f.property) e.2) := by
  have hfield := (closed_sites (d.isDocument_root hv) d.name).entry hsite e he
  rw [← hproperty] at hfield
  rw [TypeTable.fieldType?, hname]
  refine ref_site h hv hfield fun s hs => ?_
  rw [hsample, hs]
  exact classify_typeNames _ s _

theorem elementType?_later (h : d.Added c c') (hv : IsDocument q d.value) {items : List Json}
    (hsite : (name, .list items) ∈ sites d.name d.root) :
    TypeTable.elementType? c'.types name (elementSample items) =
      some (refOver c (elementName name) ((itemInnermost items).getD null)) := by
  have helement := (closed_sites (d.isDocument_root hv) d.name).element hsite
  rw [TypeTable.elementType?]
  refine ref_site h hv helement fun s hs => ?_
  rw [elementSample]
  cases hinner : itemInnermost items with
  | none =>
    rw [hinner] at hs
    cases hs
    rfl
  | some v =>
    rw [hinner] at hs
    obtain rfl : v = .scalar s := hs
    exact classify_typeNames _ s _

end Inference

namespace TypeTable

def typed (types : TypeTable) (f : Field) (t : TypeRef) : Field :=
  { f with
    type := some t
    autocreate := .ofKind t (types.kind? t) }

/-- A struct all of whose samples refer to something. -/
theorem resolve_struct {α : Type} {types : TypeTable} {d : Definition} {xs : List α}
    {field : α → Field} {refs : α → TypeRef} (hshape : d.shape = .struct (xs.map field) [])
    (hrefs : ∀ x ∈ xs, types.fieldType? d (field x) = some (refs x)) :
    types.resolve d =
      { d with shape := .struct (xs.map fun x => types.typed (field x) (refs x)) [] } := by
  have hfields : (xs.map field).map (types.resolveField d) =
      xs.map fun x => types.typed (field x) (refs x) := by
    rw [List.map_map]
    refine List.map_congr_left fun x hx => ?_
    rw [Function.comp_apply, resolveField, hrefs x hx]
    rfl
  have hunknown : (xs.map field).filter (fun f => (types.fieldType? d f).isNone) = [] := by
    rw [List.filter_eq_nil_iff]
    intro f hf
    obtain ⟨x, hx, rfl⟩ := List.mem_map.mp hf
    rw [hrefs x hx]
    simp
  rw [resolve, hshape]
  simp only [hfields, hunknown, List.map_nil, List.append_nil]

theorem resolve_list {types : TypeTable} {d : Definition} {depth : Nat} {sample : Json}
    {old : Option TypeRef} (hshape : d.shape = .list depth sample old) {t : TypeRef}
    (ht : types.elementType? d.name sample = some t) :
    types.resolve d = { d with shape := .list depth sample (some t) } := by
  rw [resolve, hshape]
  simp only [ht]

end TypeTable

namespace Inference

variable {c c' : Catalogue} {d : Document} {q : Scalar → Prop} {name : String}

theorem shape_taken (d : Document) (c : Catalogue) (e : Definition) :
    (d.taken c e).shape = e.shape := by
  unfold Document.taken
  split
  · exact c.shape_placed e
  · exact c.shape_placed e

def fieldOver (c : Catalogue) (types : TypeTable) (name : String) (entries : List (Scalar × Json))
    (e : Scalar × Json) : Field :=
  let property := propertyIn (propertyNames entries) e.1
  types.typed { key := e.1, property, sample := e.2.typeNames }
    (refOver c (Name.member name property) e.2)

theorem struct_later (h : d.Added c c') (hv : IsDocument q d.value)
    {entries : List (Scalar × Json)} (hsite : (name, .map entries) ∈ sites d.name d.root)
    {e : Definition} (hat : definitionAt d.origin (name, .map entries) = some e) :
    resolvedIn c'.types (d.taken c e) =
      { TypeTable.linkInner c'.types (d.taken c e) with
        shape := .struct (entries.map (fieldOver c c'.types name entries)) [] } := by
  let x := TypeTable.linkInner c'.types (d.taken c e)
  have hname : x.name = name := (d.name_taken c e).trans (made_at hat).1
  have hshape : x.shape = .struct (plainFields entries) [] := by
    cases hat
    exact shape_taken d c _
  let refs : Scalar × Json → TypeRef := fun e =>
    refOver c (Name.member name (propertyIn (propertyNames entries) e.1)) e.2
  have hrefs : ∀ e ∈ entries, TypeTable.fieldType? c'.types x
      { key := e.1, property := propertyIn (propertyNames entries) e.1, sample := e.2.typeNames } =
        some (refs e) :=
    fun e he => fieldType?_later h hv hsite he hname rfl rfl
  exact TypeTable.resolve_struct hshape hrefs

theorem list_later (h : d.Added c c') (hv : IsDocument q d.value) {items : List Json}
    (hsite : (name, .list items) ∈ sites d.name d.root) {e : Definition}
    (hat : definitionAt d.origin (name, .list items) = some e) :
    resolvedIn c'.types (d.taken c e) =
      { TypeTable.linkInner c'.types (d.taken c e) with
        shape := .list (itemLevels items) (elementSample items)
          (some (refOver c (elementName name) ((itemInnermost items).getD null))) } := by
  let x := TypeTable.linkInner c'.types (d.taken c e)
  have hname : x.name = name := (d.name_taken c e).trans (made_at hat).1
  have hshape : x.shape = .list (itemLevels items) (elementSample items) none := by
    cases hat
    exact shape_taken d c _
  refine TypeTable.resolve_list hshape ?_
  rw [hname]
  exact elementType?_later h hv hsite

end Inference
end Exemplar
