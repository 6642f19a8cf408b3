import Exemplar.Proofs.PlainFields

/-! Registries of plain samples. Inference from a plain sample succeeds without a diagnostic; every
map and every list among the sites of the sample has one type, and each type mirrors the value that
it was made from. -/
namespace Exemplar
open Json Inference

namespace Registry

def IsStruct (r : Registry) (name : String) (t : TypeRef) : Prop :=
  ∃ d fields, r.get? name = some d ∧ d.shape = .struct fields [] ∧ t = d.ref

/-- The type of what is met innermost in the list of a name: that of a scalar, the struct that is
registered for elements, or anything if nothing is met. -/
def IsElement (r : Registry) (name : String) : Option Json → TypeRef → Prop
  | none, t => t = .primitive .any
  | some (.scalar s), t => t = .primitive (.ofScalar s)
  | some (.map _), t => r.IsStruct (elementName name) t
  | some (.list _), _ => False

/-- A list type has the depth and the element of a list. -/
def IsListOf (r : Registry) (d : Definition) (items : List Json) : Prop :=
  ∃ sample element, d.shape = .list (itemLevels items) sample (some element) ∧
    r.IsElement d.name (itemInnermost items) element

/-- The type of a value whose place has a name: that of a scalar, or what is registered under the
name. -/
def IsTypeOf (r : Registry) (name : String) : Json → TypeRef → Prop
  | .scalar s, t => t = .primitive (.ofScalar s)
  | .map _, t => r.IsStruct name t
  | .list items, t => ∃ d, r.get? name = some d ∧ r.IsListOf d items ∧ t = d.ref

/-- A type mirrors the value that it was made from: a struct has one field for each entry, with the
key, the property and the type of the entry. -/
def Mirrors (r : Registry) (d : Definition) : Json → Prop
  | .scalar _ => False
  | .list items => r.IsListOf d items
  | .map entries => ∃ fields, d.shape = .struct fields [] ∧
    List.Forall₂ (fun e f => f.key = e.1 ∧ f.property = propertyIn (propertyNames entries) e.1 ∧
      ∃ t, f.type = some t ∧ r.IsTypeOf (Name.member d.name f.property) e.2 t) entries fields

def ofSites (source : String) (found : List (String × Json)) : Registry :=
  .ofCatalogue (Catalogue.ofDefinitions source (definitionsAt source found)).finish

variable {space source : String} {found : List (String × Json)}

theorem types_ofSites (source : String) (found : List (String × Json)) :
    (ofSites source found).types =
      (typesAt source found).map fun e => (e.1, resolvedIn (typesAt source found) e.2) := rfl

theorem get?_ofSites (source : String) (found : List (String × Json)) (name : String) :
    (ofSites source found).get? name =
      (Assoc.get? (typesAt source found) name).map (resolvedIn (typesAt source found)) := by
  rw [get?, types_ofSites]
  exact Assoc.get?_map _ _ _

/-- A struct that is registered for a map. -/
theorem struct_ofSites (source : String) (h : Apart space found) (hclosed : Closed found)
    {name : String} {entries : List (Scalar × Json)} (hsite : (name, .map entries) ∈ found) :
    ∃ d fields, (ofSites source found).get? name = some d ∧ d.name = name ∧ d.edition = 0 ∧
      d.errors = [] ∧ d.shape = .struct fields [] ∧
      List.Forall₂ (fun e f => f.key = e.1 ∧ f.property = propertyIn (propertyNames entries) e.1 ∧
        f.type = some (refAt (Name.member name f.property) e.2)) entries fields := by
  rw [get?_ofSites, typeAt_site h hsite]
  exact resolved_struct h hclosed hsite

/-- A list type that is registered for a list. -/
theorem list_ofSites (source : String) (h : Apart space found) (hclosed : Closed found)
    {name : String} {items : List Json} (hsite : (name, .list items) ∈ found) :
    ∃ d, (ofSites source found).get? name = some d ∧ d.name = name ∧ d.edition = 0 ∧
      d.errors = [] ∧ d.shape = .list (itemLevels items) (elementSample items)
        (some (refAt (elementName name) ((itemInnermost items).getD null))) := by
  rw [get?_ofSites, typeAt_site h hsite]
  exact resolved_list h hclosed hsite

theorem isStruct_ofSites (h : Apart space found) (hclosed : Closed found) {name : String}
    {entries : List (Scalar × Json)} (hsite : (name, .map entries) ∈ found) :
    (ofSites source found).IsStruct name (.defined name 0) := by
  obtain ⟨d, fields, hd, hname, hedition, -, hshape, -⟩ := struct_ofSites source h hclosed hsite
  exact ⟨d, fields, hd, hshape, by rw [Definition.ref, hname, hedition]⟩

theorem isListOf_ofSites (source : String) (h : Apart space found) (hclosed : Closed found)
    {name : String} {items : List Json} (hsite : (name, .list items) ∈ found) :
    ∃ d, (ofSites source found).get? name = some d ∧ d.name = name ∧ d.edition = 0 ∧
      d.errors = [] ∧ (ofSites source found).IsListOf d items := by
  obtain ⟨d, hd, hname, hedition, herrors, hshape⟩ := list_ofSites source h hclosed hsite
  refine ⟨d, hd, hname, hedition, herrors, _, _, hshape, ?_⟩
  have helement := hclosed.element hsite
  rw [hname]
  cases hinner : itemInnermost items with
  | none => rfl
  | some x =>
    rw [hinner] at helement
    cases x with
    | scalar s => rfl
    | list parts => exact absurd hinner (itemInnermost_ne_list items parts)
    | map entries => exact isStruct_ofSites h hclosed helement

/-- At every site the value's type is what refers to the site. -/
theorem isTypeOf_ofSites (source : String) (h : Apart space found) (hclosed : Closed found)
    {name : String} {v : Json} (hsite : (name, v) ∈ found) :
    (ofSites source found).IsTypeOf name v (refAt name v) := by
  cases v with
  | scalar s => rfl
  | list items =>
    obtain ⟨d, hd, hname, hedition, -, hlist⟩ := isListOf_ofSites source h hclosed hsite
    exact ⟨d, hd, hlist, by rw [Definition.ref, hname, hedition]; rfl⟩
  | map entries => exact isStruct_ofSites h hclosed hsite

/-- A map or a list has a type at its site. -/
theorem ref_ofSites (source : String) (h : Apart space found) (hclosed : Closed found)
    {name : String} {v : Json} (hsite : (name, v) ∈ found) (hcontainer : (v.isMap || v.isList) = true) :
    ∃ d, (ofSites source found).get? name = some d ∧ d.ref = refAt name v := by
  have htype := isTypeOf_ofSites source h hclosed hsite
  cases v with
  | scalar s => cases hcontainer
  | list items =>
    obtain ⟨d, hd, -, href⟩ := htype
    exact ⟨d, hd, href.symm⟩
  | map entries =>
    obtain ⟨d, fields, hd, -, href⟩ := htype
    exact ⟨d, hd, href.symm⟩

/-- Every type has no diagnostic and mirrors the value at its site. -/
theorem mirrors_ofSites (h : Apart space found) (hclosed : Closed found) {d : Definition}
    (hd : d ∈ (ofSites source found).definitions) :
    d.errors = [] ∧ ∃ v, (d.name, v) ∈ found ∧ (ofSites source found).Mirrors d v := by
  rw [definitions, types_ofSites, List.map_map] at hd
  obtain ⟨e, he, rfl⟩ := List.mem_map.mp hd
  obtain ⟨made, hmade, rfl⟩ := List.mem_map.mp he
  obtain ⟨⟨name, v⟩, hsite, hat⟩ := List.mem_filterMap.mp hmade
  have hget : (ofSites source found).get? name = some (resolvedIn (typesAt source found) made) := by
    rw [get?_ofSites, typeAt_site h hsite, hat]
    rfl
  change (resolvedIn (typesAt source found) made).errors = [] ∧ _
  cases v with
  | scalar s => cases hat
  | list items =>
    obtain ⟨d, hd, hname, -, herrors, hlist⟩ := isListOf_ofSites source h hclosed hsite
    obtain rfl : resolvedIn (typesAt source found) made = d := by
      rw [hget] at hd
      exact Option.some.inj hd
    exact ⟨herrors, .list items, hname.symm ▸ hsite, hlist⟩
  | map entries =>
    obtain ⟨d, fields, hd, hname, -, herrors, hshape, hfields⟩ :=
      struct_ofSites source h hclosed hsite
    obtain rfl : resolvedIn (typesAt source found) made = d := by
      rw [hget] at hd
      exact Option.some.inj hd
    refine ⟨herrors, .map entries, hname.symm ▸ hsite, fields, hshape, ?_⟩
    rw [List.forall₂_iff_zip] at hfields ⊢
    refine ⟨hfields.1, fun {e f} hzip => ?_⟩
    obtain ⟨hkey, hproperty, htype⟩ := hfields.2 hzip
    have hfield := hclosed.entry hsite e (List.of_mem_zip hzip).1
    rw [← hproperty] at hfield
    exact ⟨hkey, hproperty, _, htype, hname.symm ▸ isTypeOf_ofSites source h hclosed hfield⟩

theorem names_ofSites (source : String) (found : List (String × Json)) :
    (ofSites source found).names = definedNames found := by
  rw [names, types_ofSites, Assoc.keys, List.map_map, ← names_definitionsAt source,
    ← Catalogue.keys_ofDefinitions source]
  rfl

theorem files_ofSites (source : String) {found : List (String × Json)}
    (h : definedNames found ≠ []) :
    (ofSites source found).files = [(source, definedNames found)] := by
  have hsome : (definitionsAt source found).isEmpty = false := by
    rw [← names_definitionsAt source] at h
    cases hds : definitionsAt source found with
    | nil => exact absurd (by rw [hds]; rfl) h
    | cons d ds => rfl
  change (if (definitionsAt source found).isEmpty then [] else
    [(source, (definitionsAt source found).map Definition.name)]) = _
  rw [hsome, names_definitionsAt]
  rfl

theorem definedNames_root (d : Document) : definedNames (sites d.name d.root) ≠ [] := by
  have hcontainer : (d.root.isMap || d.root.isList) = true := by
    rw [Document.root]
    cases d.value <;> rfl
  refine List.ne_nil_of_mem (a := d.name) (List.mem_map.mpr ⟨(d.name, d.root), ?_, rfl⟩)
  exact List.mem_filter.mpr ⟨self_mem_sites _ _, hcontainer⟩

theorem ofDocument_eq (options : Options) {d : Document} (hplain : d.plain = true)
    (herrors : d.errors = []) {q : Scalar → Prop} (hv : IsDocument q d.value) :
    ofDocument options d = .ok (ofSites d.origin (sites d.name d.root)) := by
  rw [ofDocument, d.addDocument_plain options hplain herrors hv]
  rfl

/-- A plain sample is inferred without a problem. Its maps and lists that are met along keys and
first elements define one type each, registered once under the name of the place, and each type
mirrors its value. -/
theorem ofDocument_plain (options : Options) {d : Document} (hplain : d.plain = true)
    (herrors : d.errors = []) {q : Scalar → Prop} (hv : IsDocument q d.value) :
    ∃ r, ofDocument options d = .ok r ∧ r.names = definedNames (sites d.name d.root) ∧
      r.names.Nodup ∧ r.files = [(d.origin, r.names)] ∧
      ∀ e ∈ r.definitions, e.errors = [] ∧
        ∃ v, (e.name, v) ∈ sites d.name d.root ∧ r.Mirrors e v := by
  have hroot := d.isDocument_root hv
  have hapart := apart_sites hroot d.name
  have hclosed := closed_sites hroot d.name
  refine ⟨_, ofDocument_eq options hplain herrors hv, names_ofSites _ _, ?_, ?_, ?_⟩
  · rw [names_ofSites]
    exact once_definedNames hapart
  · rw [names_ofSites]
    exact files_ofSites _ (definedNames_root d)
  · exact fun e he => mirrors_ofSites hapart hclosed he

/-- Keys whose names would be the same, a key that reads like the name of elements, and lists in
lists. -/
def oddSample : Json :=
  .map [(.str "a b", .list [.list [.map [(.str "x", .scalar (.bool true))], .scalar (.int 1)]]),
    (.str "a_b", .map []), (.str "a_b_2", .scalar .null), (.str "Element", .list [.list []])]

theorem oddSample_isDocument : IsDocument (fun _ => True) oddSample := by
  decide

theorem ofDocument_plain_odd :
    let d : Document := { name := "N", source := "", value := oddSample, plain := true }
    ∃ r, ofDocument {} d = .ok r ∧ r.names = definedNames (sites "N" oddSample) ∧
      r.names.Nodup ∧ r.files = [("N", r.names)] ∧
      ∀ e ∈ r.definitions, e.errors = [] ∧
        ∃ v, (e.name, v) ∈ sites "N" oddSample ∧ r.Mirrors e v :=
  ofDocument_plain {} rfl rfl oddSample_isDocument

/-- The types of the sample, in the order in which they are registered. -/
example : definedNames (sites "N" oddSample) =
    ["N.a_b.Element", "N.a_b", "N.a_b_2", "N.Element", "N"] := by
  decide +kernel

end Registry
end Exemplar
