import Exemplar.Proofs.OwnPlaces
import Exemplar.Proofs.PlainDefinitions

/-! The fields of finished structs. Where the keys of all maps in the documents differ, every field
has a key and a property of its own, so that its key leads to it; and a field whose type is a list
type creates a list. -/
namespace Exemplar
open Inference Json

/-- Every field has a string as its key, and no other field has the key or the property. -/
structure Definition.Keyed (d : Definition) : Prop where
  names : ∀ f ∈ d.fields, ∃ s, f.key = .str s
  keys : (d.fields.map Field.key).Nodup
  properties : (d.fields.map Field.property).Nodup

namespace Definition.Keyed

variable {d : Definition} {f : Field}

theorem eq_of_key (h : d.Keyed) {g : Field} (hf : f ∈ d.fields) (hg : g ∈ d.fields)
    (hkey : (g.key == f.key) = true) : g = f := by
  obtain ⟨s, hs⟩ := h.names f hf
  have hsame : g.key = f.key := by
    rw [hs] at hkey ⊢
    exact eq_str_of_same hkey
  exact List.inj_on_of_nodup_map h.keys hg hf hsame

theorem same_key (h : d.Keyed) (hf : f ∈ d.fields) : (f.key == f.key) = true := by
  obtain ⟨s, hs⟩ := h.names f hf
  rw [hs]
  exact (same_str s s).mpr rfl

theorem propertyFor? (h : d.Keyed) (hf : f ∈ d.fields) :
    d.propertyFor? f.key = some f.property := by
  have hdifferent : (d.fields.map fun g => (g.key, g.property)).Pairwise
      fun e e' => (e.1 == e'.1) = false := by
    refine List.pairwise_map.mpr (List.Pairwise.imp_of_mem (fun {g g'} hg hg' hne => ?_)
      (List.pairwise_map.mp h.keys))
    rw [← Bool.not_eq_true]
    exact fun hsame => hne (congrArg Field.key (h.eq_of_key hg' hg hsame))
  rw [Definition.propertyFor?, Assoc.ofEntries_new hdifferent]
  cases hget : Assoc.get? (d.fields.map fun g => (g.key, g.property)) f.key with
  | none =>
    have hno := Assoc.get?_none.mp hget _ (List.mem_map_of_mem hf)
    rw [h.same_key hf] at hno
    cases hno
  | some p =>
    obtain ⟨k, hk, hsame⟩ := Assoc.get?_mem hget
    obtain ⟨g, hg, heq⟩ := List.mem_map.mp hk
    obtain ⟨rfl, rfl⟩ := Prod.mk.inj heq
    rw [h.eq_of_key hf hg hsame]

theorem field? (h : d.Keyed) (hf : f ∈ d.fields) : d.field? f.property = some f := by
  rw [Definition.field?]
  cases hfind : d.fields.find? fun g => g.property == f.property with
  | none =>
    have hno := List.find?_eq_none.mp hfind f hf
    exact absurd BEq.rfl hno
  | some g =>
    have hg := List.mem_of_find?_eq_some hfind
    have hsame : g.property = f.property := by simpa using List.find?_some hfind
    rw [List.inj_on_of_nodup_map h.properties hg hf hsame]

/-- The key of a field leads to the field. -/
theorem fieldForKey? (h : d.Keyed) (hf : f ∈ d.fields) : d.fieldForKey? f.key = some f := by
  rw [Definition.fieldForKey?, h.propertyFor? hf, Option.bind_some, h.field? hf]

/-- Fields that were named after different keys. -/
theorem of_names {keys : List Scalar} {names : NameTable} (hkey : ∀ k ∈ keys, ∃ s, k = .str s)
    (honce : keys.Nodup) (hnames : names.Names keys) (hkeys : d.fields.map Field.key = keys)
    (hproperties : d.fields.map Field.property = keys.map (propertyIn names)) : d.Keyed where
  names f hf := by
    have hmem : f.key ∈ d.fields.map Field.key := List.mem_map_of_mem hf
    rw [hkeys] at hmem
    exact hkey _ hmem
  keys := by rwa [hkeys]
  properties := by
    rw [hproperties]
    refine List.Nodup.map_on (fun k hk k' hk' hsame => ?_) honce
    obtain ⟨s, rfl⟩ := hkey k hk
    obtain ⟨s', rfl⟩ := hkey k' hk'
    rw [propertyIn_injective hnames hk hk' hsame]

end Definition.Keyed

namespace Json

theorem itemNames_eq (items : List Json) : typeNames.itemNames items = items.map typeNames := by
  induction items with
  | nil => rfl
  | cons x items ih => rw [typeNames.itemNames, ih]; rfl

theorem isDocument_typeNames {q : Scalar → Prop} {v : Json} (h : IsDocument q v) :
    IsDocument (fun _ => True) v.typeNames := by
  induction h with
  | scalar _ => exact .scalar trivial
  | list _ ih =>
    rw [typeNames, itemNames_eq]
    exact .list (List.forall_mem_map.mpr ih)
  | @map entries names once _ ih =>
    rw [typeNames]
    refine .map (fun e he => ?_) (by rwa [keys_entryNames]) (fun e he => ?_)
    · rw [entryNames_eq] at he
      obtain ⟨e', he', rfl⟩ := List.mem_map.mp he
      exact names e' he'
    · rw [entryNames_eq] at he
      obtain ⟨e', he', rfl⟩ := List.mem_map.mp he
      exact ih e' he'

end Json

/-- The sample of a document in JSON is one. -/
theorem Document.isDocument_sample {doc : Document} {q : Scalar → Prop}
    (h : IsDocument q doc.value) : IsDocument (fun _ => True) doc.sample := by
  have hroot : IsDocument (fun _ => True) (if doc.value.isNull then .map [] else doc.value) := by
    split
    · exact .map (by simp) List.nodup_nil (by simp)
    · exact h.imp fun _ _ => trivial
  rw [sample]
  split
  · exact isDocument_typeNames hroot
  · exact hroot

namespace Inference

theorem keys_fieldsOf (c : Context) (entries : List (Scalar × Json)) :
    (fieldsOf c entries).map Field.key = (Assoc.keys entries).filter c.markers.isField := by
  rw [fieldsOf, List.map_map, Assoc.keys, List.filter_map]
  rfl

theorem properties_fieldsOf (c : Context) (entries : List (Scalar × Json)) :
    (fieldsOf c entries).map Field.property =
      ((Assoc.keys entries).filter c.markers.isField).map (propertyIn (fieldNames c entries)) := by
  rw [fieldsOf, List.map_map, Assoc.keys, List.filter_map, List.map_map]
  rfl

theorem keyed_fieldsOf {c : Context} {entries : List (Scalar × Json)} {d : Definition}
    (hnames : ∀ e ∈ entries, ∃ s, e.1 = .str s) (honce : (Assoc.keys entries).Nodup)
    (hkeys : d.fields.map Field.key = (fieldsOf c entries).map Field.key)
    (hproperties : d.fields.map Field.property = (fieldsOf c entries).map Field.property) :
    d.Keyed := by
  rw [keys_fieldsOf] at hkeys
  rw [properties_fieldsOf] at hproperties
  have hpairwise : ((Assoc.keys entries).filter c.markers.isField).Pairwise
      fun k k' => (k == k') = false :=
    (List.pairwise_map.mpr (pairwise_keys hnames honce)).filter _
  refine .of_names (fun k hk => ?_) (honce.filter _)
    (NameTable.names_ofKeys Identifier.isWord_ofText hpairwise) hkeys hproperties
  obtain ⟨e, he, rfl⟩ := List.mem_map.mp (List.mem_filter.mp hk).1
  exact hnames e he

end Inference

namespace Registry

variable {options : Options} {docs : List Document}

theorem keyed_ofDocuments (hdocs : ∀ doc ∈ docs, ∃ q, IsDocument q doc.value) {name : String}
    {d : Definition} (h : (ofDocuments options docs).get? name = some d) : d.Keyed := by
  rcases exists_fieldsOf h with hnone | ⟨doc, hdoc, c, entries, struct, hpart, heq⟩
  · exact ⟨by simp [hnone], by simp [hnone], by simp [hnone]⟩
  · obtain ⟨q, hq⟩ := hdocs doc hdoc
    cases (Document.isDocument_sample hq).part hpart with | map hnames honce _ =>
    refine keyed_fieldsOf hnames honce (c := c) ?_ ?_
    · rw [heq, List.map_map]
      rfl
    · rw [heq, List.map_map]
      rfl

def ListField (r : Registry) (f : Field) : Prop :=
  ∃ l, f.type = some l.ref ∧ r.get? l.name = some l ∧ l.kind = .list

theorem kind?_finish {c : Catalogue} (h : c.finished = false) (t : TypeRef) :
    (ofCatalogue c.finish).types.kind? t = TypeTable.kind? c.types t := by
  cases t with
  | primitive p => rfl
  | defined name edition =>
    have hget : (ofCatalogue c.finish).types.get? name = (c.types.get? name).map (resolvedIn c.types) :=
      get?_finish h name
    rw [TypeTable.kind?, TypeTable.kind?, hget, Option.map_map]
    congr 1
    exact funext (kind_resolvedIn c.types)

theorem kind?_ref {r : Registry} {d : Definition} (h : r.get? d.name = some d) :
    r.types.kind? d.ref = some d.kind := by
  have h : Assoc.get? r.types d.name = some d := h
  rw [Definition.ref, TypeTable.kind?, h]
  rfl

/-- What a field creates when it is read while it is unset is what the kind of its type asks for. -/
theorem autocreate_field {name : String} {d : Definition}
    (h : (ofDocuments options docs).get? name = some d) {f : Field} (hf : f ∈ d.fields) {t : TypeRef}
    (htype : f.type = some t) :
    f.autocreate = .ofKind t ((ofDocuments options docs).types.kind? t) := by
  rcases exists_fieldsOf h with hnone | ⟨doc, -, c, entries, struct, -, heq⟩
  · rw [hnone] at hf
    cases hf
  · rw [heq] at hf
    obtain ⟨g, -, rfl⟩ := List.mem_map.mp hf
    rw [ofDocuments, kind?_finish (Catalogue.finished_addDocuments options .empty docs)]
    simp only [TypeTable.resolveField] at htype ⊢
    rw [Option.some.inj htype]

/-- A field of a list type creates a list when it is read while it is unset. -/
theorem autocreate_ofDocuments {name : String} {d : Definition}
    (h : (ofDocuments options docs).get? name = some d) {f : Field} (hf : f ∈ d.fields)
    (hlist : (ofDocuments options docs).ListField f) : f.autocreate = .list := by
  obtain ⟨l, htype, hl, hkind⟩ := hlist
  rw [autocreate_field h hf htype, kind?_ref hl, hkind]
  rfl

end Registry
end Exemplar
