import Exemplar.Proofs.FinishedTypes
import Exemplar.Proofs.RegistrationHistory

/-! Closed registries. Whatever documents were taken in, each finished field and each list refers to a
primitive type or to a definition that stands in the registry under its own name, and each type knows
the types in its namespace. -/
namespace Exemplar
open Inference

namespace TypeTable

variable {types : TypeTable} {t : TypeRef}

def Offers (types : TypeTable) (t : TypeRef) : Prop :=
  (∃ p, t = .primitive p) ∨ ∃ name d, types.get? name = some d ∧ d.ref = t

theorem exists_of_lookup {name : String} {s : Option Surrounding} {d : Definition}
    (h : types.lookup name s = some d) : ∃ place, types.get? place = some d := by
  rw [lookup] at h
  split at h
  · next d' hfound =>
    cases h
    exact ⟨name, hfound⟩
  · obtain ⟨space, -, hfound⟩ := List.exists_of_findSome?_eq_some h
    exact ⟨_, hfound⟩

theorem offers_of_lookup {name : String} {s : Option Surrounding}
    (h : (types.lookup name s).map Definition.ref = some t) : types.Offers t := by
  obtain ⟨d, hd, rfl⟩ := Option.map_eq_some_iff.mp h
  obtain ⟨place, hplace⟩ := exists_of_lookup hd
  exact .inr ⟨place, d, hplace, rfl⟩

theorem offers_of_classifyName {name : String} {s : Option Surrounding}
    (h : types.classifyName name s = some t) : types.Offers t := by
  unfold classifyName at h
  split at h
  · exact .inl ⟨_, (Option.some.inj h).symm⟩
  · split at h
    · split at h
      · simp only [] at h
        split at h
        · exact .inl ⟨_, (Option.some.inj h).symm⟩
        · exact offers_of_lookup h
      · exact offers_of_lookup h
    · exact offers_of_lookup h

theorem offers_of_classify {sample : Json} {s : Option Surrounding}
    (h : types.classify sample s = some t) : types.Offers t := by
  unfold classify at h
  split at h
  · exact .inl ⟨_, (Option.some.inj h).symm⟩
  · exact .inl ⟨_, (Option.some.inj h).symm⟩
  · exact offers_of_classifyName h
  · exact .inl ⟨_, (Option.some.inj h).symm⟩

theorem offers_of_fieldType? {struct : Definition} {f : Field}
    (h : types.fieldType? struct f = some t) : types.Offers t := by
  rw [fieldType?] at h
  split at h
  · next d hfound => exact .inr ⟨_, d, hfound, Option.some.inj h⟩
  · exact offers_of_classify h

theorem offers_of_elementType? {name : String} {sample : Json}
    (h : types.elementType? name sample = some t) : types.Offers t := by
  rw [elementType?] at h
  split at h
  · next d hfound => exact .inr ⟨_, d, hfound, Option.some.inj h⟩
  · exact offers_of_classify h

theorem offers_any (types : TypeTable) : types.Offers (.primitive .any) := .inl ⟨.any, rfl⟩

/-- Every field is given a type that the table offers. -/
theorem exists_fieldType (types : TypeTable) (d : Definition) :
    ∀ f ∈ (resolvedIn types d).fields, ∃ t, f.type = some t ∧ types.Offers t := by
  intro f hf
  rw [fields_resolvedIn] at hf
  obtain ⟨g, -, rfl⟩ := List.mem_map.mp hf
  refine ⟨_, rfl, ?_⟩
  cases htype : types.fieldType? (types.linkInner d) g with
  | none => exact types.offers_any
  | some t => exact offers_of_fieldType? htype

theorem exists_elementType (types : TypeTable) (d : Definition) {depth : Nat} {sample : Json}
    {element : Option TypeRef} (h : (resolvedIn types d).shape = .list depth sample element) :
    ∃ t, element = some t ∧ types.Offers t := by
  refine ⟨_, list_resolvedIn h, ?_⟩
  cases htype : types.elementType? d.name sample with
  | none => exact types.offers_any
  | some t => exact offers_of_elementType? htype

/-- The inner types of a name, by the names in the table. -/
theorem innerTypes_eq (h : ∀ e ∈ types, e.2.name = e.1) (space : String) :
    types.innerTypes space = Assoc.ofEntries
      ((types.keys.filter fun n => Name.namespaceOf n = space).map fun n => (Name.segment n, n)) := by
  rw [innerTypes, Assoc.keys]
  congr 1
  induction types with
  | nil => rfl
  | cons e types ih =>
    obtain ⟨he, hrest⟩ := List.forall_mem_cons.mp h
    rw [List.map_cons, List.map_cons, List.filterMap_cons, List.filter_cons, ih hrest, he]
    by_cases hspace : Name.namespaceOf e.1 = space
    · rw [if_pos hspace, if_pos (decide_eq_true hspace)]
      rfl
    · rw [if_neg hspace, if_neg (by simpa using hspace)]

end TypeTable

namespace Registry

variable {r : Registry}

/-- A reference to a primitive type, or to a definition that stands under its own name. Nothing that
was replaced is referred to. -/
def Holds (r : Registry) (t : TypeRef) : Prop :=
  (∃ p, t = .primitive p) ∨
    ∃ d, r.get? d.name = some d ∧ d.ref = t ∧ ∀ old ∈ r.replaced, old.ref ≠ t

/-- The names in a namespace that end in a segment, in the order of the types. -/
def namesAt (r : Registry) (space segment : String) : List String :=
  r.names.filter fun n => Name.namespaceOf n = space ∧ Name.segment n = segment

/-- Whatever a type refers to is held, and its inner types are those in its namespace. In a namespace
with a name a segment stands for one type only; where it stands for several, the last one is kept. -/
structure SelfContained (r : Registry) : Prop where
  once : r.names.Nodup
  named : ∀ name d, r.get? name = some d → d.name = name
  fields : ∀ name d, r.get? name = some d → ∀ f ∈ d.fields, ∃ t, f.type = some t ∧ r.Holds t
  elements : ∀ name d, r.get? name = some d → ∀ depth sample element,
    d.shape = .list depth sample element → ∃ t, element = some t ∧ r.Holds t
  inner : ∀ name d, r.get? name = some d → d.inner.keys.Nodup ∧
    ∀ segment, d.inner.get? segment = (r.namesAt name segment).getLast?
  whole : ∀ name d, r.get? name = some d → name ≠ "" → ∀ segment n,
    d.inner.get? segment = some n ↔
      n ∈ r.names ∧ Name.namespaceOf n = name ∧ Name.segment n = segment

/-- In a namespace with a name there is one name for a segment. -/
theorem getLast?_namesAt (r : Registry) {space : String} (hspace : space ≠ "")
    (segment n : String) : (r.namesAt space segment).getLast? = some n ↔
      n ∈ r.names ∧ Name.namespaceOf n = space ∧ Name.segment n = segment := by
  have hmem {n : String} : n ∈ r.namesAt space segment ↔
      n ∈ r.names ∧ Name.namespaceOf n = space ∧ Name.segment n = segment := by
    rw [namesAt, List.mem_filter, decide_eq_true_iff]
  have honly {n : String} (hn : n ∈ r.namesAt space segment) : n = Name.member space segment := by
    obtain ⟨-, hin, hsegment⟩ := hmem.mp hn
    rw [← hin] at hspace
    rw [← Name.member_segment hspace, hin, hsegment]
  constructor
  · intro hlast
    exact hmem.mp (List.mem_of_getLast? hlast)
  · intro hn
    have hn := hmem.mpr hn
    cases hlast : (r.namesAt space segment).getLast? with
    | none =>
      rw [List.getLast?_eq_none_iff.mp hlast] at hn
      cases hn
    | some m => rw [honly hn, honly (List.mem_of_getLast? hlast)]

variable {c : Catalogue} {log : List Definition}

theorem holds_finish (h : c.Accounts log) (hopen : c.finished = false) {t : TypeRef}
    (ht : TypeTable.Offers c.types t) : (ofCatalogue c.finish).Holds t := by
  rcases ht with hprimitive | ⟨name, d, hd, rfl⟩
  · exact .inl hprimitive
  · obtain ⟨hname, -, href⟩ := resolvedIn_name_source_ref c.types d
    refine .inr ⟨resolvedIn c.types d, ?_, href, fun old hold hsame => ?_⟩
    · have hd' : c.get? d.name = some d := by
        rw [(h.stands name d hd).1]
        exact hd
      rw [hname, get?_finish hopen, hd', Option.map_some]
    · rw [replaced_finish] at hold
      obtain ⟨x, hx, hlt⟩ := h.replaced old hold
      -- What was replaced under the name is of an earlier edition.
      obtain ⟨hsameName, hsameEdition⟩ := TypeRef.defined.inj hsame
      rw [hsameName, (h.stands name d hd).1] at hx
      obtain rfl : d = x := Option.some.inj (hd.symm.trans hx)
      omega

theorem inner_finish (h : c.Accounts log) (hopen : c.finished = false) (d : Definition) :
    (resolvedIn c.types d).inner.keys.Nodup ∧ ∀ segment, (resolvedIn c.types d).inner.get? segment =
      ((ofCatalogue c.finish).namesAt d.name segment).getLast? := by
  have hnames : ∀ e ∈ c.types, e.2.name = e.1 := fun e he =>
    (h.stands e.1 e.2 (Assoc.get?_of_mem h.once he)).1
  rw [inner_resolvedIn, TypeTable.innerTypes_eq hnames]
  refine ⟨Assoc.nodup_keys_ofEntries _, fun segment => ?_⟩
  rw [namesAt, names_finish hopen, Assoc.get?_ofEntries, List.filter_map, List.filter_filter,
    ← List.getLast?_map, List.map_map]
  have hsame : Prod.snd ∘ (fun n => (Name.segment n, n)) = (id : String → String) := rfl
  rw [hsame, List.map_id]
  congr 2
  funext n
  rw [Function.comp_apply, ← Bool.decide_and]
  exact decide_eq_decide.mpr and_comm

/-- A catalogue that keeps its accounts is closed when it is finished. -/
theorem selfContained_finish (h : c.Accounts log) (hopen : c.finished = false) :
    (ofCatalogue c.finish).SelfContained := by
  have honce : (ofCatalogue c.finish).names.Nodup := by
    rw [names_finish hopen]
    exact h.once
  have hfinished {name : String} {d : Definition} (hd : (ofCatalogue c.finish).get? name = some d) :
      ∃ x, c.get? name = some x ∧ x.name = name ∧ resolvedIn c.types x = d := by
    rw [get?_finish hopen] at hd
    obtain ⟨x, hx, rfl⟩ := Option.map_eq_some_iff.mp hd
    exact ⟨x, hx, (h.stands name x hx).1, rfl⟩
  have hinner : ∀ name d, (ofCatalogue c.finish).get? name = some d → d.inner.keys.Nodup ∧
      ∀ segment, d.inner.get? segment = ((ofCatalogue c.finish).namesAt name segment).getLast? := by
    intro name d hd
    obtain ⟨x, -, rfl, rfl⟩ := hfinished hd
    exact inner_finish h hopen x
  refine ⟨honce, ?named, ?fields, ?elements, hinner, ?whole⟩
  case named =>
    intro name d hd
    obtain ⟨x, -, rfl, rfl⟩ := hfinished hd
    exact (resolvedIn_name_source_ref c.types x).1
  case fields =>
    intro name d hd f hf
    obtain ⟨x, -, -, rfl⟩ := hfinished hd
    obtain ⟨t, htype, ht⟩ := TypeTable.exists_fieldType c.types x f hf
    exact ⟨t, htype, holds_finish h hopen ht⟩
  case elements =>
    intro name d hd depth sample element hshape
    obtain ⟨x, -, -, rfl⟩ := hfinished hd
    obtain ⟨t, htype, ht⟩ := TypeTable.exists_elementType c.types x hshape
    exact ⟨t, htype, holds_finish h hopen ht⟩
  case whole =>
    intro name d hd hspace segment n
    rw [(hinner name d hd).2, getLast?_namesAt _ hspace]

/-- Whatever documents are taken in, the finished registry is closed. -/
theorem selfContained_addDocuments (options : Options) (docs : List Document) :
    (ofCatalogue (Catalogue.empty.addDocuments options docs).finish).SelfContained :=
  selfContained_finish (Catalogue.accounts_addDocuments options docs)
    (Catalogue.finished_addDocuments options .empty docs)

/-- A document without a name with a struct inside, and one that has the name of the segment. -/
def namelessDocuments : List Document :=
  [{ name := "", source := "nameless.jschema", value := .map [(.str "x", .map [])] },
    { name := "x", source := "x.jschema", value := .map [] }]

/-- Beside a type without a name, `x` hides `.x` among the inner types. -/
theorem inner_hides_dotted :
    let r := ofCatalogue (Catalogue.empty.addDocuments {} namelessDocuments).finish
    ∃ d, r.get? "" = some d ∧ ".x" ∈ r.names ∧ Name.namespaceOf ".x" = "" ∧
      Name.segment ".x" = "x" ∧ d.inner.get? "x" = some "x" ∧ ∀ e ∈ d.inner, e.2 ≠ ".x" := by
  intro r
  have hfound : ∃ d ∈ r.get? "", ".x" ∈ r.names ∧ d.inner.get? "x" = some "x" ∧
      ∀ e ∈ d.inner, e.2 ≠ ".x" := by
    decide +kernel
  obtain ⟨d, hd, hmem, hsegment, hhidden⟩ := hfound
  exact ⟨d, hd, hmem, by decide, by decide, hsegment, hhidden⟩

end Registry
end Exemplar
