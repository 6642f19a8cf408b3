import Exemplar.Model.Descriptor
import Exemplar.Proofs.ClosedTypes

/-! The declared type of a parent follows from the name of a type alone. It is right for whatever is
defined at its own place: below a struct the names of the places of its fields lead back to it, through
list types only. -/
namespace Exemplar
open Inference Identifier

namespace Name

theorem enclosingReversed_append {cs : List Char} (h : ∀ c ∈ cs, c ≠ '.') (rest : List Char) :
    enclosingReversed (cs ++ rest) = enclosingReversed rest := by
  induction cs with
  | nil => rfl
  | cons c cs ih =>
    obtain ⟨hc, hcs⟩ := List.forall_mem_cons.mp h
    rw [List.cons_append, enclosingReversed, ih hcs]
    exact hc

/-- A member of a namespace with a name lies in the namespace first. -/
theorem enclosing_member (space : String) {segment : String} (h : IsWord segment) :
    enclosing (member space segment) = if space = "" then [] else space :: enclosing space := by
  have hsegment : ∀ c ∈ segment.toList.reverse, c ≠ '.' := fun c hc =>
    ne_dot_of_isWord h (List.mem_reverse.mp hc)
  have hname : (member space segment).toList.reverse =
      segment.toList.reverse ++ '.' :: space.toList.reverse := by
    rw [toList_member, List.reverse_append, List.reverse_cons, List.append_assoc]
    rfl
  have hempty : space.toList.reverse.isEmpty = true ↔ space = "" := by
    rw [List.isEmpty_iff, List.reverse_eq_nil_iff, String.toList_eq_nil_iff]
  rw [enclosing, hname, enclosingReversed_append hsegment, enclosingReversed]
  by_cases hspace : space = ""
  · rw [if_pos (hempty.mpr hspace), if_pos hspace]
    rfl
  · rw [if_neg (fun h => hspace (hempty.mp h)), if_neg hspace, List.map_cons, List.reverse_reverse,
      String.ofList_toList]
    rfl

end Name

namespace Registry

def ofDocuments (options : Options) (docs : List Document) : Registry :=
  ofCatalogue (Catalogue.empty.addDocuments options docs).finish

/-- What holds of every registry of documents: it is closed, its properties are words, and what is
defined at the place of a field or of the elements of a list is their type. -/
structure Inferred (r : Registry) : Prop where
  closed : r.SelfContained
  words : ∀ name d, r.get? name = some d → ∀ f ∈ d.fields, IsWord f.property
  fields : ∀ name d, r.get? name = some d → ∀ f ∈ d.fields, ∀ own,
    r.get? (Name.member name f.property) = some own → f.type = some own.ref
  elements : ∀ name d, r.get? name = some d → ∀ depth sample element,
    d.shape = .list depth sample element → ∀ own, r.get? (elementName name) = some own →
      element = some own.ref

variable {options : Options} {docs : List Document}

/-- A type of documents has no fields, or those of a map in one of the documents. -/
theorem exists_fieldsOf {name : String} {d : Definition}
    (h : (ofDocuments options docs).get? name = some d) : d.fields = [] ∨
      ∃ doc ∈ docs, ∃ c entries struct, doc.sample.Part (.map entries) ∧
        d.fields = (fieldsOf c entries).map
          (TypeTable.resolveField (Catalogue.empty.addDocuments options docs).types struct) := by
  have hopen := Catalogue.finished_addDocuments options .empty docs
  rw [ofDocuments, get?_finish hopen] at h
  obtain ⟨x, hx, rfl⟩ := Option.map_eq_some_iff.mp h
  obtain ⟨rfl, ⟨e, hlast, -, hshape⟩, -⟩ :=
    (Catalogue.accounts_addDocuments options docs).stands name x hx
  have he := List.mem_of_getLast? hlast
  obtain ⟨doc, hdoc, hmade⟩ := Catalogue.madeOf_history options .empty docs e (List.mem_filter.mp he).1
  have hfields : x.fields = e.fields := by rw [Definition.fields, Definition.fields, hshape]
  rw [fields_resolvedIn, hfields]
  rcases hmade.fields with hnone | ⟨c, entries, hpart, heq⟩
  · exact .inl (by rw [hnone]; rfl)
  · exact .inr ⟨doc, hdoc, c, entries, _, hpart, by rw [heq]⟩

theorem isWord_fieldsOf (c : Context) (entries : List (Scalar × Json)) :
    ∀ f ∈ fieldsOf c entries, IsWord f.property := by
  intro f hf
  obtain ⟨⟨key, sample⟩, -, rfl⟩ := List.mem_map.mp hf
  cases hname : (fieldNames c entries).name? key with
  | none => simp [hname, IsWord]
  | some p =>
    obtain ⟨k, hmem, -⟩ := Assoc.get?_mem hname
    simpa [hname] using NameTable.words_ofKeys isWord_ofText _ _ hmem

theorem inferred_ofDocuments (options : Options) (docs : List Document) :
    (ofDocuments options docs).Inferred := by
  have hopen := Catalogue.finished_addDocuments options .empty docs
  have haccounts := Catalogue.accounts_addDocuments options docs
  have hfound {name : String} {d : Definition} (h : (ofDocuments options docs).get? name = some d) :
      ∃ x, (Catalogue.empty.addDocuments options docs).get? name = some x ∧ x.name = name ∧
        resolvedIn (Catalogue.empty.addDocuments options docs).types x = d := by
    rw [ofDocuments, get?_finish hopen] at h
    obtain ⟨x, hx, rfl⟩ := Option.map_eq_some_iff.mp h
    exact ⟨x, hx, (haccounts.stands name x hx).1, rfl⟩
  have hown {name : String} {own : Definition}
      (h : (ofDocuments options docs).get? name = some own) :
      ∃ x, (Catalogue.empty.addDocuments options docs).types.get? name = some x ∧
        x.ref = own.ref := by
    obtain ⟨x, hx, -, rfl⟩ := hfound h
    exact ⟨x, hx, (resolvedIn_name_source_ref _ x).2.2.symm⟩
  refine ⟨selfContained_finish haccounts hopen, ?words, ?fields, ?elements⟩
  case words =>
    intro name d hd f hf
    rcases exists_fieldsOf hd with hnone | ⟨doc, -, c, entries, struct, -, heq⟩
    · rw [hnone] at hf
      cases hf
    · rw [heq] at hf
      obtain ⟨g, hg, rfl⟩ := List.mem_map.mp hf
      exact isWord_fieldsOf c entries g hg
  case fields =>
    intro name d hd f hf own hplace
    obtain ⟨x, -, rfl, rfl⟩ := hfound hd
    obtain ⟨y, hy, href⟩ := hown hplace
    rw [fields_resolvedIn] at hf
    obtain ⟨g, -, rfl⟩ := List.mem_map.mp hf
    have htype : TypeTable.fieldType? (Catalogue.empty.addDocuments options docs).types
        (TypeTable.linkInner (Catalogue.empty.addDocuments options docs).types x) g =
          some y.ref := by
      have hy : (Catalogue.empty.addDocuments options docs).types.get?
        (Name.member x.name g.property) = some y := hy
      simp only [TypeTable.fieldType?, TypeTable.linkInner, hy]
    simp only [TypeTable.resolveField, htype, Option.getD_some, href]
  case elements =>
    intro name d hd depth sample element hshape own hplace
    obtain ⟨x, -, rfl, rfl⟩ := hfound hd
    obtain ⟨y, hy, href⟩ := hown hplace
    rw [list_resolvedIn hshape, TypeTable.elementType?, hy, Option.getD_some, href]

/-- What the values in a struct are typed with: the types of its fields, and the types of the elements
of list types among these. The mark tells whether on the way a type was found by its name, because
nothing is defined at the place itself. -/
inductive Reaches (r : Registry) (owner : Definition) : (byName : Bool) → Definition → Prop
  | field {f : Field} {d : Definition} (hf : f ∈ owner.fields) (htype : f.type = some d.ref)
      (hd : r.get? d.name = some d) :
      Reaches r owner (r.get? (Name.member owner.name f.property)).isNone d
  | element {byName : Bool} {l d : Definition} {depth : Nat} {sample : Json}
      (hl : Reaches r owner byName l) (hshape : l.shape = .list depth sample (some d.ref))
      (hd : r.get? d.name = some d) :
      Reaches r owner (byName || (r.get? (elementName l.name)).isNone) d

/-- The places of the values in a struct: those of its fields, and those of the elements of the list
types that are defined there. -/
inductive Within (r : Registry) (owner : Definition) : String → Prop
  | field {f : Field} (hf : f ∈ owner.fields) : Within r owner (Name.member owner.name f.property)
  | element {l : Definition} (hl : Within r owner l.name) (hget : r.get? l.name = some l)
      (hlist : l.kind = .list) : Within r owner (elementName l.name)

variable {r : Registry} {owner : Definition}

theorem Reaches.found {byName : Bool} {d : Definition} (h : r.Reaches owner byName d) :
    r.get? d.name = some d := by
  cases h with
  | field _ _ hd => exact hd
  | element _ _ hd => exact hd

/-- What is not found by name is defined at a place in the struct. -/
theorem Reaches.within (hr : r.Inferred) (howner : r.get? owner.name = some owner) {byName : Bool}
    {d : Definition} (h : r.Reaches owner byName d) (hplace : byName = false) :
    r.Within owner d.name := by
  induction h with
  | @field f d hf htype hd =>
    obtain ⟨own, hown⟩ := Option.isSome_iff_exists.mp (Option.isNone_eq_false_iff.mp hplace)
    have hsame := hr.fields _ _ howner f hf own hown
    have hname : d.name = own.name :=
      (TypeRef.defined.inj (Option.some.inj (htype.symm.trans hsame))).1
    rw [hname, hr.closed.named _ _ hown]
    exact .field hf
  | @element byName l d depth sample hl hshape hd ih =>
    obtain ⟨hbyName, hsome⟩ := Bool.or_eq_false_iff.mp hplace
    obtain ⟨own, hown⟩ := Option.isSome_iff_exists.mp (Option.isNone_eq_false_iff.mp hsome)
    have hsame := hr.elements _ _ hl.found depth sample _ hshape own hown
    have hname : d.name = own.name := (TypeRef.defined.inj (Option.some.inj hsame)).1
    rw [hname, hr.closed.named _ _ hown]
    exact .element (ih hbyName) hl.found (by rw [Definition.kind, hshape]; rfl)

theorem isWord_element : IsWord "Element" := by
  have hall : "Element".toList.all isWordChar = true := by decide +kernel
  exact List.all_eq_true.mp hall

/-- The way outwards from a place in a struct leads to the struct, through list types only. -/
theorem Within.parent (hr : r.Inferred) (howner : r.get? owner.name = some owner) {name : String}
    (h : r.Within owner name) (d : Definition) :
    parentType.go r d (Name.enclosing name) = .primitive .object ∨
      parentType.go r d (Name.enclosing name) = owner.ref := by
  induction h with
  | @field f hf =>
    have hkind : owner.kind = .struct := by
      cases hshape : owner.shape with
      | struct fields aliases => rw [Definition.kind, hshape]; rfl
      | enum values origin => simp [Definition.fields, hshape] at hf
      | list depth sample element => simp [Definition.fields, hshape] at hf
    rw [Name.enclosing_member _ (hr.words _ _ howner f hf)]
    split
    · exact .inl rfl
    · simp only [parentType.go, howner, hkind]
      split
      · exact .inl rfl
      · exact .inr rfl
  | @element l hl hget hlist ih =>
    rw [elementName, Name.enclosing_member _ isWord_element]
    split
    · exact .inl rfl
    · simp only [parentType.go, hget, hlist]
      exact ih

end Registry
end Exemplar
