import Exemplar.Model.Attribute
import Exemplar.Proofs.Binding
import Exemplar.Proofs.LastingNames

/-! Names that instances inherit. No property of a struct is called like something that its instances
inherit and that maps are worked with by, except for the operation that links an instance to its
parent. Where no property has the name of this operation, every document can be bound; where one
has, the instances of the struct can be stored nowhere. -/
namespace Exemplar
namespace Identifier

/-- A name that a property may have, also with a number behind it. -/
theorem isLegal_freeName (text : String) (taken : List String) :
    IsLegal (freeName (ofText text) taken) ∧
      isDunder (freeName (ofText text) taken).toList = false := by
  have hfree := isFirstFree_freeName (ofText text) taken
  refine ⟨hfree.isLegal (isLegal_ofText text), ?_⟩
  rcases hfree.2 with heq | ⟨-, n, -, heq, -⟩
  · rw [heq]
    exact isDunder_ofText text
  · rw [heq]
    exact isDunder_numberedName _ n

end Identifier

namespace Attribute

def classModel : String := "_jschema_model"

/-- What instances of structs inherit: the operations of linked maps, what these say of their place,
and what they have from the class of structs. -/
def inheritedNames : List String :=
  linkedMapNames ++ [parentLink, typeAttribute, classType, classModel, classText, attributeTable]

/-- Inherited names give way to nothing: they have two underscores at both ends, or properties give
way to them. One is left out. -/
theorem inherited_cases : ∀ name ∈ inheritedNames,
    name = linkOperation ∨ Identifier.isTaken name = true ∨ Identifier.isDunder name.toList = true := by
  decide +kernel

theorem eq_linkOperation {name : String} (hname : name ∈ inheritedNames)
    (hlegal : Identifier.IsLegal name) (hdunder : Identifier.isDunder name.toList = false) :
    name = linkOperation := by
  rcases inherited_cases name hname with heq | htaken | htwice
  · exact heq
  · rw [hlegal.free] at htaken
    cases htaken
  · rw [hdunder] at htwice
    cases htwice

end Attribute

namespace Registry
open Attribute

/-- The only inherited name that a property can have is that of the operation that links. -/
theorem property_inherited {options : Options} {docs : List Document} {name : String}
    {d : Definition} (hget : (ofDocuments options docs).get? name = some d) {f : Field}
    (hf : f ∈ d.fields) (hinherited : f.property ∈ inheritedNames) : f.property = linkOperation := by
  rcases exists_fieldsOf hget with hnone | ⟨doc, -, c, entries, struct, -, heq⟩
  · rw [hnone] at hf
    cases hf
  · rw [heq] at hf
    obtain ⟨g, hg, rfl⟩ := List.mem_map.mp hf
    obtain ⟨⟨key, sample⟩, -, rfl⟩ := List.mem_map.mp hg
    change ((Inference.fieldNames c entries).name? key).getD "" ∈ inheritedNames at hinherited
    change ((Inference.fieldNames c entries).name? key).getD "" = linkOperation
    cases hname : (Inference.fieldNames c entries).name? key with
    | none =>
      rw [hname] at hinherited
      exact absurd hinherited (by decide +kernel)
    | some p =>
      rw [hname] at hinherited
      obtain ⟨k, hmem, -⟩ := Assoc.get?_mem hname
      obtain ⟨hlegal, hdunder⟩ := NameTable.all_ofKeys (P := fun p =>
        Identifier.IsLegal p ∧ Identifier.isDunder p.toList = false) Identifier.isLegal_freeName _ _ hmem
      exact eq_linkOperation hinherited hlegal hdunder

theorem mem_of_definition? {r : Registry} {name : String} {edition : Nat} {d : Definition}
    (h : r.definition? name edition = some d) : d ∈ r.definitions ++ r.replaced := by
  rw [definition?] at h
  split at h
  · next e hget =>
    split_ifs at h with hedition
    · obtain rfl := Option.some.inj h
      obtain ⟨k, hmem, -⟩ := Assoc.get?_mem hget
      exact List.mem_append_left _ (List.mem_map_of_mem hmem)
    · exact List.mem_append_right _ (List.mem_of_find?_eq_some h)
  · cases h

end Registry

namespace Workshop
open Attribute

theorem isSome_field? {d : Definition} {property : String} :
    (d.field? property).isSome = true ↔ ∃ f ∈ d.fields, f.property = property := by
  simp [Definition.field?, List.find?_isSome]

/-- No text and no field is named like something that instances inherit, but for the operation that
links them. Where no property has its name, every document is bound to every type; where a struct
has such a property, no container takes in its instances. -/
theorem hides_link_only {w : Workshop} {options : Options} {docs : List Document}
    (hregistry : w.registry = Registry.ofDocuments options docs) :
    (∀ text, Identifier.ofText text ∈ inheritedNames → Identifier.ofText text = linkOperation) ∧
    (∀ name d, w.registry.get? name = some d →
      ∀ f ∈ d.fields, f.property ∈ inheritedNames → f.property = linkOperation) ∧
    (w.classes = true →
      (∀ name edition d, w.registry.definition? name edition = some d → w.hasClass d = true) →
      ((∀ name edition d, w.registry.definition? name edition = some d →
          ∀ f ∈ d.fields, f.property ≠ linkOperation) →
        ∀ t s v j q, (s.snapshot v).json? = some j → Json.IsDocument q j →
          ∃ v' s', (w.bind v t).run s = (.ok v', s') ∧ (s'.snapshot v').json? = some j) ∧
      ∀ name edition d, w.registry.definition? name edition = some d →
        (∃ f ∈ d.fields, f.property = linkOperation) →
        ∀ s, ∃ c s', (w.newStruct d).run s = (.ok c, s') ∧
          ∀ m, (StoreM.adoptInto (.node c) (some m)).run s' = (.error .wrongKind, s')) := by
  refine ⟨fun text h => eq_linkOperation h (Identifier.isLegal_ofText text)
    (Identifier.isDunder_ofText text), ?_, ?_⟩
  · rw [hregistry]
    intro name d hget f hf
    exact Registry.property_inherited hget hf
  · intro hclasses hclass
    refine ⟨fun hfree t s v j q hv hj => ?_, fun name edition d hd hsealed s => ?_⟩
    · have hw : w.MakesStructs := by
        refine .inr fun name edition d hd => ⟨hclass name edition d hd, ?_⟩
        rw [Bool.eq_false_iff]
        intro hsome
        obtain ⟨f, hf, heq⟩ := isSome_field?.mp hsome
        exact hfree name edition d hd f hf heq
      obtain ⟨v', s', hrun, hbuilt, -⟩ := bind_rebuilt hw t hv hj
      exact ⟨v', s', hrun, hbuilt.content⟩
    · have hmade : (w.newStruct d).run s = (.ok s.nodes.size,
          (s.add ⟨.map [], .instance d.name true, some (.struct d.name), none, []⟩).2) := by
        rw [newStruct, hclasses, hclass name edition d hd, isSome_field?.mpr hsealed]
        rfl
      refine ⟨_, _, hmade, fun m => ?_⟩
      exact StoreM.run_adoptInto_sealed (by rw [Store.get?_add, if_pos rfl]) rfl _

/-- A document with two structs, the inner one with a field of some key. -/
def nestedDocument (key : String) : Document where
  name := "N"
  source := "N.jschema"
  value := .map [(.str "a", .map [(.str key, .str "string")])]

def nestedStore : Store where
  nodes := #[{ body := .map [(.str "a", .node 1)], form := .plain },
    { body := .map [(.str "next", .scalar (.int 1))], form := .plain }]

theorem hides_link_only_nested :
    let bound : Workshop := ⟨Registry.ofDocuments {} [nestedDocument "next"], {}, true⟩
    let sealed : Workshop := ⟨Registry.ofDocuments {} [nestedDocument linkOperation], {}, true⟩
    (∃ v' s', (bound.bind (.node 0) (some (.defined "N" 0))).run nestedStore = (.ok v', s') ∧
      (s'.snapshot v').json? = some (.map [(.str "a", .map [(.str "next", .scalar (.int 1))])])) ∧
    ∃ d c s', sealed.registry.get? "N.a" = some d ∧
      (sealed.newStruct d).run nestedStore = (.ok c, s') ∧
      (StoreM.adoptInto (.node c) (some 0)).run s' = (.error .wrongKind, s') := by
  intro bound sealed
  have hmade : ∀ d ∈ bound.registry.definitions ++ bound.registry.replaced,
      bound.hasClass d = true ∧ ∀ f ∈ d.fields, f.property ≠ linkOperation := by
    decide +kernel
  have hclass : ∀ d ∈ sealed.registry.definitions ++ sealed.registry.replaced,
      sealed.hasClass d = true := by
    decide +kernel
  have hfound : ∃ d ∈ sealed.registry.get? "N.a", d.edition = 0 ∧
      ∃ f ∈ d.fields, f.property = linkOperation := by
    decide +kernel
  constructor
  · exact (((hides_link_only (w := bound) rfl).2.2 rfl fun _ _ d hd =>
      (hmade d (Registry.mem_of_definition? hd)).1).1 fun _ _ d hd =>
        (hmade d (Registry.mem_of_definition? hd)).2) _ _ _ _ (fun _ => True) rfl (by decide)
  · obtain ⟨d, hget, hedition, hsealed⟩ := hfound
    have hd : sealed.registry.definition? "N.a" 0 = some d := by
      rw [Registry.definition?, show sealed.registry.get? "N.a" = some d from hget]
      exact if_pos hedition
    obtain ⟨c, s', hrun, hrefuse⟩ := ((hides_link_only (w := sealed) rfl).2.2 rfl fun _ _ d hd =>
      hclass d (Registry.mem_of_definition? hd)).2 _ _ d hd hsealed nestedStore
    exact ⟨d, c, s', hget, hrun, hrefuse 0⟩

end Workshop
end Exemplar
