import Exemplar.Proofs.AlikeDefinitions
import Exemplar.Proofs.FinishedTypes
import Mathlib.Data.Option.Basic

/-! Outlines of tables. What a sample refers to depends on which names, editions and kinds of types there
are, and on what the aliases of the struct around it stand for; nothing else of the types is looked at. -/
namespace Exemplar
open Inference

/-- Structs of one name whose aliases stand for the same names. -/
structure Surrounding.Agree (s s' : Surrounding) : Prop where
  name : s'.name = s.name
  aliases : TypeTable.Agree s.aliases s'.aliases

theorem Surrounding.agree_refl (s : Option Surrounding) : Option.Rel Surrounding.Agree s s := by
  cases s with
  | none => exact .none
  | some s => exact .some ⟨rfl, .refl s.aliases⟩

namespace TypeTable

/-- Tables with definitions of the same names, editions and kinds. -/
def Outlined (types types' : TypeTable) : Prop :=
  ∀ name, Option.Rel (fun d d' => d'.ref = d.ref ∧ d'.kind = d.kind) (types.get? name)
    (types'.get? name)

variable {types types' : TypeTable} {s s' : Option Surrounding} {name : String}

theorem outlined_of_get? (h : ∀ name, types'.get? name = types.get? name) :
    types.Outlined types' := by
  intro name
  rw [h]
  cases types.get? name with
  | none => exact .none
  | some d => exact .some ⟨rfl, rfl⟩

theorem Outlined.get? (h : types.Outlined types') (name : String) :
    types.get? name = none ∧ types'.get? name = none ∨
      ∃ d d', types.get? name = some d ∧ types'.get? name = some d' ∧ d'.ref = d.ref ∧
        d'.kind = d.kind := by
  have hname := h name
  generalize types.get? name = found at hname
  generalize types'.get? name = found' at hname
  cases hname with
  | none => exact .inl ⟨rfl, rfl⟩
  | some hd => exact .inr ⟨_, _, rfl, rfl, hd⟩

theorem Outlined.ref (h : types.Outlined types') (name : String) :
    (types'.get? name).map Definition.ref = (types.get? name).map Definition.ref := by
  rcases h.get? name with ⟨hnone, hnone'⟩ | ⟨d, d', hd, hd', href, -⟩
  · rw [hnone, hnone']
  · rw [hd, hd', Option.map_some, Option.map_some, href]

theorem Outlined.kind? (h : types.Outlined types') (t : TypeRef) : types'.kind? t = types.kind? t := by
  cases t with
  | primitive p => rfl
  | defined name edition =>
    rw [TypeTable.kind?, TypeTable.kind?]
    rcases h.get? name with ⟨hnone, hnone'⟩ | ⟨d, d', hd, hd', -, hkind⟩
    · rw [hnone, hnone']
    · rw [hd, hd', Option.map_some, Option.map_some, hkind]

theorem Outlined.lookup (h : types.Outlined types') (hs : Option.Rel Surrounding.Agree s s')
    (name : String) :
    (types'.lookup name s').map Definition.ref = (types.lookup name s).map Definition.ref := by
  have hspaces (spaces : List String) :
      (spaces.findSome? fun space => types'.get? (Name.member space name)).map Definition.ref =
        (spaces.findSome? fun space => types.get? (Name.member space name)).map Definition.ref := by
    rw [List.map_findSome?, List.map_findSome?]
    exact congrArg (fun f => spaces.findSome? f) (funext fun space => h.ref _)
  have hnames : s'.map (fun s => Name.selfAndEnclosing s.name) =
      s.map fun s => Name.selfAndEnclosing s.name := by
    cases hs with
    | none => rfl
    | some hs => exact congrArg (fun n => some (Name.selfAndEnclosing n)) hs.name
  rw [TypeTable.lookup, TypeTable.lookup, hnames]
  rcases h.get? name with ⟨hnone, hnone'⟩ | ⟨d, d', hd, hd', href, -⟩
  · rw [hnone, hnone']
    exact hspaces _
  · rw [hd, hd', Option.map_some, Option.map_some, href]

theorem Outlined.classifyName (h : types.Outlined types') (hs : Option.Rel Surrounding.Agree s s')
    (name : String) : types'.classifyName name s' = types.classifyName name s := by
  have hlookup := h.lookup hs
  unfold TypeTable.classifyName
  cases Primitive.ofName? name with
  | some p => rfl
  | none =>
    cases hs with
    | none => exact hlookup name
    | @some s s' hs =>
      simp only [hs.aliases.has name]
      by_cases haliased : s.aliases.has (.str name) = true
      · have htarget : dealias s' name = dealias s name := hs.aliases.chase name haliased
        rw [if_pos haliased, if_pos haliased, htarget, hlookup]
      · rw [if_neg haliased, if_neg haliased]
        exact hlookup name

theorem Outlined.classify (h : types.Outlined types') (hs : Option.Rel Surrounding.Agree s s')
    {sample sample' : Json} (hsample : sample.Alike sample') :
    types'.classify sample' s' = types.classify sample s := by
  cases sample <;> cases sample' <;> try exact hsample.elim
  case map.map | list.list => rfl
  case scalar.scalar x x' =>
    obtain rfl : x = x' := hsample
    cases x with
    | str name => exact h.classifyName hs name
    | _ => rfl

theorem Outlined.fieldType? (h : types.Outlined types') {d d' : Definition}
    (hd : d.surrounding.Agree d'.surrounding) {f f' : Field} (hf : f.Alike f') :
    types'.fieldType? d' f' = types.fieldType? d f := by
  have hname : d'.name = d.name := hd.name
  rw [TypeTable.fieldType?, TypeTable.fieldType?, hname, hf.property]
  rcases h.get? (Name.member d.name f.property) with ⟨hnone, hnone'⟩ | ⟨e, e', he, he', href, -⟩
  · rw [hnone, hnone']
    exact h.classify (.some hd) hf.sample
  · rw [he, he']
    exact congrArg some href

theorem Outlined.elementType? (h : types.Outlined types') {sample sample' : Json}
    (haround : Option.Rel Surrounding.Agree
      ((types.enclosingStruct name).map Definition.surrounding)
      ((types'.enclosingStruct name).map Definition.surrounding))
    (hsample : sample.Alike sample') :
    types'.elementType? name sample' = types.elementType? name sample := by
  rw [TypeTable.elementType?, TypeTable.elementType?]
  rcases h.get? (elementName name) with ⟨hnone, hnone'⟩ | ⟨e, e', he, he', href, -⟩
  · rw [hnone, hnone']
    exact h.classify haround hsample
  · rw [he, he']
    exact congrArg some href

theorem Outlined.resolveField (h : types.Outlined types') (d : Definition) :
    types'.resolveField d = types.resolveField d := by
  funext f
  rw [TypeTable.resolveField, TypeTable.resolveField,
    h.fieldType? ⟨rfl, .refl d.aliases⟩ (.refl f), h.kind?]

/-- The struct around the elements of a list is all that is not part of the outlines. -/
theorem Outlined.resolve (h : types.Outlined types') {d : Definition}
    (haround : d.kind = .list → types'.enclosingStruct d.name = types.enclosingStruct d.name) :
    types'.resolve d = types.resolve d := by
  obtain ⟨name, source, shape, edition, errors, inner⟩ := d
  cases shape with
  | struct fields aliases =>
    have hfield (f : Field) := h.fieldType? ⟨rfl, .refl aliases⟩ (Field.Alike.refl f)
      (d := ⟨name, source, .struct fields aliases, edition, errors, inner⟩)
    simp only [TypeTable.resolve, h.resolveField, hfield]
  | enum values origin => rfl
  | list depth sample element =>
    have helement : types'.elementType? name sample = types.elementType? name sample := by
      refine h.elementType? ?_ (.refl sample)
      rw [haround rfl]
      exact Surrounding.agree_refl _
    simp only [TypeTable.resolve, helement]

end TypeTable
end Exemplar
