import Exemplar.Proofs.LaterFields

/-! The types of a plain sample that is read after another document, against those that it has when
it is read alone. Each type is restated as it was. Where the sample has a scalar and the other
document has a type at the same place, that type is met; no other trace is left. -/
namespace Exemplar
open Json Inference

namespace Registry

variable (r alone first : Registry)

/-- What stands at a place refers to the type there, alone (`t`) and behind another document (`t'`).
If the sample has no type at the place, a type that the first document left there is referred to. -/
structure Follows (place : String) (t t' : Option TypeRef) : Prop where
  own : ∀ x, alone.get? place = some x →
    t = some x.ref ∧ ∃ x', r.get? place = some x' ∧ t' = some x'.ref
  left : alone.get? place = none → ∀ old, first.get? place = some old →
    ∃ x', r.get? place = some x' ∧ x'.source = old.source ∧ t' = some x'.ref
  same : alone.get? place = none → first.get? place = none → t.isSome ∧ t' = t

/-- A field of a type of a name, and what it becomes behind another document. -/
structure FieldFollows (name : String) (f f' : Field) : Prop where
  key : f'.key = f.key
  property : f'.property = f.property
  sample : f'.sample = f.sample
  type : Follows r alone first (Name.member name f.property) f.type f'.type
  autocreate : (alone.get? (Name.member name f.property) = none →
    first.get? (Name.member name f.property) = none) → f'.autocreate = f.autocreate

/-- The fields or the elements of a type of a name, and what they become behind another document. -/
def ShapeFollows (name : String) : Shape → Shape → Prop
  | .struct fields aliases, .struct fields' aliases' =>
    aliases' = aliases ∧ List.Forall₂ (FieldFollows r alone first name) fields fields'
  | .list depth sample element, .list depth' sample' element' =>
    depth' = depth ∧ sample' = sample ∧ Follows r alone first (elementName name) element element'
  | _, _ => False

/-- A type behind another document is what it is alone, but for diagnostics that say what it
replaces. -/
structure Restates (x x' : Definition) : Prop where
  name : x'.name = x.name
  source : x'.source = x.source
  kind : x'.kind = x.kind
  shape : ShapeFollows r alone first x.name x.shape x'.shape
  errors : ∃ more, x'.errors = more ++ x.errors ∧ ∀ e ∈ more, e.kind = .nameCollision

variable {r alone first}

/-- The field of a property is restated as the field of the same property. -/
theorem Restates.field? {x x' : Definition} (h : Restates r alone first x x') {property : String}
    {f : Field} (hf : x.field? property = some f) :
    ∃ f', x'.field? property = some f' ∧ FieldFollows r alone first x.name f f' := by
  have hfields : List.Forall₂ (FieldFollows r alone first x.name) x.fields x'.fields := by
    have hshape := h.shape
    rw [Definition.fields, Definition.fields]
    cases hx : x.shape <;> cases hx' : x'.shape <;> rw [hx, hx'] at hshape
    case struct.struct => exact hshape.2
    all_goals first | exact List.Forall₂.nil | exact hshape.elim
  rw [Definition.field?] at hf ⊢
  generalize x.fields = fields at hfields hf
  generalize x'.fields = fields' at hfields ⊢
  induction hfields with
  | nil => cases hf
  | @cons g g' fields fields' hg _ ih =>
    rw [List.find?_cons] at hf ⊢
    rw [hg.property]
    split at hf
    · cases hf
      exact ⟨g', rfl, hg⟩
    · exact ih hf

end Registry

namespace Inference

/-- What a property yields depends on the kind of a type and not on how often it was replaced. -/
theorem autocreate_defined (name : String) (edition edition' : Nat) (kind : Option Kind) :
    AutoCreate.ofKind (.defined name edition) kind = AutoCreate.ofKind (.defined name edition') kind := by
  cases kind with
  | none => rfl
  | some kind => cases kind <;> rfl

variable {c c' : Catalogue} {d : Document} {q : Scalar → Prop} {name : String}

/-- What is found at a site once the types are finished. -/
theorem get?_later (h : d.Added c c') (hv : IsDocument q d.value) (hopen : c.finished = false)
    {v : Json} (hsite : (name, v) ∈ sites d.name d.root) :
    (Registry.ofCatalogue c'.finish).get? name = match definitionAt d.origin (name, v) with
      | some e => some (resolvedIn c'.types (d.taken c e))
      | none => (c.get? name).map (resolvedIn c'.types) := by
  rw [Registry.get?_finish (h.finished.trans hopen), h.get?_site hv hsite]
  cases definitionAt d.origin (name, v) <;> rfl

/-- A name under which a sample defines something is the name of a site. -/
theorem defined_later (h : d.Added .empty c') {x : Definition}
    (hx : (Registry.ofCatalogue c'.finish).get? name = some x) :
    ∃ v e, (name, v) ∈ sites d.name d.root ∧ definitionAt d.origin (name, v) = some e := by
  by_cases hmem : name ∈ d.defined.map Definition.name
  · obtain ⟨e, he, rfl⟩ := List.mem_map.mp hmem
    obtain ⟨⟨name, v⟩, hsite, hat⟩ := List.mem_filterMap.mp he
    obtain ⟨hname, -⟩ := made_at hat
    rw [hname]
    exact ⟨v, e, hsite, hat⟩
  · rw [Registry.get?_finish h.finished, h.others name hmem] at hx
    cases hx

variable {c₀ : Catalogue}

/-- What a value at a site refers to, alone and behind another document. -/
theorem follows_site (h : d.Added c c') (h₀ : d.Added .empty c₀) (hv : IsDocument q d.value)
    (hopen : c.finished = false) {v : Json} (hsite : (name, v) ∈ sites d.name d.root) :
    Registry.Follows (.ofCatalogue c'.finish) (.ofCatalogue c₀.finish) (.ofCatalogue c.finish) name
      (some (refOver .empty name v)) (some (refOver c name v)) := by
  have hlater := get?_later h hv hopen hsite
  have halone := get?_later h₀ hv rfl hsite
  have hfirst := Registry.get?_finish hopen name
  cases hat : definitionAt d.origin (name, v) with
  | some e =>
    rw [hat] at hlater halone
    refine ⟨fun x hx => ?_, fun hnone => ?_, fun hnone => ?_⟩
    · obtain rfl : resolvedIn c₀.types (d.taken .empty e) = x := Option.some.inj (halone.symm.trans hx)
      refine ⟨?_, _, hlater, ?_⟩
      · rw [(resolvedIn_name_source_ref _ _).2.2, ref_taken hat]
      · rw [(resolvedIn_name_source_ref _ _).2.2, ref_taken hat]
    · rw [halone] at hnone
      cases hnone
    · rw [halone] at hnone
      cases hnone
  | none =>
    rw [hat] at hlater halone
    obtain ⟨s, rfl⟩ : ∃ s, v = .scalar s := by
      cases v with
      | scalar s => exact ⟨s, rfl⟩
      | list items => cases hat
      | map entries => cases hat
    refine ⟨fun x hx => ?_, fun _ old hold => ?_, fun _ hnone => ⟨rfl, ?_⟩⟩
    · rw [halone] at hx
      cases hx
    · rw [hfirst] at hold
      obtain ⟨left, hleft, rfl⟩ := Option.map_eq_some_iff.mp hold
      rw [hleft, Option.map_some] at hlater
      obtain ⟨-, hsource, href⟩ := resolvedIn_name_source_ref c'.types left
      refine ⟨_, hlater, ?_, ?_⟩
      · rw [hsource, (resolvedIn_name_source_ref c.types left).2.1]
      · rw [href, refOver, hleft]
    · rw [hfirst, Option.map_eq_none_iff] at hnone
      rw [refOver, hnone]
      rfl

theorem refOver_defined {v : Json} {e : Definition}
    (hat : definitionAt d.origin (name, v) = some e) :
    refOver c name v = .defined name (d.taken c e).edition := by
  rw [← ref_taken hat, Definition.ref, d.name_taken, (made_at hat).1]

theorem kind?_later (h : d.Added c c') (hv : IsDocument q d.value) {v : Json}
    (hsite : (name, v) ∈ sites d.name d.root) {e : Definition}
    (hat : definitionAt d.origin (name, v) = some e) :
    TypeTable.kind? c'.types (refOver c name v) = some e.kind := by
  have hget := h.get?_site hv hsite
  rw [hat, Catalogue.get?] at hget
  rw [refOver_defined hat, TypeTable.kind?, hget, Option.map_some, Definition.kind, shape_taken,
    Definition.kind]

/-- What a property of a value at a site yields, alone and behind another document. -/
theorem autocreate_site (h : d.Added c c') (h₀ : d.Added .empty c₀) (hv : IsDocument q d.value)
    {v : Json} (hsite : (name, v) ∈ sites d.name d.root)
    (hleft : definitionAt d.origin (name, v) = none → c.get? name = none) :
    AutoCreate.ofKind (refOver c name v) (TypeTable.kind? c'.types (refOver c name v)) =
      AutoCreate.ofKind (refOver .empty name v) (TypeTable.kind? c₀.types (refOver .empty name v)) := by
  cases hat : definitionAt d.origin (name, v) with
  | some e =>
    rw [kind?_later h hv hsite hat, kind?_later h₀ hv hsite hat, refOver_defined hat,
      refOver_defined hat]
    exact autocreate_defined name _ _ _
  | none =>
    cases v with
    | scalar s =>
      rw [refOver, hleft hat]
      rfl
    | list items => cases hat
    | map entries => cases hat

/-- The diagnostics of a type behind another document. -/
theorem errors_taken {e : Definition} (hmade : e.errors = []) :
    ∃ more, (d.taken c e).errors = more ++ (d.taken .empty e).errors ∧
      ∀ x ∈ more, x.kind = .nameCollision := by
  have hplaced : ∃ more, (c.placed e).errors = more ∧ ∀ x ∈ more, x.kind = .nameCollision := by
    rw [Catalogue.placed]
    cases c.get? e.name with
    | none => exact ⟨[], hmade, List.forall_mem_nil _⟩
    | some old =>
      refine ⟨[Catalogue.collision e old], ?_, fun x hx => ?_⟩
      · simp only [Definition.addErrors, hmade, List.nil_append]
      · rw [List.mem_singleton.mp hx]
        rfl
  obtain ⟨more, hmore, hkinds⟩ := hplaced
  have halone : (Catalogue.empty.placed e).errors = [] := hmade
  refine ⟨more, ?_, hkinds⟩
  rw [Document.taken, Document.taken]
  by_cases hroot : d.name = e.name
  · rw [if_pos hroot, if_pos hroot, Definition.addErrors, Definition.addErrors]
    simp only [hmore, halone, List.nil_append]
  · rw [if_neg hroot, if_neg hroot, hmore, halone, List.append_nil]

theorem fieldFollows_later (h : d.Added c c') (h₀ : d.Added .empty c₀) (hv : IsDocument q d.value)
    (hopen : c.finished = false) {entries : List (Scalar × Json)}
    (hsite : (name, .map entries) ∈ sites d.name d.root) {e : Scalar × Json} (he : e ∈ entries) :
    Registry.FieldFollows (.ofCatalogue c'.finish) (.ofCatalogue c₀.finish) (.ofCatalogue c.finish)
      name (fieldOver .empty c₀.types name entries e) (fieldOver c c'.types name entries e) := by
  have hfield := (closed_sites (d.isDocument_root hv) d.name).entry hsite e he
  refine ⟨rfl, rfl, rfl, follows_site h h₀ hv hopen hfield, fun hleft => ?_⟩
  refine autocreate_site h h₀ hv hfield fun hat => ?_
  have halone := get?_later h₀ hv rfl hfield
  rw [hat] at halone
  have hfirst := hleft halone
  rw [Registry.get?_finish hopen, Option.map_eq_none_iff] at hfirst
  exact hfirst

/-- A type of a plain sample is restated behind another document. -/
theorem restates_later (h : d.Added c c') (h₀ : d.Added .empty c₀) (hv : IsDocument q d.value)
    (hopen : c.finished = false) {x : Definition}
    (hx : (Registry.ofCatalogue c₀.finish).get? name = some x) :
    ∃ x', (Registry.ofCatalogue c'.finish).get? name = some x' ∧
      Registry.Restates (.ofCatalogue c'.finish) (.ofCatalogue c₀.finish) (.ofCatalogue c.finish)
        x x' := by
  obtain ⟨v, e, hsite, hat⟩ := defined_later h₀ hx
  have hlater := get?_later h hv hopen hsite
  have halone := get?_later h₀ hv rfl hsite
  rw [hat] at hlater halone
  obtain rfl : resolvedIn c₀.types (d.taken .empty e) = x := Option.some.inj (halone.symm.trans hx)
  refine ⟨_, hlater, ?_⟩
  obtain ⟨hmadeName, -, -, hmade⟩ := made_at hat
  have hname : (d.taken .empty e).name = name := (d.name_taken .empty e).trans hmadeName
  have hsameName : (d.taken c e).name = (d.taken .empty e).name :=
    (d.name_taken c e).trans (d.name_taken .empty e).symm
  have hsameSource : (d.taken c e).source = (d.taken .empty e).source :=
    (d.source_taken c e).trans (d.source_taken .empty e).symm
  cases v with
  | scalar s => cases hat
  | list items =>
    have helement := (closed_sites (d.isDocument_root hv) d.name).element hsite
    rw [list_later h hv hsite hat, list_later h₀ hv hsite hat]
    refine ⟨hsameName, hsameSource, rfl, ⟨rfl, rfl, ?_⟩, errors_taken hmade⟩
    change Registry.Follows _ _ _ (elementName (d.taken .empty e).name) _ _
    rw [hname]
    exact follows_site h h₀ hv hopen helement
  | map entries =>
    rw [struct_later h hv hsite hat, struct_later h₀ hv hsite hat]
    refine ⟨hsameName, hsameSource, rfl, ⟨rfl, ?_⟩, errors_taken hmade⟩
    change List.Forall₂ (Registry.FieldFollows _ _ _ (d.taken .empty e).name) _ _
    rw [hname, List.forall₂_map_left_iff, List.forall₂_map_right_iff, List.forall₂_same]
    exact fun e he => fieldFollows_later h h₀ hv hopen hsite he

end Inference
end Exemplar
