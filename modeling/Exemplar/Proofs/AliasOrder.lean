import Exemplar.Proofs.AlikeCatalogues
import Exemplar.Proofs.BlockOrder
import Exemplar.Proofs.Origins
import Exemplar.Proofs.Outlines

/-! The order of an alias block and what the types of a document refer to. A block in another order
leaves all references as they were, but for those that are looked up with the aliases of a struct inside
the block: that struct knows the aliases before it only. -/
namespace Exemplar
open Inference

structure Field.SameType (f f' : Field) : Prop where
  key : f'.key = f.key
  property : f'.property = f.property
  type : f'.type = f.type
  autocreate : f'.autocreate = f.autocreate

/-- Fields and elements refer to the same types. -/
def Shape.SameTypes : Shape → Shape → Prop
  | .struct fields _, .struct fields' _ => List.Forall₂ Field.SameType fields fields'
  | .enum values _, .enum values' _ => values' = values
  | .list depth _ element, .list depth' _ element' => depth' = depth ∧ element' = element
  | _, _ => False

/-- The struct whose aliases the samples of a type are looked up with: a struct itself, and the nearest
struct around a list. -/
def Registry.viewpoint? (r : Registry) (d : Definition) : Option Definition :=
  match d.kind with
  | .struct => some d
  | .list => r.types.enclosingStruct d.name
  | _ => none

theorem rel_map {α β : Type} {R : α → α → Prop} {S : β → β → Prop} {a b : Option α} {f g : α → β}
    (h : Option.Rel R a b) (hs : ∀ x, a = some x → ∀ y, R x y → S (f x) (g y)) :
    Option.Rel S (a.map f) (b.map g) := by
  cases h with
  | none => exact .none
  | some h => exact .some (hs _ rfl _ h)

namespace TypeTable

variable {types types' : TypeTable} {d d' : Definition} {s s' : Option Surrounding}

theorem exists_of_enclosingStruct {name : String} (h : types.enclosingStruct name = some d) :
    ∃ space, types.get? space = some d ∧ d.kind = .struct := by
  obtain ⟨space, -, hfound⟩ := List.exists_of_findSome?_eq_some h
  obtain ⟨hget, hkind⟩ := Option.filter_eq_some_iff.mp hfound
  exact ⟨space, hget, beq_iff_eq.mp hkind⟩

/-- A sample that refers to nothing is the same in a document that is alike. -/
theorem eq_of_classify_none {sample sample' : Json} (h : sample.Alike sample')
    (hnone : types.classify sample s = none) : sample' = sample := by
  cases sample <;> cases sample' <;> try exact h.elim
  case scalar.scalar x x' => exact congrArg Json.scalar (Eq.symm h)
  all_goals cases hnone

theorem unknownField_alike (hname : d'.name = d.name) {f f' : Field} (hf : f.Alike f')
    (hnone : types.fieldType? d f = none) : unknownField d' f' = unknownField d f := by
  rw [TypeTable.fieldType?] at hnone
  split at hnone
  · cases hnone
  · rw [unknownField, unknownField, hname, hf.key, eq_of_classify_none hf.sample hnone]

theorem Outlined.resolveField_alike (h : types.Outlined types')
    (hd : d.surrounding.Agree d'.surrounding) {f f' : Field} (hf : f.Alike f') :
    (types.resolveField d f).SameType (types'.resolveField d' f') := by
  have htype := h.fieldType? hd hf
  refine ⟨hf.key, hf.property, ?_, ?_⟩
  · simp only [TypeTable.resolveField, htype]
  · simp only [TypeTable.resolveField, htype, h.kind?]

theorem Outlined.unknown_alike (h : types.Outlined types')
    (hd : d.surrounding.Agree d'.surrounding) {fields fields' : List Field}
    (hfields : List.Forall₂ Field.Alike fields fields') :
    (fields'.filter fun f => (types'.fieldType? d' f).isNone).map (unknownField d') =
      (fields.filter fun f => (types.fieldType? d f).isNone).map (unknownField d) := by
  induction hfields with
  | nil => rfl
  | @cons f f' fields fields' hf _ ih =>
    rw [List.filter_cons, List.filter_cons, h.fieldType? hd hf]
    cases hnone : types.fieldType? d f with
    | none => exact congrArg₂ List.cons (unknownField_alike hd.name hf hnone) ih
    | some t => exact ih

/-- Definitions that are alike refer to the same types, if they look their samples up in structs whose
aliases stand for the same names. -/
theorem Outlined.resolve_alike (h : types.Outlined types')
    {q : String → Aliases → Aliases → Prop} (hd : d.Alike q d')
    (hstruct : d.kind = .struct → Agree d.aliases d'.aliases)
    (haround : d.kind = .list → Option.Rel Surrounding.Agree
      ((types.enclosingStruct d.name).map Definition.surrounding)
      ((types'.enclosingStruct d.name).map Definition.surrounding)) :
    (types'.resolve d').errors = (types.resolve d).errors ∧
      (types.resolve d).shape.SameTypes (types'.resolve d').shape := by
  obtain ⟨name, source, shape, edition, errors, inner⟩ := d
  obtain ⟨name', source', shape', edition', errors', inner'⟩ := d'
  obtain rfl : name' = name := hd.name
  obtain rfl : errors' = errors := hd.errors
  have hshape := hd.shape
  cases shape <;> cases shape' <;> try exact hshape.elim
  case struct.struct fields aliases fields' aliases' =>
    let e : Definition := ⟨name', source, .struct fields aliases, edition, errors', inner⟩
    let e' : Definition := ⟨name', source', .struct fields' aliases', edition', errors', inner'⟩
    have hagree : e.surrounding.Agree e'.surrounding := ⟨rfl, hstruct rfl⟩
    have hfields : List.Forall₂ Field.Alike fields fields' := hshape.1
    refine ⟨congrArg (errors' ++ ·) (h.unknown_alike hagree hfields), ?_⟩
    change List.Forall₂ Field.SameType (fields.map (types.resolveField e))
      (fields'.map (types'.resolveField e'))
    rw [List.forall₂_map_left_iff, List.forall₂_map_right_iff]
    exact hfields.imp fun f f' hf => h.resolveField_alike hagree hf
  case enum.enum values origin values' origin' => exact ⟨rfl, hshape⟩
  case list.list depth sample element depth' sample' element' =>
    have helement := h.elementType? (haround rfl) hshape.2
    cases hknown : types.elementType? name' sample with
    | some t =>
      rw [hknown] at helement
      simp only [TypeTable.resolve, hknown, helement]
      exact ⟨trivial, hshape.1, rfl⟩
    | none =>
      obtain rfl : sample' = sample := by
        rw [TypeTable.elementType?] at hknown
        split at hknown
        · cases hknown
        · exact eq_of_classify_none hshape.2 hknown
      rw [hknown] at helement
      simp only [TypeTable.resolve, hknown, helement]
      exact ⟨trivial, hshape.1, rfl⟩

end TypeTable

namespace Catalogue

variable {c c' : Catalogue} {q : String → Aliases → Aliases → Prop}

theorem AlikeByName.outlined (h : c.AlikeByName q c') : TypeTable.Outlined c.types c'.types := by
  intro name
  rcases h.get? name with ⟨hnone, hnone'⟩ | ⟨d, d', hd, hd', halike⟩
  · rw [show Assoc.get? c.types name = none from hnone, show Assoc.get? c'.types name = none from hnone']
    exact .none
  · rw [show Assoc.get? c.types name = some d from hd, show Assoc.get? c'.types name = some d' from hd']
    exact .some ⟨halike.ref, halike.kind⟩

/-- The nearest structs around a name are alike. -/
theorem AlikeByName.enclosingStruct (h : c.AlikeByName q c') (name : String) :
    Option.Rel (Definition.Alike q) (TypeTable.enclosingStruct c.types name)
      (TypeTable.enclosingStruct c'.types name) := by
  rw [TypeTable.enclosingStruct, TypeTable.enclosingStruct]
  induction Name.enclosing name with
  | nil => exact .none
  | cons space spaces ih =>
    rw [List.findSome?_cons, List.findSome?_cons]
    rcases h.get? space with ⟨hnone, hnone'⟩ | ⟨d, d', hd, hd', halike⟩
    · rw [show Assoc.get? c.types space = none from hnone,
        show Assoc.get? c'.types space = none from hnone']
      exact ih
    · rw [show Assoc.get? c.types space = some d from hd,
        show Assoc.get? c'.types space = some d' from hd', Option.filter_some, Option.filter_some,
        halike.kind]
      by_cases hstruct : (d.kind == .struct) = true
      · rw [if_pos hstruct, if_pos hstruct]
        exact .some halike
      · rw [if_neg hstruct, if_neg hstruct]
        exact ih

theorem AlikeByName.names_perm (h : c.AlikeByName q c') (honce : (Assoc.keys c.types).Nodup)
    (honce' : (Assoc.keys c'.types).Nodup) : (Assoc.keys c'.types).Perm (Assoc.keys c.types) := by
  rw [List.perm_ext_iff_of_nodup honce' honce]
  intro name
  rw [← Assoc.has_iff, ← Assoc.has_iff, Assoc.has, Assoc.has]
  rcases h.get? name with ⟨hnone, hnone'⟩ | ⟨d, d', hd, hd', -⟩
  · rw [show Assoc.get? c.types name = none from hnone, show Assoc.get? c'.types name = none from hnone']
  · rw [show Assoc.get? c.types name = some d from hd, show Assoc.get? c'.types name = some d' from hd']
    rfl

end Catalogue

namespace Registry

variable {options : Options} {d : Document} {r : Registry} {name : String}

theorem ofDocument_ok_iff : ofDocument options d = .ok r ↔
    (Catalogue.empty.addDocument options d).1 = .ok () ∧ r = ofDocuments options [d] := by
  rw [ofDocument]
  cases hadded : Catalogue.empty.addDocument options d with
  | mk result c =>
    have hall : ofDocuments options [d] = ofCatalogue c.finish := by
      rw [ofDocuments, Catalogue.addDocuments, List.foldl_cons, hadded]
      rfl
    rw [hall]
    cases result with
    | error f =>
      constructor
      · intro h
        cases h
      · rintro ⟨h, -⟩
        cases h
    | ok => exact ⟨fun h => ⟨rfl, (Except.ok.inj h).symm⟩, fun h => congrArg Except.ok h.2.symm⟩

/-- Where all chains of the aliases in a document end, they do in the struct of each type. -/
theorem ends_aliases (hends : ∀ e ∈ d.definitions options, TypeTable.Ends e.aliases)
    {x : Definition} (hx : (ofDocuments options [d]).get? name = some x) :
    TypeTable.Ends x.aliases := by
  obtain ⟨-, doc, hdoc, e, x₀, he, -, -, hshape, -, rfl⟩ := exists_definition hx
  obtain rfl := List.mem_singleton.mp hdoc
  have haliases : x₀.aliases = e.aliases := by
    rw [Definition.aliases, Definition.aliases, hshape]
  rw [aliases_resolvedIn, haliases]
  rcases he with he | rfl
  · exact hends e he
  · exact List.forall_mem_nil _

theorem exists_of_viewpoint {x y : Definition} (hx : r.get? name = some x)
    (hy : r.viewpoint? x = some y) : ∃ space, r.get? space = some y := by
  rw [viewpoint?] at hy
  split at hy
  · cases hy
    exact ⟨name, hx⟩
  · obtain ⟨space, hspace, -⟩ := TypeTable.exists_of_enclosingStruct hy
    exact ⟨space, hspace⟩
  · cases hy

/-- Types that are alike refer to the same types in the end, if the aliases that their samples are looked
up with stand for the same names. -/
theorem sameTypes_finish {c c' : Catalogue} {q : String → Aliases → Aliases → Prop}
    (h : c.AlikeByName q c') (hopen : c.finished = false) {e e' : Definition} (hsame : e.Alike q e')
    (hagree : ∀ y, (ofCatalogue c.finish).viewpoint? (resolvedIn c.types e) = some y →
      ∀ t', q y.name y.aliases t' → TypeTable.Agree y.aliases t') :
    (resolvedIn c'.types e').errors = (resolvedIn c.types e).errors ∧
      (resolvedIn c.types e).shape.SameTypes (resolvedIn c'.types e').shape := by
  have hkind := kind_resolvedIn c.types e
  have hname := (resolvedIn_name_source_ref c.types e).1
  have hlinked : (TypeTable.linkInner c.types e).Alike q (TypeTable.linkInner c'.types e') :=
    ⟨hsame.name, hsame.source, hsame.edition, hsame.errors, hsame.shape⟩
  have hfinished (y : Definition) : (resolvedIn c.types y).name = y.name ∧
      (resolvedIn c.types y).aliases = y.aliases :=
    ⟨(resolvedIn_name_source_ref c.types y).1, aliases_resolvedIn c.types y⟩
  refine h.outlined.resolve_alike hlinked (fun hstruct => ?_) fun hlist => ?_
  · have hown := hagree (resolvedIn c.types e) ?_ e'.aliases
    · rw [(hfinished e).1, (hfinished e).2] at hown
      exact hown (hsame.aliases hstruct)
    · rw [viewpoint?, hkind, show e.kind = .struct from hstruct]
  · refine rel_map (h.enclosingStruct e.name) fun y hy y' hsame => ⟨hsame.name, ?_⟩
    have haround := enclosingStruct_finish hopen e.name
    rw [show TypeTable.enclosingStruct c.types e.name = some y from hy, Option.map_some] at haround
    have hown := hagree (resolvedIn c.types y) ?_ y'.aliases
    · rw [(hfinished y).1, (hfinished y).2] at hown
      obtain ⟨-, -, hstruct⟩ := TypeTable.exists_of_enclosingStruct hy
      exact hown (hsame.aliases hstruct)
    · rw [viewpoint?, hkind, show e.kind = .list from hlist, hname]
      exact haround

/-- The order of an alias block makes no difference to what the fields and elements of a document refer
to, nor to their diagnostics, where they are looked up with the aliases of a struct outside the block.
No alias of the block is declared again around it or in the fields beside it, no two of its aliases name
one type, and no aliases lead in a circle. -/
theorem ofDocument_reordered {owner : String} {block block' : List (Scalar × Json)} {value : Json}
    {p : Scalar → Prop} (hschema : d.plain = false)
    (hreordered : Inference.Reordered options owner block block' d.name d.value value)
    (hperm : block'.Perm block) (hapart : TypesApart block) (hv : Json.IsDocument p d.value)
    (hends : ∀ e ∈ d.definitions options, TypeTable.Ends e.aliases)
    (hr : ofDocument options d = .ok r) :
    ∃ r', ofDocument options { d with value } = .ok r' ∧ r'.names.Perm r.names ∧
      ∀ name x, r.get? name = some x → ∃ x', r'.get? name = some x' ∧ x'.ref = x.ref ∧
        x'.kind = x.kind ∧
        ((∀ y, r.viewpoint? x = some y → ¬OfBlock owner block y.name) →
          x'.errors = x.errors ∧ x.shape.SameTypes x'.shape) := by
  obtain ⟨hadded, rfl⟩ := ofDocument_ok_iff.mp hr
  let c := Catalogue.empty.addDocuments options [d]
  let c' := Catalogue.empty.addDocuments options [{ d with value }]
  have hopen : c.finished = false := Catalogue.finished_addDocuments options .empty [d]
  have hopen' : c'.finished = false := Catalogue.finished_addDocuments options .empty _
  obtain ⟨c₁, hadded', halike⟩ : ∃ c₁, Catalogue.empty.addDocument options { d with value } =
      (.ok (), c₁) ∧ c.AlikeByName (Reread owner block) c₁ := by
    have hrun : Catalogue.empty.addDocument options d = (.ok (), c) := Prod.ext hadded rfl
    refine Catalogue.AlikeByName.addDocument (fun _ => .none) ?_ ?_ ?_ reread_same
      (hreordered.alikeByName hschema hperm hapart hv hends) hrun
    all_goals rfl
  obtain rfl : c' = c₁ := congrArg Prod.snd hadded'
  refine ⟨_, ofDocument_ok_iff.mpr ⟨congrArg Prod.fst hadded', rfl⟩, ?_, fun name x hx => ?_⟩
  · rw [ofDocuments, ofDocuments, names_finish hopen, names_finish hopen']
    exact halike.names_perm (Catalogue.accounts_addDocuments options _).once
      (Catalogue.accounts_addDocuments options _).once
  have hx₀ := hx
  rw [ofDocuments, get?_finish hopen] at hx
  obtain ⟨e, he, rfl⟩ := Option.map_eq_some_iff.mp hx
  obtain ⟨hnone, -⟩ | ⟨_, e', he₁, he', hsame⟩ := halike.get? name
  · rw [hnone] at he
    cases he
  obtain rfl := Option.some.inj (he.symm.trans he₁)
  refine ⟨resolvedIn c'.types e', ?_, ?_, ?_, fun houtside => ?_⟩
  · rw [ofDocuments, get?_finish hopen', he']
    rfl
  · rw [(resolvedIn_name_source_ref _ e').2.2, (resolvedIn_name_source_ref _ e).2.2, hsame.ref]
  · rw [kind_resolvedIn, kind_resolvedIn, hsame.kind]
  · refine sameTypes_finish halike hopen hsame fun y hy t' hq => ?_
    obtain ⟨space, hspace⟩ := exists_of_viewpoint hx₀ hy
    exact hq.resolve_left (houtside y hy) (ends_aliases hends hspace)

/-- A struct whose field refers to an alias that comes behind it, and that alias. -/
def laterBlock : List (Scalar × Json) :=
  [(.str "P", .map [(.str "x", .scalar (.str "Q"))]), (.str "Q", .scalar (.str "int"))]

def blockDocument (block : List (Scalar × Json)) : Document :=
  { name := "N"
    source := "N.jschema"
    value := .map [(.str "__typedefs", .map block), (.str "p", .scalar (.str "P")),
      (.str "q", .scalar (.str "Q"))] }

/-- The struct inside the block is the one type that the order makes a difference to. -/
theorem ofDocument_reordered_later :
    let d := blockDocument laterBlock
    let d' := blockDocument laterBlock.reverse
    d.plain = false ∧ Inference.Reordered {} "N" laterBlock laterBlock.reverse d.name d.value d'.value ∧
    laterBlock.reverse.Perm laterBlock ∧ TypesApart laterBlock ∧
    Json.IsDocument (fun _ => True) d.value ∧ (∀ e ∈ d.definitions {}, TypeTable.Ends e.aliases) ∧
    ∃ r r', ofDocument {} d = .ok r ∧ ofDocument {} d' = .ok r' ∧ r'.names.Perm r.names ∧
      (∃ x x', r.get? "N" = some x ∧ r'.get? "N" = some x' ∧ x'.errors = x.errors ∧
        x.shape.SameTypes x'.shape) ∧
      ∃ x x', r.get? "N.P" = some x ∧ r'.get? "N.P" = some x' ∧ x'.errors ≠ x.errors := by
  intro d d'
  have hfields : ∀ e ∈ [(Scalar.str "__typedefs", Json.map laterBlock),
      (.str "p", .scalar (.str "P")), (.str "q", .scalar (.str "Q"))], e.1 ≠ .str "__typedefs" →
        Undeclared (.ofOptions {}) (Assoc.keys laterBlock) e.2 := by
    simp [Undeclared.scalar]
  have hreordered : Inference.Reordered {} "N" laterBlock laterBlock.reverse d.name d.value d'.value :=
    .here ⟨rfl, rfl⟩ rfl hfields
  have hperm : laterBlock.reverse.Perm laterBlock := List.reverse_perm _
  have hapart : TypesApart laterBlock := by
    unfold TypesApart
    decide
  have hv : Json.IsDocument (fun _ => True) d.value := by decide
  have hends : ∀ e ∈ d.definitions {}, TypeTable.Ends e.aliases := by
    unfold TypeTable.Ends
    decide +kernel
  have hlater : ∃ r ∈ (ofDocument {} d).toOption, ∃ x ∈ r.get? "N", (x.name = "N" ∧ x.kind = .struct) ∧
      ∃ y ∈ r.get? "N.P", y.errors ≠ [] := by
    decide +kernel
  have hfirst : ∀ r' ∈ (ofDocument {} d').toOption, ∃ y' ∈ r'.get? "N.P", y'.errors = [] := by
    decide +kernel
  obtain ⟨r, hr, x, hx, ⟨hname, hkind⟩, y, hy, hunknown⟩ := hlater
  have hbuilt := ok_of_toOption hr
  obtain ⟨r', hbuilt', hnames, hsame⟩ :=
    ofDocument_reordered (d := d) rfl hreordered hperm hapart hv hends hbuilt
  rw [show ofDocument {} { d with value := d'.value } = ofDocument {} d' from rfl] at hbuilt'
  rw [hbuilt'] at hfirst
  obtain ⟨y', hy', hknown⟩ := hfirst r' rfl
  obtain ⟨x', hx', -, -, htypes⟩ := hsame "N" x hx
  have houtside : ∀ z, r.viewpoint? x = some z → ¬OfBlock "N" laterBlock z.name := by
    intro z hz
    rw [viewpoint?, hkind] at hz
    obtain rfl : x = z := Option.some.inj hz
    rw [hname]
    unfold OfBlock
    decide
  refine ⟨rfl, hreordered, hperm, hapart, hv, hends, r, r', hbuilt, hbuilt', hnames,
    ⟨x, x', hx, hx', htypes houtside⟩, y, y', hy, hy', ?_⟩
  rw [hknown]
  exact hunknown.symm

end Registry
end Exemplar
