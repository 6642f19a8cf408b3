import Exemplar.Proofs.Sites
import Exemplar.Proofs.StructSamples

/-! The places of a document: the values that are met in it, each with the name that it stands under
and the aliases around it. A struct opens a scope for what it holds. What a struct does not declare
itself stands in it for what it stands for around it. -/
namespace Exemplar
open Json Inference

/-- A place in a document: the aliases around it, the name of what it defines, and what stands there. -/
structure Place where
  scope : AliasScope
  name : String
  value : Json

namespace Place

variable {options : Options} {p q root : Place} {entries : List (Scalar × Json)}

/-- The entries of the struct at a place, if there is one. -/
def struct? (options : Options) (p : Place) : Option (List (Scalar × Json)) :=
  match p.value with
  | .map entries =>
    if (Markers.value? (some (.str options.enumKey)) entries).isNone &&
      (Markers.value? (some (.str options.mapOfKey)) entries).isNone then some entries
    else none
  | _ => none

/-- The scope inside a place: a struct opens a block for its own aliases. -/
def inside (options : Options) (p : Place) : AliasScope :=
  match p.struct? options with
  | some entries => p.scope.push (blockTable p.scope p.name [] (ownBlock options entries))
  | none => p.scope

/-- The aliases visible inside a place, as one table. -/
def aliases (options : Options) (p : Place) : Aliases := (p.inside options).snapshot

def Declares (options : Options) (p : Place) (a : String) : Prop :=
  ∃ entries ∈ p.struct? options, ∃ e ∈ ownBlock options entries, e.1 = .str a

instance (options : Options) (p : Place) (a : String) : Decidable (p.Declares options a) :=
  inferInstanceAs (Decidable (∃ entries ∈ p.struct? options, ∃ e ∈ ownBlock options entries,
    e.1 = .str a))

/-- A place is met as the value of a field of another one, as the value under its map marker, or as
the innermost first element of its lists. -/
inductive Holds (options : Options) : Place → Place → Prop
  | field {p : Place} {entries : List (Scalar × Json)} {e : Scalar × Json}
      (struct : p.struct? options = some entries) (mem : e ∈ entries)
      (isField : (Markers.ofOptions options).isField e.1 = true) :
      Holds options p
        ⟨p.inside options, fieldPlace (.ofOptions options) entries p.name e.1, e.2⟩
  | marked {scope : AliasScope} {name : String} {entries : List (Scalar × Json)} {v : Json}
      (noEnum : Markers.value? (some (.str options.enumKey)) entries = none)
      (found : Markers.value? (some (.str options.mapOfKey)) entries = some v) :
      Holds options ⟨scope, name, .map entries⟩ ⟨scope, name, v⟩
  | item {scope : AliasScope} {name : String} {items : List Json} {entries : List (Scalar × Json)}
      (first : itemInnermost items = some (.map entries)) :
      Holds options ⟨scope, name, .list items⟩ ⟨scope, elementName name, .map entries⟩

/-- The places that are met from another one: through what the places hold, and as the targets of the
aliases that structs declare. -/
inductive Occurs (options : Options) (root : Place) : Place → Prop
  | root : Occurs options root root
  | held {p q : Place} (outer : Occurs options root p) (holds : p.Holds options q) :
      Occurs options root q
  | target {p : Place} {entries pre post : List (Scalar × Json)} {a : Scalar} {v : Json}
      (outer : Occurs options root p) (struct : p.struct? options = some entries)
      (own : ownBlock options entries = pre ++ (a, v) :: post)
      (defines : definesType (a, v) = true) :
      Occurs options root
        ⟨p.scope.push (blockTable p.scope p.name [] (pre ++ [(a, v)])),
          Name.member p.name (Identifier.ofText a.plainText), v⟩

/-- A place is met through what another one holds, and no struct behind that one, up to this one,
declares one of the aliases. -/
inductive Below (options : Options) (aliases : List String) (p : Place) : Place → Prop
  | here : Below options aliases p p
  | held {q r : Place} (outer : Below options aliases p q) (holds : q.Holds options r)
      (others : ∀ a ∈ aliases, ¬r.Declares options a) : Below options aliases p r

theorem struct?_iff : p.struct? options = some entries ↔
    p.value = .map entries ∧ IsStruct (.ofOptions options) entries := by
  obtain ⟨scope, name, value⟩ := p
  rw [struct?]
  cases value with
  | scalar x => simp
  | list items => simp
  | map entries' =>
    simp only [Option.ite_none_right_eq_some, Bool.and_eq_true, Option.isNone_iff_eq_none,
      Option.some.injEq, Json.map.injEq]
    constructor
    · rintro ⟨⟨noEnum, noMapOf⟩, rfl⟩
      exact ⟨rfl, noEnum, noMapOf⟩
    · rintro ⟨rfl, noEnum, noMapOf⟩
      exact ⟨⟨noEnum, noMapOf⟩, rfl⟩

theorem inside_struct (h : p.struct? options = some entries) : p.inside options =
    p.scope.push (blockTable p.scope p.name [] (ownBlock options entries)) := by
  rw [inside, h]

theorem Holds.scope_eq (h : p.Holds options q) : q.scope = p.inside options := by
  cases h with
  | field struct mem isField => rfl
  | @marked scope name entries v noEnum found =>
    have hnone : struct? options ⟨scope, name, .map entries⟩ = none := by
      simp only [struct?, found, Option.isNone_some, Bool.and_false, Bool.false_eq_true, if_false]
    rw [inside, hnone]
  | item first => rfl

mutual
theorem isDocument_innermost {P : Scalar → Prop} {v : Json} :
    {u : Json} → IsDocument P u → innermost u = some v → IsDocument P v
  | .scalar x, h, hv => by
    rw [innermost] at hv
    · exact Option.some.inj hv ▸ h
    · simp
  | .map entries, h, hv => by
    rw [innermost] at hv
    · exact Option.some.inj hv ▸ h
    · simp
  | .list items, h, hv => by
    rw [innermost] at hv
    cases h with
    | list parts => exact isDocument_itemInnermost parts hv
theorem isDocument_itemInnermost {P : Scalar → Prop} {v : Json} :
    {items : List Json} → (∀ u ∈ items, IsDocument P u) → itemInnermost items = some v →
      IsDocument P v
  | [], _, hv => by
    rw [itemInnermost] at hv
    cases hv
  | u :: _, h, hv => by
    rw [itemInnermost] at hv
    exact isDocument_innermost (h u List.mem_cons_self) hv
end

/-- A place in a document, with the aliases around it in tidy tables. -/
structure Sound (P : Scalar → Prop) (p : Place) : Prop where
  scope : p.scope.Tidy
  value : IsDocument P p.value

variable {P : Scalar → Prop} {a : String} {names : List String}

theorem Sound.tidy_inside (h : p.Sound P) (options : Options) : (p.inside options).Tidy := by
  rw [inside]
  split
  · next entries hstruct =>
    have hdocument := h.value
    rw [(struct?_iff.mp hstruct).1] at hdocument
    exact h.scope.push (tidy_blockTable (names_ownBlock options hdocument) Assoc.tidy_nil)
  · exact h.scope

theorem Sound.of_holds (h : p.Sound P) (hq : p.Holds options q) : q.Sound P := by
  refine ⟨hq.scope_eq ▸ h.tidy_inside options, ?_⟩
  have hdocument := h.value
  cases hq with
  | field struct mem isField =>
    rw [(struct?_iff.mp struct).1] at hdocument
    cases hdocument with
    | map names once parts => exact parts _ mem
  | marked noEnum found =>
    obtain ⟨key, hkey, hfound⟩ := Option.bind_eq_some_iff.mp found
    exact hdocument.found (Option.filter_eq_some_iff.mp hfound).1
  | item first =>
    cases hdocument with
    | list parts => exact isDocument_itemInnermost parts first

theorem Occurs.sound (h : Occurs options root p) (hroot : root.Sound P) : p.Sound P := by
  induction h with
  | root => exact hroot
  | held _ holds ih => exact ih.of_holds holds
  | @target p entries pre post a v _ struct own _ ih =>
    have hdocument := ih.value
    rw [(struct?_iff.mp struct).1] at hdocument
    have hnames := names_ownBlock options hdocument
    have hparts := isDocument_ownBlock options hdocument
    rw [own] at hnames hparts
    refine ⟨ih.scope.push (tidy_blockTable (fun e he => ?_) Assoc.tidy_nil), ?_⟩
    · refine hnames e ?_
      rcases List.mem_append.mp he with he | he
      · exact List.mem_append_left _ he
      · rw [List.mem_singleton.mp he]
        exact List.mem_append_right _ List.mem_cons_self
    · exact hparts (a, v) (List.mem_append_right _ List.mem_cons_self)

/-- What a struct does not declare stands in it for what it stands for around it. -/
theorem Sound.resolve_inside (h : p.Sound P) (hother : ¬p.Declares options a) :
    (p.inside options).resolve (.str a) = p.scope.resolve (.str a) := by
  rw [inside]
  split
  · next entries hstruct =>
    have hdocument := h.value
    rw [(struct?_iff.mp hstruct).1] at hdocument
    have hnone : Assoc.get? (blockTable p.scope p.name [] (ownBlock options entries)) (.str a) =
        none := by
      refine get?_blockTable_other (names_ownBlock options hdocument) fun hmem => ?_
      obtain ⟨e, he, hkey⟩ := List.mem_map.mp hmem
      exact hother ⟨entries, hstruct, e, he, hkey⟩
    rw [AliasScope.resolve_push, hnone, Option.none_or]
  · rfl

/-- Aliases that no struct on the way declares again stand for the same at its end. -/
theorem Below.resolve_inside (h : Below options names p q) (hp : p.Sound P) (ha : a ∈ names) :
    (q.inside options).resolve (.str a) = (p.inside options).resolve (.str a) ∧ q.Sound P := by
  induction h with
  | here => exact ⟨rfl, hp⟩
  | @held q r _ holds others ih =>
    obtain ⟨hsame, hq⟩ := ih
    have hr := hq.of_holds holds
    refine ⟨?_, hr⟩
    calc (r.inside options).resolve (.str a)
        = r.scope.resolve (.str a) := hr.resolve_inside (others a ha)
      _ = (q.inside options).resolve (.str a) := by rw [holds.scope_eq]
      _ = (p.inside options).resolve (.str a) := hsame

theorem Below.get?_aliases (h : Below options names p q) (hp : p.Sound P) (ha : a ∈ names) :
    (q.aliases options).get? (.str a) = (p.aliases options).get? (.str a) := by
  obtain ⟨hsame, hq⟩ := h.resolve_inside hp ha
  rw [aliases, aliases, AliasScope.get?_snapshot (hq.tidy_inside options),
    AliasScope.get?_snapshot (hp.tidy_inside options), hsame]

end Place

namespace Document

def place (d : Document) : Place := ⟨.empty, d.name, d.sample⟩

theorem sound_place {d : Document} {P : Scalar → Prop} (hschema : d.plain = false)
    (hv : IsDocument P d.value) : d.place.Sound P := by
  refine ⟨AliasScope.tidy_empty, ?_⟩
  rw [place, sample, hschema]
  cases d.value.isNull with
  | true => exact .map (List.forall_mem_nil _) List.nodup_nil (List.forall_mem_nil _)
  | false => exact hv

end Document
end Exemplar
