import Exemplar.Proofs.Binding
import Exemplar.Proofs.LaterDocuments
import Exemplar.Proofs.Origins
import Mathlib.Data.List.Chain
import Mathlib.Logic.Relation

/-! Chains of elements. The elements of a list type may be of a list type again. A chain of them ends,
and the list type can be described, unless it comes back to where it was; for that a list has to give
the type of its elements by name. -/
namespace Exemplar
open Inference Relation

namespace Registry

/-- The elements of a list type are of a type that is defined. -/
structure ElementOf (r : Registry) (l d : Definition) : Prop where
  list : r.get? l.name = some l
  shape : ∃ depth sample, l.shape = .list depth sample (some d.ref)
  element : r.get? d.name = some d

/-- From element to element something comes that is no list type. -/
inductive Ends (r : Registry) : Definition → Prop
  | other {d : Definition} (h : d.kind ≠ .list) : Ends r d
  | primitive {l : Definition} {depth : Nat} {sample : Json} {p : Primitive}
      (h : l.shape = .list depth sample (some (.primitive p))) : Ends r l
  | element {l d : Definition} (h : r.ElementOf l d) (hd : Ends r d) : Ends r l

variable {r : Registry} {l d d' x y : Definition}

theorem ElementOf.kind (h : r.ElementOf l d) : l.kind = .list := by
  obtain ⟨depth, sample, hshape⟩ := h.shape
  rw [Definition.kind, hshape]
  rfl

/-- A list type has elements of one type. -/
theorem ElementOf.unique (h : r.ElementOf l d) (h' : r.ElementOf l d') : d = d' := by
  obtain ⟨depth, sample, hshape⟩ := h.shape
  obtain ⟨depth', sample', hshape'⟩ := h'.shape
  rw [hshape] at hshape'
  have href : d.ref = d'.ref := by simpa using (Shape.list.inj hshape').2.2
  have hname : d.name = d'.name := (TypeRef.defined.inj href).1
  exact Option.some.inj (h.element.symm.trans (hname ▸ h'.element))

/-- What comes behind an end also ends. -/
theorem Ends.of_element (h : r.Ends l) (hd : r.ElementOf l d) : r.Ends d := by
  cases h with
  | other h => exact absurd hd.kind h
  | primitive h =>
    obtain ⟨depth, sample, hshape⟩ := hd.shape
    cases h.symm.trans hshape
  | element h hend => rwa [hd.unique h]

theorem Ends.of_reached (h : r.Ends l) (hd : ReflTransGen r.ElementOf l d) : r.Ends d := by
  induction hd with
  | refl => exact h
  | tail _ hstep ih => exact ih.of_element hstep

/-- What ends does not come back. -/
theorem Ends.not_circle (h : r.Ends l) : ¬ TransGen r.ElementOf l l := by
  induction h with
  | other h =>
    intro hcircle
    obtain ⟨d, hstep, -⟩ := TransGen.head'_iff.mp hcircle
    exact h hstep.kind
  | primitive h =>
    intro hcircle
    obtain ⟨d, hstep, -⟩ := TransGen.head'_iff.mp hcircle
    obtain ⟨depth, sample, hshape⟩ := hstep.shape
    cases h.symm.trans hshape
  | element h _ ih =>
    intro hcircle
    obtain ⟨d, hstep, hback⟩ := TransGen.head'_iff.mp hcircle
    rw [← h.unique hstep] at hback
    exact ih (TransGen.tail' hback h)

/-- A type that is defined is described step by step: a list type by its elements, any other by its
name. -/
theorem describeWithin_ref (hr : r.SelfContained) (hl : r.get? l.name = some l) :
    l.kind ≠ .list ∧ (∀ n, r.describeWithin n (some l.ref) = some l.name) ∨
    (∃ depth sample p, l.shape = .list depth sample (some (.primitive p)) ∧
      ∀ n, r.describeWithin (n + 1) (some l.ref) = some (listText p.name depth)) ∨
    ∃ d depth, r.ElementOf l d ∧ r.describeWithin 0 (some l.ref) = none ∧
      ∀ n, r.describeWithin (n + 1) (some l.ref) =
        (r.describeWithin n (some d.ref)).map fun e => listText e depth := by
  have hdefinition := definition?_ref hl
  cases hshape : l.shape with
  | struct fields aliases =>
    refine .inl ⟨by simp [Definition.kind, hshape, Shape.kind], fun n => ?_⟩
    rw [Definition.ref, describeWithin]
    simp only [hdefinition, hshape]
  | enum values origin =>
    refine .inl ⟨by simp [Definition.kind, hshape, Shape.kind], fun n => ?_⟩
    rw [Definition.ref, describeWithin]
    simp only [hdefinition, hshape]
  | list depth sample element =>
    have hstep (n : Nat) : r.describeWithin (n + 1) (some l.ref) =
        (r.describeWithin n element).map fun e => listText e depth := by
      rw [Definition.ref, describeWithin]
      simp only [hdefinition, hshape]
    obtain ⟨t, rfl, hprimitive | ⟨d, hd, rfl, -⟩⟩ := hr.elements _ _ hl _ _ _ hshape
    · obtain ⟨p, rfl⟩ := hprimitive
      refine .inr (.inl ⟨depth, sample, p, rfl, fun n => ?_⟩)
      rw [hstep, describeWithin]
      rfl
    · refine .inr (.inr ⟨d, depth, ⟨hl, ⟨depth, sample, hshape⟩, hd⟩, ?_, hstep⟩)
      rw [Definition.ref, describeWithin]
      simp only [hdefinition, hshape]

/-- What can be described ends. -/
theorem ends_of_describeWithin (hr : r.SelfContained) {n : Nat} {text : String}
    (hl : r.get? l.name = some l) (h : r.describeWithin n (some l.ref) = some text) : r.Ends l := by
  induction n generalizing l text with
  | zero =>
    rcases describeWithin_ref hr hl with ⟨hkind, -⟩ | ⟨_, _, _, hshape, -⟩ | ⟨d, depth, -, hnone, -⟩
    · exact .other hkind
    · exact .primitive hshape
    · rw [hnone] at h
      cases h
  | succ n ih =>
    rcases describeWithin_ref hr hl with ⟨hkind, -⟩ | ⟨_, _, _, hshape, -⟩ | ⟨d, depth, hd, -, hstep⟩
    · exact .other hkind
    · exact .primitive hshape
    · rw [hstep] at h
      obtain ⟨inner, hinner, -⟩ := Option.map_eq_some_iff.mp h
      exact .element hd (ih hd.element hinner)

/-- What cannot be described in some steps is followed by as many elements. -/
theorem exists_chain (hr : r.SelfContained) (n : Nat) (hl : r.get? l.name = some l)
    (h : r.describeWithin n (some l.ref) = none) : ∃ ds : List Definition, ds.length = n ∧
      (l :: ds).IsChain r.ElementOf ∧ ∀ d ∈ l :: ds, r.get? d.name = some d := by
  induction n generalizing l with
  | zero => exact ⟨[], rfl, by simp, by simpa using hl⟩
  | succ n ih =>
    rcases describeWithin_ref hr hl with ⟨-, hsome⟩ | ⟨_, _, _, -, hsome⟩ | ⟨d, depth, hd, -, hstep⟩
    · rw [hsome] at h
      cases h
    · rw [hsome] at h
      cases h
    · rw [hstep, Option.map_eq_none_iff] at h
      obtain ⟨ds, hlength, hchain, hall⟩ := ih hd.element h
      refine ⟨d :: ds, by rw [List.length_cons, hlength], List.isChain_cons_cons.mpr ⟨hd, hchain⟩, ?_⟩
      exact List.forall_mem_cons.mpr ⟨hl, hall⟩

/-- A chain that is longer than the table comes back to a type. -/
theorem exists_circle {ds : List Definition}
    (hchain : (l :: ds).IsChain r.ElementOf) (hall : ∀ d ∈ l :: ds, r.get? d.name = some d)
    (hlong : r.names.length ≤ ds.length) :
    ∃ x, ReflTransGen r.ElementOf l x ∧ TransGen r.ElementOf x x := by
  have hpairs : (l :: ds).Pairwise (TransGen r.ElementOf) :=
    (hchain.imp fun _ _ => TransGen.single).pairwise
  by_contra hnone
  have hreached : ∀ x ∈ l :: ds, ReflTransGen r.ElementOf l x := List.forall_mem_cons.mpr
    ⟨.refl, fun x hx => ((List.pairwise_cons.mp hpairs).1 x hx).to_reflTransGen⟩
  have honce : ((l :: ds).map Definition.name).Nodup := by
    rw [List.Nodup, List.pairwise_map]
    refine hpairs.imp_of_mem fun {x y} hx hy hxy hname => hnone ⟨x, hreached x hx, ?_⟩
    obtain rfl : x = y := Option.some.inj ((hall x hx).symm.trans (hname ▸ hall y hy))
    exact hxy
  have hsubset : (l :: ds).map Definition.name ⊆ r.names := by
    intro name hname
    obtain ⟨x, hx, rfl⟩ := List.mem_map.mp hname
    exact Assoc.has_iff.mp (Option.isSome_iff_exists.mpr ⟨x, hall x hx⟩)
  have hlength := honce.length_le_of_subset hsubset
  rw [List.length_map, List.length_cons] at hlength
  omega

/-- A type can be described exactly if the chain of its elements ends, and otherwise it comes back to
one of them. -/
theorem describe?_ends (hr : r.SelfContained) (hl : r.get? l.name = some l) :
    (∃ text, r.describeDefinition? l = some text) ∧ r.Ends l ∨
      r.describeDefinition? l = none ∧ ¬ r.Ends l ∧
        ∃ x, ReflTransGen r.ElementOf l x ∧ TransGen r.ElementOf x x := by
  cases htext : r.describeDefinition? l with
  | some text => exact .inl ⟨⟨text, rfl⟩, ends_of_describeWithin hr hl htext⟩
  | none =>
    obtain ⟨ds, hlength, hchain, hall⟩ := exists_chain hr _ hl htext
    have hlong : r.names.length ≤ ds.length := by
      rw [hlength, names, Assoc.keys, List.length_map]
      omega
    obtain ⟨x, hx, hcircle⟩ := exists_circle hchain hall hlong
    exact .inr ⟨rfl, fun hend => (hend.of_reached hx).not_circle hcircle, x, hx, hcircle⟩

/-- A chain makes names longer, unless there is an element in it that is not defined at the place of
elements. -/
theorem exists_placeless (hr : r.Inferred) (h : TransGen r.ElementOf x y) :
    x.name.length < y.name.length ∨ ∃ l d, ReflTransGen r.ElementOf x l ∧ r.ElementOf l d ∧
      r.get? (elementName l.name) = none ∧ ReflTransGen r.ElementOf d y := by
  have hstep {l d : Definition} (h : r.ElementOf l d) :
      l.name.length < d.name.length ∨ r.get? (elementName l.name) = none := by
    cases hplace : r.get? (elementName l.name) with
    | none => exact .inr rfl
    | some own =>
      obtain ⟨depth, sample, hshape⟩ := h.shape
      have hsame := hr.elements _ _ h.list depth sample _ hshape own hplace
      have hname : d.name = own.name := (TypeRef.defined.inj (Option.some.inj hsame)).1
      have hmember := congrArg List.length (Name.toList_member l.name "Element")
      rw [hname, hr.closed.named _ _ hplace, elementName, ← String.length_toList,
        ← String.length_toList]
      rw [List.length_append, List.length_cons] at hmember
      exact .inl (by omega)
  induction h with
  | single h =>
    exact (hstep h).imp_right fun hnone => ⟨_, _, .refl, h, hnone, .refl⟩
  | tail hrest h ih =>
    rcases ih with hlt | ⟨l, d, hl, hd, hnone, hback⟩
    · exact (hstep h).imp (hlt.trans) fun hnone => ⟨_, _, hrest.to_reflTransGen, h, hnone, .refl⟩
    · exact .inr ⟨l, d, hl, hd, hnone, hback.tail h⟩

/-- A list type gives the type of its elements by name: nothing is defined at the place of the
elements, the sample is no name of a primitive type, and what it is the name of is the element. -/
structure ByName (r : Registry) (l d : Definition) (text : String) : Prop extends r.ElementOf l d where
  sample : ∃ depth, l.shape = .list depth (.scalar (.str text)) (some d.ref)
  foreign : Primitive.ofName? text = none
  placeless : r.get? (elementName l.name) = none
  named : r.types.classifyName text ((r.types.enclosingStruct l.name).map Definition.surrounding) =
    some d.ref

variable {options : Options} {docs : List Document}

/-- What is not defined at the place of the elements is given by name. -/
theorem exists_byName (h : (ofDocuments options docs).ElementOf l d)
    (hplaceless : (ofDocuments options docs).get? (elementName l.name) = none) :
    ∃ text, (ofDocuments options docs).ByName l d text := by
  obtain ⟨depth, sample, hshape⟩ := h.shape
  have helement := Option.some.inj (element_ofDocuments h.list hshape)
  have hplace : (ofDocuments options docs).types.get? (elementName l.name) = none := hplaceless
  rw [TypeTable.elementType?, hplace] at helement
  simp only at helement
  cases hclass : (ofDocuments options docs).types.classify sample
      (((ofDocuments options docs).types.enclosingStruct l.name).map Definition.surrounding) with
  | none =>
    rw [hclass] at helement
    cases helement
  | some t =>
    rw [hclass] at helement
    obtain rfl : d.ref = t := helement
    unfold TypeTable.classify at hclass
    split at hclass
    · cases hclass
    · cases hclass
    · next text =>
      refine ⟨text, ⟨h, ⟨depth, hshape⟩, ?_, hplaceless, hclass⟩⟩
      cases hforeign : Primitive.ofName? text with
      | none => rfl
      | some p =>
        unfold TypeTable.classifyName at hclass
        rw [hforeign] at hclass
        cases hclass
    · cases hclass

/-- The elements of lists in plain samples are never named by the name of another type. -/
theorem sample_definitionAt {source text : String} {site : String × Json} {e : Definition}
    (h : definitionAt source site = some e) {depth : Nat} {element : Option TypeRef}
    (hshape : e.shape = .list depth (.scalar (.str text)) element) :
    (Primitive.ofName? text).isSome = true := by
  unfold definitionAt at h
  split at h
  · cases h
  · next items _ =>
    cases h
    obtain ⟨-, hsample, -⟩ := Shape.list.inj hshape
    rw [elementSample] at hsample
    cases hinnermost : Json.itemInnermost items with
    | none =>
      rw [hinnermost] at hsample
      cases hsample
    | some v =>
      rw [hinnermost] at hsample
      cases v with
      | scalar s =>
        obtain rfl : (Primitive.ofScalar s).name = text :=
          Scalar.str.inj (Json.scalar.inj hsample)
        cases s <;> rfl
      | list items => cases hsample
      | map entries => cases hsample
  · cases h
    cases hshape

/-- Only lists of documents that are no plain samples give the type of their elements by name. -/
theorem exists_schema {q : Scalar → Prop}
    (hdocs : ∀ doc ∈ docs, doc.plain = true → Json.IsDocument q doc.value) {text : String}
    (h : (ofDocuments options docs).ByName l d text) :
    ∃ doc ∈ docs, doc.plain = false ∧ l.source = doc.origin := by
  obtain ⟨depth, hshape⟩ := h.sample
  obtain ⟨-, doc, hdoc, e, x, hdefined, -, -, hsame, hsource, hresolved⟩ := exists_definition h.list
  refine ⟨doc, hdoc, ?_, hsource⟩
  by_contra hplain
  rw [Bool.not_eq_false] at hplain
  have hlist : ∃ element, e.shape = .list depth (.scalar (.str text)) element := by
    rw [hresolved, shape_resolvedIn] at hshape
    rw [← hsame]
    split at hshape
    · cases hshape
    · next element hx =>
      obtain ⟨rfl, rfl, -⟩ := Shape.list.inj hshape
      exact ⟨element, hx⟩
    · cases hshape
  obtain ⟨element, hlist⟩ := hlist
  rcases hdefined with hdefined | rfl
  · rcases doc.definitions_cases options hplain (hdocs doc hdoc hplain) with ⟨hsites, -⟩ | ⟨hnone, -⟩
    · rw [hsites] at hdefined
      obtain ⟨site, -, hat⟩ := List.mem_filterMap.mp hdefined
      have hknown := sample_definitionAt hat hlist
      rw [h.foreign] at hknown
      cases hknown
    · rw [hnone] at hdefined
      cases hdefined
  · cases hlist

/-- From a type one gets into a circle, through a list that gives the type of its elements by name. -/
def Circles (r : Registry) (l : Definition) : Prop :=
  ∃ x y text, ReflTransGen r.ElementOf l x ∧ r.ByName x y text ∧ ReflTransGen r.ElementOf y x

theorem Ends.not_circles (h : r.Ends l) : ¬ r.Circles l := by
  rintro ⟨x, y, text, hx, hxy, hyx⟩
  exact (h.of_reached hx).not_circle (.head' hxy.toElementOf hyx)

theorem circles_of_circle (hx : ReflTransGen (ofDocuments options docs).ElementOf l x)
    (hcircle : TransGen (ofDocuments options docs).ElementOf x x) :
    (ofDocuments options docs).Circles l := by
  rcases exists_placeless (inferred_ofDocuments options docs) hcircle with
    hlt | ⟨a, b, ha, hab, hplaceless, hb⟩
  · exact absurd hlt (Nat.lt_irrefl _)
  · obtain ⟨text, hnamed⟩ := exists_byName hab hplaceless
    exact ⟨a, b, text, hx.trans ha, hnamed, hb.trans ha⟩

/-- What is no list type has a model; a list type has one if it can be described. -/
theorem model?_ends (h : (∃ text, r.describeDefinition? l = some text) ↔ r.Ends l) :
    (∃ m, r.model? l = some m) ↔ r.Ends l := by
  cases hshape : l.shape with
  | struct fields aliases =>
    have hother : l.kind ≠ .list := by simp [Definition.kind, hshape, Shape.kind]
    exact iff_of_true ⟨_, by rw [model?, hshape]⟩ (.other hother)
  | enum values origin =>
    have hother : l.kind ≠ .list := by simp [Definition.kind, hshape, Shape.kind]
    exact iff_of_true ⟨_, by rw [model?, hshape]⟩ (.other hother)
  | list depth sample element =>
    rw [← h, model?, hshape]
    simp

/-- In the registry of any documents a type can be described, and has a model, exactly if the chain of
its elements ends. It ends unless it gets into a circle through a list that gives the type of its
elements by name, and such a list is never of a plain sample. -/
theorem describe_ofDocuments {name : String} (hget : (ofDocuments options docs).get? name = some l) :
    ((∃ text, (ofDocuments options docs).describeDefinition? l = some text) ↔
      (ofDocuments options docs).Ends l) ∧
    ((∃ m, (ofDocuments options docs).model? l = some m) ↔ (ofDocuments options docs).Ends l) ∧
    ((ofDocuments options docs).Ends l ↔ ¬ (ofDocuments options docs).Circles l) ∧
    ((∀ doc ∈ docs, doc.plain = true → Json.IsDocument (fun _ => True) doc.value) →
      ∀ x y text, (ofDocuments options docs).ByName x y text →
        ∃ doc ∈ docs, doc.plain = false ∧ x.source = doc.origin) := by
  have hclosed := (inferred_ofDocuments options docs).closed
  have hl : (ofDocuments options docs).get? l.name = some l := by rwa [hclosed.named _ _ hget]
  have hdescribed : (∃ text, (ofDocuments options docs).describeDefinition? l = some text) ↔
      (ofDocuments options docs).Ends l := by
    rcases describe?_ends hclosed hl with ⟨htext, hend⟩ | ⟨hnone, hend, -⟩
    · exact iff_of_true htext hend
    · exact iff_of_false (by simp [hnone]) hend
  have hends : ¬ (ofDocuments options docs).Circles l → (ofDocuments options docs).Ends l := by
    intro hcircles
    rcases describe?_ends hclosed hl with ⟨-, hend⟩ | ⟨-, -, x, hx, hcircle⟩
    · exact hend
    · exact absurd (circles_of_circle hx hcircle) hcircles
  exact ⟨hdescribed, model?_ends hdescribed, ⟨Ends.not_circles, hends⟩,
    fun hdocs x y text => exists_schema hdocs⟩

/-- A list whose elements are called like the list, and a list of numbers. -/
def selfNamedLists : List Document :=
  [{ name := "N", source := "N.jschema", value := .list [.str "N"] },
    { name := "M", source := "M.json", value := .list [.list [.scalar (.int 1)]], plain := true }]

/-- A list that is its own element gets into a circle and cannot be described. The other list can. -/
theorem describe_selfNamedLists :
    (∃ l, (ofDocuments {} selfNamedLists).get? "N" = some l ∧
      (ofDocuments {} selfNamedLists).describeDefinition? l = none ∧
      (ofDocuments {} selfNamedLists).Circles l) ∧
    ∃ l, (ofDocuments {} selfNamedLists).get? "M" = some l ∧
      (ofDocuments {} selfNamedLists).describeDefinition? l = some "List[List[int]]" ∧
      (ofDocuments {} selfNamedLists).Ends l := by
  have hN : ((ofDocuments {} selfNamedLists).get? "N").map
      (ofDocuments {} selfNamedLists).describeDefinition? = some none := by decide +kernel
  have hM : ((ofDocuments {} selfNamedLists).get? "M").map
      (ofDocuments {} selfNamedLists).describeDefinition? = some (some "List[List[int]]") := by
    decide +kernel
  obtain ⟨l, hl, hnone⟩ := Option.map_eq_some_iff.mp hN
  obtain ⟨l', hl', hsome⟩ := Option.map_eq_some_iff.mp hM
  obtain ⟨hdescribed, -, hends, -⟩ := describe_ofDocuments hl
  refine ⟨⟨l, hl, hnone, ?_⟩, l', hl', hsome, (describe_ofDocuments hl').1.mp ⟨_, hsome⟩⟩
  by_contra hcircles
  obtain ⟨text, htext⟩ := hdescribed.mpr (hends.mpr hcircles)
  rw [hnone] at htext
  cases htext

end Registry
end Exemplar
