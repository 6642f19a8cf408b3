import Exemplar.Proofs.InheritedAliases
import Exemplar.Proofs.Origins
import Exemplar.Proofs.Sites

/-! Names that are looked up from a place. A name gives the type that is registered under it, or else
the one relative to the nearest namespace around the place. The elements of a list are looked up from
the struct whose field it is, so both land on the same type, and where there is none, one diagnostic
says so. -/
namespace Exemplar
open Inference

namespace Name

/-- What stands before a dot of a reversed name. -/
theorem mem_enclosingReversed {xs cs : List Char} :
    cs ∈ enclosingReversed xs ↔ cs ≠ [] ∧ ∃ segment, xs = segment ++ '.' :: cs := by
  induction xs with
  | nil => simp [enclosingReversed]
  | cons x xs ih =>
    by_cases hx : x = '.'
    · subst hx
      cases xs with
      | nil => simp [enclosingReversed, List.cons_eq_append_iff]
      | cons y ys =>
        simp only [enclosingReversed, List.isEmpty_cons, Bool.false_eq_true, if_false,
          List.mem_cons] at ih ⊢
        rw [ih]
        constructor
        · rintro (rfl | ⟨hne, segment, hsegment⟩)
          · exact ⟨by simp, [], rfl⟩
          · exact ⟨hne, '.' :: segment, by rw [hsegment]; rfl⟩
        · rintro ⟨hne, segment, hsegment⟩
          rcases List.cons_eq_append_iff.mp hsegment with ⟨-, hcs⟩ | ⟨segment', -, hrest⟩
          · exact .inl (List.cons.inj hcs).2
          · exact .inr ⟨hne, segment', hrest⟩
    · rw [enclosingReversed, ih]
      · refine and_congr_right fun _ => ⟨?_, ?_⟩
        · rintro ⟨segment, rfl⟩
          exact ⟨x :: segment, rfl⟩
        · rintro ⟨segment, hsegment⟩
          rcases List.cons_eq_append_iff.mp hsegment with ⟨-, hcs⟩ | ⟨segment', -, hrest⟩
          · exact absurd (List.cons.inj hcs).1.symm hx
          · exact ⟨segment', hrest⟩
      · exact hx

/-- The namespaces around a name become shorter outwards. -/
theorem pairwise_enclosingReversed (xs : List Char) :
    (enclosingReversed xs).Pairwise fun cs ds => ds.length < cs.length := by
  induction xs with
  | nil => exact .nil
  | cons x xs ih =>
    rw [enclosingReversed.eq_def]
    split
    · exact .nil
    · next rest heq =>
      obtain ⟨-, rfl⟩ := List.cons.inj heq
      split
      · exact .nil
      · refine .cons (fun cs hcs => ?_) ih
        obtain ⟨-, segment, hsegment⟩ := mem_enclosingReversed.mp hcs
        rw [hsegment]
        simp
        omega
    · next heq =>
      obtain ⟨-, rfl⟩ := List.cons.inj heq
      exact ih

theorem mem_enclosing {space name : String} :
    space ∈ enclosing name ↔ space ≠ "" ∧ ∃ rest, name = member space rest := by
  have hmember (cs segment : List Char) : name.toList.reverse = segment ++ '.' :: cs ↔
      name = member (String.ofList cs.reverse) (String.ofList segment.reverse) := by
    rw [← String.toList_inj, toList_member, String.toList_ofList, String.toList_ofList,
      ← List.reverse_inj, List.reverse_append]
    simp
  simp only [enclosing, List.mem_map, mem_enclosingReversed]
  constructor
  · rintro ⟨cs, ⟨hne, segment, hsegment⟩, rfl⟩
    exact ⟨by simpa using hne, _, (hmember cs segment).mp hsegment⟩
  · rintro ⟨hne, rest, hrest⟩
    refine ⟨space.toList.reverse, ⟨by simpa using hne, rest.toList.reverse, ?_⟩, by simp⟩
    simpa [hmember] using hrest

/-- The names that a lookup from a name goes through: all dotted prefixes that are not empty. -/
theorem mem_selfAndEnclosing {space name : String} :
    space ∈ selfAndEnclosing name ↔ space ≠ "" ∧ Inside space name := by
  unfold selfAndEnclosing Inside
  split
  · next hempty =>
    subst hempty
    simp only [List.not_mem_nil, false_iff, not_and, not_or]
    refine fun hne => ⟨hne.symm, fun ⟨rest, hrest⟩ => ?_⟩
    simpa [toList_member] using congrArg String.toList hrest
  · next hname =>
    rw [List.mem_cons, mem_enclosing]
    constructor
    · rintro (rfl | ⟨hne, hrest⟩)
      · exact ⟨hname, .inl rfl⟩
      · exact ⟨hne, .inr hrest⟩
    · rintro ⟨hne, rfl | hrest⟩
      · exact .inl rfl
      · exact .inr ⟨hne, hrest⟩

/-- A lookup goes from longer names to shorter ones. -/
theorem pairwise_selfAndEnclosing (name : String) :
    (selfAndEnclosing name).Pairwise fun a b => b.length < a.length := by
  unfold selfAndEnclosing
  split
  · exact .nil
  · refine .cons (fun space hspace => ?_) ?_
    · obtain ⟨-, rest, rfl⟩ := mem_enclosing.mp hspace
      rw [← String.length_toList, ← String.length_toList, toList_member, List.length_append,
        List.length_cons]
      omega
    · exact List.pairwise_map.mpr <| (pairwise_enclosingReversed _).imp fun h => by simpa using h

end Name

namespace Registry

variable {r : Registry} {place s : String} {found : Option Definition}

/-- The type of a name that is looked up from a place: the one with that full name, or else the one
relative to the longest dotted prefix of the place that has one. -/
inductive Nearest (r : Registry) (place s : String) : Option Definition → Prop
  | named {d : Definition} (found : r.get? s = some d) : Nearest r place s (some d)
  | around {d : Definition} {space : String} (unnamed : r.get? s = none) (nonempty : space ≠ "")
      (inside : Name.Inside space place) (found : r.get? (Name.member space s) = some d)
      (longest : ∀ other, other ≠ "" → Name.Inside other place →
        (r.get? (Name.member other s)).isSome → other.length ≤ space.length) :
      Nearest r place s (some d)
  | nowhere (unnamed : r.get? s = none)
      (missing : ∀ space, space ≠ "" → Name.Inside space place →
        r.get? (Name.member space s) = none) : Nearest r place s none

/-- Going outwards through the namespaces finds the nearest type. -/
theorem nearest_iff (aliases : Aliases) :
    r.Nearest place s found ↔ r.types.lookup s (some ⟨place, aliases⟩) = found := by
  have hlookup : r.types.lookup s (some ⟨place, aliases⟩) = (r.get? s).or
      ((Name.selfAndEnclosing place).findSome? fun space => r.get? (Name.member space s)) := by
    rw [TypeTable.lookup, get?]
    cases r.types.get? s <;> rfl
  rw [hlookup]
  constructor
  · rintro (⟨hfound⟩ | ⟨hnone, hne, hin, hfound, hlongest⟩ | ⟨hnone, hmissing⟩)
    · rw [hfound, Option.some_or]
    · rw [hnone, Option.none_or]
      obtain ⟨before, after, hsplit⟩ :=
        List.append_of_mem (Name.mem_selfAndEnclosing.mpr ⟨hne, hin⟩)
      have hpairwise := Name.pairwise_selfAndEnclosing place
      rw [hsplit] at hpairwise
      refine List.findSome?_eq_some_iff.mpr ⟨before, _, after, hsplit, hfound, fun other hother => ?_⟩
      -- what comes before is longer, so it has no type
      have hlonger := (List.pairwise_append.mp hpairwise).2.2 other hother _ List.mem_cons_self
      obtain ⟨hne, hin⟩ := Name.mem_selfAndEnclosing.mp
        (hsplit ▸ List.mem_append_left _ hother)
      by_contra hsome
      have := hlongest other hne hin (Option.isSome_iff_ne_none.mpr hsome)
      omega
    · rw [hnone, Option.none_or]
      refine List.findSome?_eq_none_iff.mpr fun space hspace => ?_
      obtain ⟨hne, hin⟩ := Name.mem_selfAndEnclosing.mp hspace
      exact hmissing space hne hin
  · rintro rfl
    cases hnamed : r.get? s with
    | some d => exact .named hnamed
    | none =>
      cases hfound : (Name.selfAndEnclosing place).findSome? fun space =>
          r.get? (Name.member space s) with
      | none =>
        refine .nowhere hnamed fun space hne hin => ?_
        exact List.findSome?_eq_none_iff.mp hfound space (Name.mem_selfAndEnclosing.mpr ⟨hne, hin⟩)
      | some d =>
        obtain ⟨before, space, after, hsplit, hspace, hbefore⟩ :=
          List.findSome?_eq_some_iff.mp hfound
        have hmem : space ∈ Name.selfAndEnclosing place := hsplit ▸ by simp
        obtain ⟨hne, hin⟩ := Name.mem_selfAndEnclosing.mp hmem
        refine .around hnamed hne hin hspace fun other hne' hin' hsome => ?_
        have hpairwise := Name.pairwise_selfAndEnclosing place
        have hother := Name.mem_selfAndEnclosing.mpr ⟨hne', hin'⟩
        rw [hsplit] at hpairwise hother
        rcases List.mem_append.mp hother with hother | hother
        · rw [hbefore other hother] at hsome
          cases hsome
        · rcases List.mem_cons.mp hother with rfl | hother
          · exact le_rfl
          · exact ((List.pairwise_cons.mp (List.pairwise_append.mp hpairwise).2.1).1 _ hother).le

end Registry

/-- The diagnostics of a type of documents are these, behind what was said of it before names were
resolved: that it replaces others, and what reading the documents said. -/
def Definition.Concludes (docs : List Document) (d : Definition) (unresolved : List Diagnostic) : Prop :=
  ∃ given, (∀ x ∈ given, x.kind = .nameCollision ∨ ∃ doc ∈ docs, x ∈ doc.errors) ∧
    d.errors = given ++ unresolved

namespace Catalogue

variable {options : Options} {c : Catalogue} {said : Diagnostic → Prop}

/-- Nothing is said against the types, but that they replace others and what is given. -/
def SaysOnly (said : Diagnostic → Prop) (c : Catalogue) : Prop :=
  ∀ name d, c.get? name = some d → ∀ x ∈ d.errors, x.kind = .nameCollision ∨ said x

theorem SaysOnly.register (h : SaysOnly said c) {d : Definition} (hd : d.errors = []) :
    SaysOnly said (c.register d) := by
  intro name x hx e he
  rw [get?_register] at hx
  split at hx
  · cases hx
    unfold placed at he
    cases hold : c.get? d.name with
    | none => simp [hold, hd] at he
    | some old =>
      have hcollision : e = collision d old := by simpa [hold, Definition.addErrors, hd] using he
      exact .inl (hcollision ▸ rfl)
  · exact h name x hx e he

theorem SaysOnly.registerAll (h : SaysOnly said c) {ds : List Definition}
    (hds : ∀ d ∈ ds, d.errors = []) : SaysOnly said (ds.foldl Catalogue.register c) := by
  induction ds generalizing c with
  | nil => exact h
  | cons d ds ih =>
    obtain ⟨hd, hds⟩ := List.forall_mem_cons.mp hds
    exact ih (h.register hd) hds

theorem SaysOnly.addErrors (h : SaysOnly said c) (name : String) {errors : List Diagnostic}
    (hsaid : ∀ x ∈ errors, said x) : SaysOnly said (c.addErrors name errors) := by
  intro name' x hx e he
  rw [get?_addErrors] at hx
  split at hx
  · obtain ⟨y, hy, rfl⟩ := Option.map_eq_some_iff.mp hx
    rcases List.mem_append.mp he with he | he
    · exact h name' y hy e he
    · exact .inr (hsaid e he)
  · exact h name' x hx e he

theorem SaysOnly.addDocument (h : SaysOnly said c) (options : Options) {doc : Document}
    (hsaid : ∀ x ∈ doc.errors, said x) : SaysOnly said (c.addDocument options doc).2 := by
  obtain ⟨errors, herrors, hadded⟩ := c.exists_addDocument options doc
  rw [hadded]
  exact (h.registerAll fun e he => (madeOf_admittedOf options c doc e he).errors).addErrors _
    fun x hx => hsaid x (herrors x hx)

theorem SaysOnly.addDocuments (h : SaysOnly said c) (options : Options) {docs : List Document}
    (hsaid : ∀ doc ∈ docs, ∀ x ∈ doc.errors, said x) :
    SaysOnly said (c.addDocuments options docs) := by
  induction docs generalizing c with
  | nil => exact h
  | cons doc docs ih =>
    obtain ⟨hdoc, hdocs⟩ := List.forall_mem_cons.mp hsaid
    exact ih (h.addDocument options hdoc) hdocs

theorem saysOnly_addDocuments (options : Options) (docs : List Document) :
    SaysOnly (fun x => ∃ doc ∈ docs, x ∈ doc.errors) (empty.addDocuments options docs) :=
  SaysOnly.addDocuments (fun _ _ h => by cases h) options fun doc hdoc _ hx => ⟨doc, hdoc, hx⟩

end Catalogue

namespace Registry

variable {r : Registry} {options : Options} {docs : List Document} {name s : String}
  {d : Definition} {f : Field}

/-- What a struct is told about a field: one diagnostic, if the sample of the field refers to nothing. -/
def reports (r : Registry) (struct : Definition) (f : Field) : List Diagnostic :=
  if (r.types.fieldType? struct f).isNone then [TypeTable.unknownField struct f] else []

def unresolved (r : Registry) (d : Definition) : List Diagnostic :=
  match d.shape with
  | .struct fields _ => fields.flatMap (r.reports d)
  | .list _ sample _ =>
    if (r.types.elementType? d.name sample).isNone then [TypeTable.unknownElement d.name sample]
    else []
  | .enum _ _ => []

theorem map_filter_eq_flatMap {α β : Type} (p : α → Bool) (g : α → β) (xs : List α) :
    (xs.filter p).map g = xs.flatMap fun x => if p x then [g x] else [] := by
  induction xs with
  | nil => rfl
  | cons x xs ih =>
    rw [List.filter_cons, List.flatMap_cons, ← ih]
    split <;> rfl

theorem errors_resolvedIn (types : TypeTable) (d : Definition) :
    (resolvedIn types d).errors = d.errors ++ match d.shape with
      | .struct fields _ =>
        (fields.filter fun f => (types.fieldType? d f).isNone).map (TypeTable.unknownField d)
      | .list _ sample _ =>
        if (types.elementType? d.name sample).isNone then [TypeTable.unknownElement d.name sample]
        else []
      | .enum _ _ => [] := by
  obtain ⟨name, source, shape, edition, errors, inner⟩ := d
  cases shape with
  | struct fields aliases => rfl
  | enum values origin => exact (List.append_nil errors).symm
  | list depth sample element =>
    simp only [resolvedIn, TypeTable.resolve, TypeTable.linkInner]
    cases types.elementType? name sample <;> simp

theorem errors_finish {c : Catalogue} (h : c.finished = false) (d : Definition) :
    (resolvedIn c.types d).errors =
      d.errors ++ (ofCatalogue c.finish).unresolved (resolvedIn c.types d) := by
  have hname := (resolvedIn_name_source_ref c.types d).1
  have hreports (f : Field) : (ofCatalogue c.finish).reports (resolvedIn c.types d)
      (TypeTable.resolveField c.types (TypeTable.linkInner c.types d) f) =
      if (TypeTable.fieldType? c.types d f).isNone then [TypeTable.unknownField d f] else [] := by
    rw [reports, fieldType?_finish h, TypeTable.unknownField, hname]
    rfl
  rw [errors_resolvedIn, unresolved, shape_resolvedIn]
  cases d.shape with
  | struct fields aliases => simp only [List.flatMap_map, hreports, map_filter_eq_flatMap]
  | enum values origin => rfl
  | list depth sample element => simp only [hname, elementType?_finish h]

/-- What is said of the references of a type is said in the finished registry. -/
theorem concludes_ofDocuments (h : (ofDocuments options docs).get? name = some d) :
    d.Concludes docs ((ofDocuments options docs).unresolved d) := by
  have hopen := Catalogue.finished_addDocuments options .empty docs
  rw [ofDocuments, get?_finish hopen] at h
  obtain ⟨x, hx, rfl⟩ := Option.map_eq_some_iff.mp h
  exact ⟨x.errors, Catalogue.saysOnly_addDocuments options docs name x hx, errors_finish hopen x⟩

/-- Around the place of a field lies its struct first, if the struct has a name. -/
theorem enclosingStruct_member (hd : r.get? name = some d) (hkind : d.kind = .struct)
    {property : String} (hword : Identifier.IsWord property) :
    r.types.enclosingStruct (Name.member name property) = if name = "" then none else some d := by
  have hd : Assoc.get? r.types name = some d := hd
  rw [TypeTable.enclosingStruct, Name.enclosing_member _ hword]
  split
  · rfl
  · rw [List.findSome?_cons, hd, Option.filter_some, hkind]
    rfl

/-- A text that is neither primitive nor an alias names what is looked up. -/
theorem classify_text (types : TypeTable) (hprimitive : Primitive.ofName? s = none)
    (halias : d.aliases.has (.str s) = false) :
    types.classify (.str s) (some d.surrounding) =
      (types.lookup s (some d.surrounding)).map Definition.ref := by
  have halias : d.surrounding.aliases.has (.str s) = false := halias
  simp only [TypeTable.classify, TypeTable.classifyName, hprimitive, halias, Bool.false_eq_true,
    if_false]

/-- The elements of a list in a field are looked up as the field itself would be. -/
theorem elementType?_member (hd : r.get? name = some d) (hname : d.name = name)
    (hkind : d.kind = .struct) (hprimitive : Primitive.ofName? s = none)
    (halias : d.aliases.has (.str s) = false) {property : String}
    (hword : Identifier.IsWord property)
    (hnone : r.get? (elementName (Name.member name property)) = none) :
    r.types.elementType? (Name.member name property) (.str s) =
      (r.types.lookup s (some d.surrounding)).map Definition.ref := by
  have hnone : Assoc.get? r.types (elementName (Name.member name property)) = none := hnone
  rw [TypeTable.elementType?, hnone, enclosingStruct_member hd hkind hword]
  by_cases hempty : name = ""
  · -- a struct without a name is not around its places, but there is nothing to look for around it
    have hlookup : r.types.lookup s none = r.types.lookup s (some d.surrounding) := by
      simp [TypeTable.lookup, Definition.surrounding, hname, hempty, Name.selfAndEnclosing]
    simp only [if_pos hempty, Option.map_none, TypeTable.classify, TypeTable.classifyName, hprimitive,
      hlookup]
  · rw [if_neg hempty]
    exact classify_text r.types hprimitive halias

end Registry

/-- A list type is over the innermost first element of a value. -/
def Definition.Wraps (w : Definition) (v : Json) : Prop :=
  ∃ items depth element, v = .list items ∧
    w.shape = .list depth ((Json.itemInnermost items).getD (.list [])) element

theorem Definition.wraps_of_innermost {w : Definition} {v x : Json} {depth : Nat}
    {element : Option TypeRef} (hlist : v.isList = true) (hinner : Json.innermost v = some x)
    (hshape : w.shape = .list depth x element) : w.Wraps v := by
  cases v with
  | list items =>
    rw [Json.innermost] at hinner
    exact ⟨items, depth, element, rfl, by rw [hinner]; exact hshape⟩
  | scalar _ => cases hlist
  | map _ => cases hlist

namespace Inference

mutual
/-- The items of a list define a list type over the innermost first element. -/
theorem exists_ofItems (c : Context) (scope : AliasScope) (name : String) (depth : Nat) :
    (items : List Json) → ∃ e ∈ ofItems c scope name depth items, e.name = name ∧
      ∃ levels, e.shape = .list levels ((Json.itemInnermost items).getD (.list [])) none
  | [] => ⟨_, List.mem_singleton_self _, rfl, _, rfl⟩
  | first :: _ => exists_ofElement (c.inside (.int 0)) scope name (depth + 1) first
theorem exists_ofElement (c : Context) (scope : AliasScope) (name : String) (depth : Nat) :
    (v : Json) → ∃ e ∈ ofElement c scope name depth v, e.name = name ∧
      ∃ levels, e.shape = .list levels ((Json.innermost v).getD (.list [])) none
  | .scalar _ => ⟨_, List.mem_singleton_self _, rfl, _, rfl⟩
  | .list items => exists_ofItems c scope name depth items
  | .map _ => ⟨_, List.mem_append_right _ (List.mem_singleton_self _), rfl, _, rfl⟩
end

end Inference

namespace Registry

variable {options : Options} {docs : List Document} {name s : String} {d : Definition}

/-- A text in a struct that is neither primitive nor an alias there stands for the nearest type of that
name. It is so for a field that has no type of its own, and for the elements of a list in a field, as far
as they have none. Where there is no such type they are of any type, and one diagnostic says so: on the
struct for the field, on the list type for the elements. -/
theorem resolves_nearest (hd : (ofDocuments options docs).get? name = some d)
    (hkind : d.kind = .struct) (hprimitive : Primitive.ofName? s = none)
    (halias : d.aliases.has (.str s) = false) :
    let r := ofDocuments options docs
    ∃ found : Option Definition, (∀ x, r.Nearest name s x ↔ x = found) ∧
      d.Concludes docs (d.fields.flatMap (r.reports d)) ∧
      (∀ f ∈ d.fields, f.sample = .str s → r.get? (Name.member name f.property) = none →
        f.type = some (found.elim (.primitive .any) Definition.ref) ∧
        r.reports d f = if found.isNone then [TypeTable.unknownField d f] else []) ∧
      ∀ f ∈ d.fields, Json.innermost f.sample = some (.str s) → ∀ w,
        r.get? (Name.member name f.property) = some w → w.Wraps f.sample →
        r.get? (elementName w.name) = none →
        f.type = some w.ref ∧ r.reports d f = [] ∧
        (∃ depth, w.shape =
          .list depth (.str s) (some (found.elim (.primitive .any) Definition.ref))) ∧
        w.Concludes docs (if found.isNone then [TypeTable.unknownElement w.name (.str s)] else []) := by
  intro r
  have hinferred := inferred_ofDocuments options docs
  have hname := hinferred.closed.named _ _ hd
  have hgetD (found : Option Definition) : (found.map Definition.ref).getD (.primitive .any) =
      found.elim (.primitive .any) Definition.ref := by cases found <;> rfl
  refine ⟨r.types.lookup s (some d.surrounding), fun x => ?nearest, ?errors, ?field, ?element⟩
  case nearest =>
    rw [nearest_iff d.aliases, Definition.surrounding, hname, eq_comm]
  case errors =>
    have hconcludes := concludes_ofDocuments hd
    rw [Definition.kind] at hkind
    rw [unresolved] at hconcludes
    rw [Definition.fields]
    cases hshape : d.shape with
    | struct fields aliases => rwa [hshape] at hconcludes
    | enum values origin => rw [hshape] at hkind; cases hkind
    | list depth sample element => rw [hshape] at hkind; cases hkind
  case field =>
    intro f hf hsample hnone
    have hplace : r.types.get? (Name.member d.name f.property) = none := hname.symm ▸ hnone
    have htype : r.types.fieldType? d f = (r.types.lookup s (some d.surrounding)).map Definition.ref := by
      rw [TypeTable.fieldType?, hplace, hsample]
      exact classify_text r.types hprimitive halias
    rw [field_ofDocuments hd hf, reports, htype, hgetD, Option.isNone_map]
    exact ⟨rfl, rfl⟩
  case element =>
    intro f hf hinner w hw hwraps hnone
    obtain ⟨items, depth, element, hitems, hshape⟩ := hwraps
    rw [hitems, Json.innermost] at hinner
    rw [hinner, Option.getD_some] at hshape
    have hwname := hinferred.closed.named _ _ hw
    rw [hwname] at hnone ⊢
    have htype := elementType?_member hd hname hkind hprimitive halias
      (hinferred.words _ _ hd f hf) hnone
    have hown : r.types.fieldType? d f = some w.ref := by
      have hplace : r.types.get? (Name.member d.name f.property) = some w := hname.symm ▸ hw
      rw [TypeTable.fieldType?, hplace]
    refine ⟨hinferred.fields _ _ hd f hf w hw, by rw [reports, hown]; rfl, ⟨depth, ?_⟩, ?_⟩
    · rw [hshape, element_ofDocuments hw hshape, htype, hgetD]
    · have hconcludes := concludes_ofDocuments hw
      rw [unresolved, hshape] at hconcludes
      simpa only [hwname, htype, Option.isNone_map] using hconcludes

/-- Types of one name at two levels around a struct, and one beside them. -/
def shadowingDocument : Document where
  name := "N"
  source := "N.jschema"
  value := .map [
    (.str "t", .map []),
    (.str "deep", .map [
      (.str "t", .map []),
      (.str "s", .map [(.str "one", .str "t"), (.str "many", .list [.list [.str "t"]])])]),
    (.str "other", .map [(.str "t", .map [])])]

theorem resolves_nearest_shadowing :
    let r := ofDocuments {} [shadowingDocument]
    ∃ d found, r.get? "N.deep.s" = some d ∧ d.kind = .struct ∧ Primitive.ofName? "t" = none ∧
      d.aliases.has (.str "t") = false ∧ (∀ x, r.Nearest "N.deep.s" "t" x ↔ x = some found) ∧
      found.name = "N.deep.t" ∧ (∃ f ∈ d.fields, f.sample = .str "t" ∧ f.type = some found.ref) ∧
      ∃ f ∈ d.fields, ∃ w depth, r.get? (Name.member "N.deep.s" f.property) = some w ∧
        w.Wraps f.sample ∧ w.shape = .list depth (.str "t") (some found.ref) := by
  intro r
  have hchosen : ∃ d ∈ r.get? "N.deep.s", d.kind = .struct ∧ d.aliases.has (.str "t") = false ∧
      (∃ found ∈ r.types.lookup "t" (some d.surrounding), found.name = "N.deep.t") ∧
      (∃ f ∈ d.fields, f.sample = .str "t" ∧ (r.get? (Name.member "N.deep.s" f.property)).isNone) ∧
      ∃ f ∈ d.fields, f.sample.isList ∧ (∃ v ∈ Json.innermost f.sample, v = .str "t") ∧
        ∃ w ∈ r.get? (Name.member "N.deep.s" f.property), (r.get? (elementName w.name)).isNone ∧
          (match w.shape with
            | .struct _ _ => false
            | .list _ sample _ => decide (sample = .str "t")
            | .enum _ _ => false) = true := by
    decide +kernel
  obtain ⟨d, hd, hkind, halias, ⟨found, hfound, hname⟩, ⟨f, hf, hsample, hnone⟩, g, hg, hlist,
    ⟨_, hinner, rfl⟩, w, hw, hnone', hshape⟩ := hchosen
  have hprimitive : Primitive.ofName? "t" = none := by decide
  obtain ⟨found', hnearest, -, hfield, helement⟩ := resolves_nearest hd hkind hprimitive halias
  have hsame : some found = found' := by
    have hdname := (exists_definition hd).1
    rw [Definition.surrounding, hdname] at hfound
    exact (hnearest _).mp ((nearest_iff _).mpr hfound)
  subst hsame
  have hwraps : w.Wraps g.sample := by
    cases hover : w.shape with
    | list depth sample element =>
      rw [hover] at hshape
      obtain rfl := of_decide_eq_true hshape
      exact Definition.wraps_of_innermost hlist hinner hover
    | struct fields aliases => simp [hover] at hshape
    | enum values origin => simp [hover] at hshape
  obtain ⟨-, -, ⟨depth, hshape⟩, -⟩ := helement g hg hinner w hw hwraps
    (Option.isNone_iff_eq_none.mp hnone')
  exact ⟨d, found, hd, hkind, hprimitive, halias, hnearest, hname,
    ⟨f, hf, hsample, (hfield f hf hsample (Option.isNone_iff_eq_none.mp hnone)).1⟩,
    g, hg, w, depth, hw, hwraps, hshape⟩

def namelessFieldDocument : Document where
  name := ""
  source := ".jschema"
  value := .map [(.str "s", .map []), (.str "x", .str "s")]

/-- The empty prefix is no namespace: beside a type without a name, a field does not refer to what is
registered relative to that name. -/
theorem not_resolves_nameless :
    let r := ofDocuments {} [namelessFieldDocument]
    Name.Inside "" "" ∧ (r.get? (Name.member "" "s")).isSome ∧ Primitive.ofName? "s" = none ∧
      ∃ d ∈ r.get? "", d.kind = .struct ∧ d.aliases.has (.str "s") = false ∧ ∃ f ∈ d.fields,
        f.sample = .str "s" ∧ (r.get? (Name.member "" f.property)).isNone ∧
        f.type = some (.primitive .any) ∧ r.reports d f ≠ [] := by
  decide +kernel

end Registry
end Exemplar
