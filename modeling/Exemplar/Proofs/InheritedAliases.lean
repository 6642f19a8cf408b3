import Exemplar.Proofs.FinishedTypes
import Exemplar.Proofs.NestedStructs
import Exemplar.Proofs.RegistrationHistory

/-! Aliases that a struct inherits. A field whose sample is an alias is resolved in all the aliases that
are visible in its struct, so the alias keeps its meaning in structs further in as long as no name on
its way to a primitive type is declared again there. -/
namespace Exemplar
open Json Inference

namespace TypeTable

/-- The names that come up when an alias is followed, up to one that is no alias or came up before. -/
def trail (aliases : Aliases) (seen : List String) : (steps : Nat) → (name : String) → List String
  | 0, name => [name]
  | steps + 1, name =>
    if seen.contains name then [name]
    else match aliases.get? (.str name) with
      | some target => name :: trail aliases (name :: seen) steps target
      | none => [name]

/-- All names that come up when an alias of a struct is followed, the one at the end included. -/
def passes (s : Surrounding) (a : String) : List String :=
  trail s.aliases [] (s.aliases.length + 1) a

variable {t t' : Aliases} {seen : List String} {steps : Nat} {name : String}

theorem getLast?_trail (t : Aliases) (seen : List String) (steps : Nat) (name : String) :
    (trail t seen steps name).getLast? = some (chase t seen steps name) := by
  induction steps generalizing seen name with
  | zero => rfl
  | succ steps ih =>
    rw [trail, chase]
    split
    · rfl
    · cases t.get? (.str name) with
      | none => rfl
      | some target => rw [List.getLast?_cons, ih, Option.getD_some]

theorem trail_congr (h : ∀ x ∈ trail t seen steps name, t'.get? (.str x) = t.get? (.str x)) :
    trail t' seen steps name = trail t seen steps name := by
  induction steps generalizing seen name with
  | zero => rfl
  | succ steps ih =>
    rw [trail] at h
    rw [trail, trail]
    split at h
    · next hseen => rw [if_pos hseen, if_pos hseen]
    · next hnew =>
      rw [if_neg hnew, if_neg hnew]
      cases hfound : t.get? (.str name) with
      | none =>
        rw [hfound] at h
        rw [h name List.mem_cons_self, hfound]
      | some target =>
        rw [hfound] at h
        rw [h name List.mem_cons_self, hfound]
        exact congrArg (name :: ·) (ih fun x hx => h x (List.mem_cons_of_mem name hx))

/-- A trail ends before the aliases of its table are used up. -/
theorem trail_enough (hseen : seen.Nodup) (haliases : ∀ x ∈ seen, t.has (.str x) = true)
    (hsteps : t.length < steps + seen.length) (more : Nat) :
    trail t seen (steps + more) name = trail t seen steps name := by
  -- Each step comes upon an alias that was not seen before, and there are no more than the table has.
  induction steps generalizing seen name with
  | zero =>
    have hle := length_le_of_aliases hseen haliases
    omega
  | succ steps ih =>
    rw [Nat.add_right_comm, trail, trail]
    split
    · rfl
    · next hnew =>
      cases hfound : t.get? (.str name) with
      | none => rfl
      | some target =>
        refine congrArg (name :: ·) (ih (List.nodup_cons.mpr ⟨?_, hseen⟩) ?_ ?_)
        · rwa [List.contains_iff_mem] at hnew
        · refine List.forall_mem_cons.mpr ⟨?_, haliases⟩
          rw [Assoc.has, hfound]
          rfl
        · rw [List.length_cons]
          omega

/-- An alias stands for the same in all structs that agree on the names that come up. -/
theorem dealias_congr {s s' : Surrounding} {a : String}
    (h : ∀ x ∈ passes s a, s'.aliases.get? (.str x) = s.aliases.get? (.str x)) :
    dealias s' a = dealias s a := by
  have hlong (t : Aliases) (more : Nat) :
      trail t [] (t.length + 1 + more) a = trail t [] (t.length + 1) a :=
    trail_enough List.nodup_nil (List.forall_mem_nil _) (by simp) more
  have hsteps : s.aliases.length + 1 + s'.aliases.length =
      s'.aliases.length + 1 + s.aliases.length := by omega
  rw [passes, ← hlong s.aliases s'.aliases.length] at h
  have hsame := trail_congr h
  rw [hlong s.aliases, hsteps, hlong s'.aliases] at hsame
  have hlast := congrArg List.getLast? hsame
  rw [getLast?_trail, getLast?_trail] at hlast
  exact Option.some.inj hlast

/-- A name that stands for a primitive type in the end refers to it, unless the name is itself that of
a primitive type. -/
theorem classifyName_of_dealias (types : TypeTable) {s : Surrounding} {a : String} {p : Primitive}
    (h : Primitive.ofName? (dealias s a) = some p) :
    types.classifyName a (some s) = some (.primitive ((Primitive.ofName? a).getD p)) := by
  unfold classifyName
  cases hname : Primitive.ofName? a with
  | some q => rfl
  | none =>
    have hvisible : s.aliases.has (.str a) = true := by
      cases hhas : s.aliases.has (.str a) with
      | true => rfl
      | false =>
        have hnone : s.aliases.get? (.str a) = none :=
          Option.isNone_iff_eq_none.mp (Option.isSome_eq_false_iff.mp hhas)
        have hself : dealias s a = a := by
          rw [dealias, chase, hnone]
          rfl
        rw [hself, hname] at h
        cases h
    simp only [hvisible, if_true, h, Option.getD_none]

end TypeTable

namespace Registry
open TypeTable

variable {c : Catalogue} {log : List Definition} {x : Definition} {f : Field} {a : String}

/-- The type of a field whose sample stands for a primitive type. -/
theorem type_of_alias (h : c.Accounts log) (hopen : c.finished = false) {name : String}
    (hx : (ofCatalogue c.finish).get? name = some x) (hf : f ∈ x.fields)
    (hsample : f.sample = .scalar (.str a))
    (hown : (ofCatalogue c.finish).get? (Name.member name f.property) = none) {p : Primitive}
    (hend : Primitive.ofName? (dealias x.surrounding a) = some p) :
    f.type = some (.primitive ((Primitive.ofName? a).getD p)) := by
  rw [get?_finish hopen] at hx hown
  obtain ⟨y, hy, rfl⟩ := Option.map_eq_some_iff.mp hx
  have hname := (h.stands name y hy).1
  rw [fields_resolvedIn] at hf
  obtain ⟨g, -, rfl⟩ := List.mem_map.mp hf
  have hnone : Assoc.get? c.types (Name.member name g.property) = none := Option.map_eq_none_iff.mp hown
  have hsurrounding : (resolvedIn c.types y).surrounding = y.surrounding := by
    rw [Definition.surrounding, Definition.surrounding, aliases_resolvedIn,
      (resolvedIn_name_source_ref c.types y).1]
  have hgsample : g.sample = .scalar (.str a) := hsample
  have htype : TypeTable.fieldType? c.types (TypeTable.linkInner c.types y) g =
      some (.primitive ((Primitive.ofName? a).getD p)) := by
    have hplace : (TypeTable.linkInner c.types y).name = name := hname
    rw [fieldType?, hplace, hnone, hgsample]
    rw [hsurrounding] at hend
    exact classifyName_of_dealias c.types hend
  change some ((TypeTable.fieldType? c.types (TypeTable.linkInner c.types y) g).getD _) = _
  rw [htype]
  rfl

/-- A field of the type that is registered for the struct at a place. Its sample is a text, and nothing
is registered under its own name. -/
structure FieldAt (r : Registry) (options : Options) (p : Place) (a : String) (f : Field) : Prop where
  type : ∃ x, r.get? p.name = some x ∧ x.aliases = p.aliases options ∧ f ∈ x.fields
  sample : f.sample = .scalar (.str a)
  own : r.get? (Name.member p.name f.property) = none

/-- An alias that stands for a primitive type in a struct of a document does so in every struct below
it, if no struct on the way declares a name again that comes up when the alias is followed. -/
theorem inherited_alias (options : Options) (docs : List Document) {d : Document}
    (hschema : d.plain = false) {P : Scalar → Prop} (hv : IsDocument P d.value) {outer inner : Place}
    (houter : Place.Occurs options d.place outer) {a : String} {p : Primitive}
    (hend : Primitive.ofName? (dealias ⟨outer.name, outer.aliases options⟩ a) = some p)
    (hinner : Place.Below options (passes ⟨outer.name, outer.aliases options⟩ a) outer inner)
    {f g : Field}
    (hf : (ofCatalogue (Catalogue.empty.addDocuments options docs).finish).FieldAt options outer a f)
    (hg : (ofCatalogue (Catalogue.empty.addDocuments options docs).finish).FieldAt options inner a g) :
    g.type = f.type ∧ ∃ q, f.type = some (.primitive q) := by
  have haccounts := Catalogue.accounts_addDocuments options docs
  have hopen := Catalogue.finished_addDocuments options .empty docs
  have hsound : outer.Sound P := houter.sound (d.sound_place hschema hv)
  have hinherited : dealias ⟨inner.name, inner.aliases options⟩ a =
      dealias ⟨outer.name, outer.aliases options⟩ a :=
    dealias_congr fun z hz => hinner.get?_aliases hsound hz
  obtain ⟨x, hx, hxAliases, hfx⟩ := hf.type
  obtain ⟨y, hy, hyAliases, hgy⟩ := hg.type
  have hendX : Primitive.ofName? (dealias x.surrounding a) = some p := by
    rw [dealias, Definition.surrounding, hxAliases]
    exact hend
  have hendY : Primitive.ofName? (dealias y.surrounding a) = some p := by
    rw [dealias, Definition.surrounding, hyAliases]
    rw [← hinherited] at hend
    exact hend
  have hfType := type_of_alias haccounts hopen hx hfx hf.sample hf.own hendX
  have hgType := type_of_alias haccounts hopen hy hgy hg.sample hg.own hendY
  exact ⟨hgType.trans hfType.symm, _, hfType⟩

instance (s : Scalar) : (v : Json) → Decidable (v = .scalar s)
  | .scalar t => decidable_of_iff (t = s) ⟨congrArg Json.scalar, Json.scalar.inj⟩
  | .list _ => isFalse nofun
  | .map _ => isFalse nofun

def nestedStruct (own : List (Scalar × Json)) : Json :=
  .map [(.str "__typedefs", .map own), (.str "g", .str "A")]

/-- A struct with an alias of an alias that comes later, and a struct inside that has its own. -/
def nestedEntries (own : List (Scalar × Json)) : List (Scalar × Json) :=
  [(.str "__typedefs", .map [(.str "A", .str "B"), (.str "B", .str "int")]), (.str "f", .str "A"),
    (.str "t", nestedStruct own)]

def nestedDocument (own : List (Scalar × Json)) : Document :=
  { name := "N", source := "N.jschema", value := .map (nestedEntries own) }

def nestedPlace (own : List (Scalar × Json)) : Place :=
  ⟨(nestedDocument own).place.inside {},
    fieldPlace (.ofOptions {}) (nestedEntries own) "N" (.str "t"), nestedStruct own⟩

theorem inherited_alias_nested :
    let own := [(Scalar.str "C", Json.str "string")]
    let d := nestedDocument own
    let r := ofCatalogue (Catalogue.empty.addDocuments {} [d]).finish
    d.plain = false ∧ IsDocument (fun _ => True) d.value ∧ Place.Occurs {} d.place d.place ∧
      Primitive.ofName? (dealias ⟨d.place.name, d.place.aliases {}⟩ "A") = some .int ∧
      Place.Below {} (passes ⟨d.place.name, d.place.aliases {}⟩ "A") d.place (nestedPlace own) ∧
      ∃ f g, r.FieldAt {} d.place "A" f ∧ r.FieldAt {} (nestedPlace own) "A" g ∧
        g.type = f.type ∧ ∃ q, f.type = some (.primitive q) := by
  intro own d r
  have hv : IsDocument (fun _ => True) d.value := by decide +kernel
  have hend : Primitive.ofName? (dealias ⟨d.place.name, d.place.aliases {}⟩ "A") = some .int := by
    decide +kernel
  have hinner :
      Place.Below {} (passes ⟨d.place.name, d.place.aliases {}⟩ "A") d.place (nestedPlace own) := by
    have hholds : d.place.Holds {} (nestedPlace own) :=
      .field (e := (.str "t", nestedStruct own)) rfl (by simp [nestedEntries]) rfl
    exact .held .here hholds (by decide +kernel)
  have hfields (p : Place) (hp : p ∈ [d.place, nestedPlace own]) : ∃ f, r.FieldAt {} p "A" f := by
    have hall : ∀ p ∈ [d.place, nestedPlace own], ∃ x ∈ r.get? p.name, x.aliases = p.aliases {} ∧
        ∃ f ∈ x.fields, f.sample = .scalar (.str "A") ∧
          (r.get? (Name.member p.name f.property)).isNone = true := by
      decide +kernel
    obtain ⟨x, hx, haliases, f, hf, hsample, hown⟩ := hall p hp
    exact ⟨f, ⟨x, hx, haliases, hf⟩, hsample, Option.isNone_iff_eq_none.mp hown⟩
  obtain ⟨f, hf⟩ := hfields d.place (by simp)
  obtain ⟨g, hg⟩ := hfields (nestedPlace own) (by simp)
  have houter : Place.Occurs {} d.place d.place := .root
  exact ⟨rfl, hv, houter, hend, hinner, f, g, hf, hg,
    inherited_alias {} [d] rfl hv houter hend hinner hf hg⟩

/-- Where the later alias is declared again, the alias before it changes its meaning. -/
example :
    let r := ofCatalogue (Catalogue.empty.addDocuments {}
      [nestedDocument [(.str "B", .str "string")]]).finish
    ((r.get? "N").bind fun x => x.field? "f").map Field.type = some (some (.primitive .int)) ∧
      ((r.get? "N.t").bind fun y => y.field? "g").map Field.type =
        some (some (.primitive .string)) := by
  decide +kernel

end Registry
end Exemplar
