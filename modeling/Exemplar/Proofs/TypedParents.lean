import Exemplar.Proofs.Binding
import Exemplar.Proofs.OwnPlaces

/-! The nearest struct above a node of a bound document. The types of the fields and elements between
the two lead from one to the other, so the declared type of the parent is right wherever all of them
are defined at their own places. -/
namespace Exemplar
open Inference

namespace Store

def type? (s : Store) (r : Ref) : Option NodeType := (s.get? r).bind Node.type

/-- The nearest struct from a node upwards, on a way of unchanged nodes that comes to earlier ones
only. -/
inductive Climbs (s : Store) : Option Ref → Option Ref → Prop
  | nowhere : Climbs s none none
  | found {r : Ref} (hstruct : s.isStruct r = true) : Climbs s (some r) (some r)
  | up {r : Ref} {n : Node} {q : Option Ref} (hr : s.get? r = some n) (ha : n.attributes = [])
      (hno : s.isStruct r = false) (hdown : ∀ p, n.parent = some p → p < r)
      (hrest : Climbs s n.parent q) : Climbs s (some r) q

theorem Climbs.run {s : Store} {p q : Option Ref} (h : s.Climbs p q) {steps : Nat}
    (hsteps : ∀ r, p = some r → r < steps) :
    (StoreM.askTypedFrom steps p).run s = (.ok q, s) := by
  induction h generalizing steps with
  | nowhere => cases steps <;> rfl
  | @found r hstruct =>
    obtain ⟨steps, rfl⟩ := Nat.exists_eq_add_of_lt (hsteps r rfl)
    rw [StoreM.askTypedFrom, StoreM.run_bind (StoreM.run_get s), if_pos hstruct]
    rfl
  | @up r n q hr ha hno hdown hrest ih =>
    obtain ⟨more, rfl⟩ := Nat.exists_eq_add_of_lt (hsteps r rfl)
    rw [StoreM.askTypedFrom, StoreM.run_bind (StoreM.run_get s), hno]
    refine (StoreM.run_bind (StoreM.run_askParent hr ha) _).trans (ih fun p hp => ?_)
    exact Nat.lt_of_lt_of_le (hdown p hp) (Nat.le_add_right r more)

end Store

namespace Registry

variable {r : Registry} {owner : Option (Ref × Definition)}

/-- What a target sets are definitions of the registry, to which the types in the owner lead. -/
structure Leads (r : Registry) (owner : Option (Ref × Definition)) (t : Target) : Prop where
  struct : ∀ d, t.struct = some d → r.get? d.name = some d ∧ d.kind = .struct ∧
    ∀ o ∈ owner, ∃ byName, r.Reaches o.2 byName d
  list : ∀ d depth, t.list = some (d, depth) → r.get? d.name = some d ∧
    ∀ o ∈ owner, ∃ byName, r.Reaches o.2 byName d

theorem leads_untyped (r : Registry) (owner : Option (Ref × Definition)) :
    r.Leads owner .untyped :=
  ⟨fun _ h => (by cases h), fun _ _ h => (by cases h)⟩

theorem leads_ofDefinition {d : Definition} (hd : r.get? d.name = some d)
    (hreach : ∀ o ∈ owner, ∃ byName, r.Reaches o.2 byName d) :
    r.Leads owner (.ofDefinition d) := by
  rw [Target.ofDefinition]
  split
  · next fields aliases hshape =>
    refine ⟨?_, fun _ _ h => by cases h⟩
    rintro d' ⟨⟩
    exact ⟨hd, by rw [Definition.kind, hshape]; rfl, hreach⟩
  · refine ⟨fun _ h => (by cases h), ?_⟩
    rintro d' depth ⟨⟩
    exact ⟨hd, hreach⟩
  · exact leads_untyped r owner

/-- The target of a reference that the registry holds. -/
theorem Holds.leads {t : TypeRef} (ht : r.Holds t)
    (hreach : ∀ d, t = d.ref → r.get? d.name = some d → ∀ o ∈ owner, ∃ byName, r.Reaches o.2 byName d) :
    r.Leads owner (.ofRef r (some t)) := by
  rcases ht with ⟨p, rfl⟩ | ⟨d, hd, rfl, -⟩
  · exact leads_untyped r owner
  · rw [Target.ofRef_ref hd]
    exact leads_ofDefinition hd (hreach d rfl hd)

/-- Under the keys of a struct are the types of its fields. -/
theorem leads_ofKey (hr : r.Inferred) {d : Definition} (hd : r.get? d.name = some d) (c : Ref)
    (key : Scalar) : r.Leads (some (c, d)) (.ofKey r d key) := by
  rw [Target.ofKey]
  cases hfield : d.fieldForKey? key with
  | none => exact leads_untyped r _
  | some f =>
    obtain ⟨property, -, hfind⟩ := Option.bind_eq_some_iff.mp hfield
    have hf : f ∈ d.fields := List.mem_of_find?_eq_some hfind
    obtain ⟨t, htype, ht⟩ := hr.closed.fields _ _ hd f hf
    rw [Option.bind_some, htype]
    refine ht.leads ?_
    rintro e rfl he o ho
    obtain rfl := Option.some.inj ho
    exact ⟨_, .field hf htype he⟩

/-- The elements of a list type have the type that it gives for them. -/
theorem leads_ofElement (hr : r.Inferred) {d : Definition} (hd : r.get? d.name = some d)
    (hreach : ∀ o ∈ owner, ∃ byName, r.Reaches o.2 byName d) :
    r.Leads owner (.ofElement r d) := by
  rw [Target.ofElement]
  split
  · next depth sample element hshape =>
    obtain ⟨t, rfl, ht⟩ := hr.closed.elements _ _ hd depth sample element hshape
    refine ht.leads ?_
    rintro e rfl he o ho
    obtain ⟨byName, hl⟩ := hreach o ho
    exact ⟨_, .element hl hshape he⟩
  · exact leads_untyped r owner

/-- The items of a list are elements of its type, or lists between. -/
theorem Leads.inside (hr : r.Inferred) {t : Target} (h : r.Leads owner t) :
    r.Leads owner (t.inside r) := by
  rw [Target.inside]
  split
  · next d depth hlist =>
    obtain ⟨hd, hreach⟩ := h.list d depth hlist
    have helement := leads_ofElement hr hd hreach
    rw [Target.ofItem]
    split
    · refine ⟨helement.struct, ?_⟩
      rintro e depth' ⟨⟩
      exact ⟨hd, hreach⟩
    · exact helement
  · exact leads_untyped r owner

/-- The nearest struct above a node can be asked for, and the types in it lead to that of the node. -/
def Owned (r : Registry) (s : Store) (n : Ref) : Prop :=
  ∃ q, (StoreM.askTypedParent n).run s = (.ok q, s) ∧
    ∀ name, s.type? n = some (.struct name) → ∃ d, r.get? name = some d ∧ d.kind = .struct ∧
      ∀ p, q = some p → ∃ outer byName, s.type? p = some (.struct outer.name) ∧
        r.get? outer.name = some outer ∧ r.Reaches outer byName d

end Registry

namespace Store
open Registry Workshop

variable {w : Workshop} {s : Store}

/-- A value lies below the owner of its place, and so does what is in it. -/
structure Lies (s : Store) (r : Registry) (owner : Option (Ref × Definition)) (v : Value) : Prop where
  climbs : ∀ c, v = .node c → s.Climbs (s.parent? c) (owner.map Prod.fst)
  earlier : ∀ c p, v = .node c → s.parent? c = some p → p < c
  typed : ∀ o ∈ owner, s.type? o.1 = some (.struct o.2.name) ∧ r.get? o.2.name = some o.2

/-- The nearest struct above a node is that of its place. -/
theorem Lies.owned {r : Registry} {owner : Option (Ref × Definition)} {c : Ref} {n : Node}
    (h : s.Lies r owner (.node c)) (hc : s.get? c = some n) (ha : n.attributes = [])
    (htype : ∀ name, n.type = some (.struct name) → ∃ d, r.get? name = some d ∧ d.kind = .struct ∧
      ∀ o ∈ owner, ∃ byName, r.Reaches o.2 byName d) : r.Owned s c := by
  have hparent : s.parent? c = n.parent := by rw [parent?, hc]; rfl
  have hclimbs := h.climbs c rfl
  have hearlier := fun p => h.earlier c p rfl
  rw [hparent] at hclimbs hearlier
  refine ⟨owner.map Prod.fst, ?_, fun name hname => ?_⟩
  · rw [StoreM.askTypedParent, StoreM.run_bind (StoreM.run_get s),
      StoreM.run_bind (StoreM.run_askParent hc ha)]
    exact hclimbs.run fun p hp => Nat.lt_succ_of_lt (Nat.lt_trans (hearlier p hp) (get?_lt hc))
  · rw [type?, hc] at hname
    obtain ⟨d, hd, hkind, hreach⟩ := htype name hname
    refine ⟨d, hd, hkind, fun p hp => ?_⟩
    obtain ⟨o, ho, rfl⟩ := Option.map_eq_some_iff.mp hp
    obtain ⟨byName, hreach⟩ := hreach o ho
    obtain ⟨htyped, hget⟩ := h.typed o ho
    exact ⟨o.2, byName, htyped, hget, hreach⟩

/-- What a container that is no struct holds has the same owner. -/
theorem Lies.through {r : Registry} {owner : Option (Ref × Definition)} {c : Ref} {n : Node}
    (h : s.Lies r owner (.node c)) (hc : s.get? c = some n) (ha : n.attributes = [])
    (hno : s.isStruct c = false) {v : Value} {y : Snapshot} (hheld : s.Held c v)
    (hv : s.Shows (c + 1) v y) : s.Lies r owner v := by
  have hparent : s.parent? c = n.parent := by rw [parent?, hc]; rfl
  refine ⟨?_, ?_, h.typed⟩
  · rintro q rfl
    have hclimbs := h.climbs c rfl
    have hearlier := fun p => h.earlier c p rfl
    rw [hparent] at hclimbs hearlier
    rw [show s.parent? q = some c from hheld]
    exact .up hc ha hno hearlier hclimbs
  · rintro q p rfl hp
    obtain rfl := Option.some.inj (hp.symm.trans hheld)
    exact hv.bounds.1

/-- A struct owns what it holds. -/
theorem lies_inside {r : Registry} {c : Ref} {d : Definition} (hstruct : s.isStruct c = true)
    (htype : s.type? c = some (.struct d.name)) (hd : r.get? d.name = some d) {v : Value}
    {y : Snapshot} (hheld : s.Held c v) (hv : s.Shows (c + 1) v y) : s.Lies r (some (c, d)) v := by
  refine ⟨?_, ?_, ?_⟩
  · rintro q rfl
    rw [show s.parent? q = some c from hheld]
    exact .found hstruct
  · rintro q p rfl hp
    obtain rfl := Option.some.inj (hp.symm.trans hheld)
    exact hv.bounds.1
  · rintro o ⟨⟩
    exact ⟨htype, hd⟩

mutual
theorem Shows.owned (hr : w.registry.Inferred) {t : Target} {owner : Option (Ref × Definition)}
    {low : Ref} {v : Value} (ht : w.registry.Leads owner t) (hlies : s.Lies w.registry owner v) :
    (y : Snapshot) → s.Shows low v y → w.Marked t y → ∀ n ∈ y.refs, w.registry.Owned s n
  | .scalar _, _, _ => by simp [Snapshot.refs]
  | .nan _, _, _ => by simp [Snapshot.refs]
  | .list c mark ys, hv, hmarked => by
    obtain ⟨rfl, -, -, vs, parent, hc, hitems⟩ := hv
    obtain ⟨hmark, hinside⟩ := hmarked
    have hno : s.isStruct c = false := by rw [isStruct, hc]; rfl
    refine List.forall_mem_cons.mpr ⟨hlies.owned hc rfl fun name hname => ?_, ?_⟩
    · have htype : mark.type = some (.struct name) := hname
      rw [hmark, listMark] at htype
      split at htype
      · cases htype
      · next d depth _ => simp only [] at htype; split at htype <;> cases htype
    · exact hitems.owned hr (ht.inside hr) (fun v y hheld hv => hlies.through hc rfl hno hheld hv) ys
        hinside
  | .map c mark ys, hv, hmarked => by
    obtain ⟨rfl, -, -, es, parent, hc, hentries⟩ := hv
    obtain ⟨hmark, hunder⟩ := hmarked
    cases hstruct : t.struct with
    | none =>
      have htype : mark.type = none := by rw [hmark, mapMark, hstruct]
      have hno : s.isStruct c = false := by simp [isStruct, hc, htype]
      refine List.forall_mem_cons.mpr ⟨hlies.owned hc rfl fun name hname => ?_, ?_⟩
      · rw [htype] at hname
        cases hname
      · refine hentries.owned hr (fun key => ?_)
          (fun v y hheld hv => hlies.through hc rfl hno hheld hv) ys hunder
        rw [Target.under, hstruct]
        exact leads_untyped _ _
    | some d =>
      obtain ⟨hd, hkind, hreach⟩ := ht.struct d hstruct
      have htype : mark.type = some (.struct d.name) := by rw [hmark, mapMark, hstruct]
      have hyes : s.isStruct c = true := by simp [isStruct, hc, htype, Node.isMap]
      refine List.forall_mem_cons.mpr ⟨hlies.owned hc rfl fun name hname => ?_, ?_⟩
      · rw [htype] at hname
        cases hname
        exact ⟨d, hd, hkind, hreach⟩
      · refine hentries.owned hr (fun key => ?_) (fun v y hheld hv =>
          lies_inside hyes (by rw [type?, hc]; exact htype) hd hheld hv) ys hunder
        rw [Target.under, hstruct]
        exact leads_ofKey hr hd c key
theorem ShowsItems.owned (hr : w.registry.Inferred) {t : Target}
    {owner : Option (Ref × Definition)} {holder : Ref} {vs : List Value}
    (ht : w.registry.Leads owner t)
    (hlies : ∀ v y, s.Held holder v → s.Shows (holder + 1) v y → s.Lies w.registry owner v) :
    (ys : List Snapshot) → s.ShowsItems holder vs ys → w.MarkedItems t ys →
      ∀ n ∈ Snapshot.itemsRefs ys, w.registry.Owned s n
  | [], _, _ => by simp [Snapshot.itemsRefs]
  | y :: ys, hvs, hmarked => by
    obtain ⟨v, rest, rfl, hv, hheld, hrest⟩ := hvs
    intro n hn
    rcases List.mem_append.mp hn with hn | hn
    · exact hv.owned hr ht (hlies v y hheld hv) y hmarked.1 n hn
    · exact hrest.owned hr ht hlies ys hmarked.2 n hn
theorem ShowsEntries.owned (hr : w.registry.Inferred) {target : Scalar → Target}
    {owner : Option (Ref × Definition)} {holder : Ref} {es : Assoc Scalar Value}
    (ht : ∀ key, w.registry.Leads owner (target key))
    (hlies : ∀ v y, s.Held holder v → s.Shows (holder + 1) v y → s.Lies w.registry owner v) :
    (ys : List (Scalar × Snapshot)) → s.ShowsEntries holder es ys → w.MarkedEntries target ys →
      ∀ n ∈ Snapshot.entriesRefs ys, w.registry.Owned s n
  | [], _, _ => by simp [Snapshot.entriesRefs]
  | (key, y) :: ys, hes, hmarked => by
    obtain ⟨v, rest, rfl, hv, hheld, hrest⟩ := hes
    intro n hn
    rcases List.mem_append.mp hn with hn | hn
    · exact Shows.owned hr (ht key) (hlies v y hheld hv) y hv hmarked.1 n hn
    · exact hrest.owned hr ht hlies ys hmarked.2 n hn
end

end Store

namespace Workshop
open Registry

variable {w : Workshop} {options : Options} {docs : List Document}

/-- A node of a bound document that is a struct has a parent of the declared type, if it has a struct
above it and a parent is declared at all, unless its type was found by name and is not defined in the
struct above it. -/
theorem bind_parentType (hw : w.MakesStructs) (hregistry : w.registry = ofDocuments options docs)
    {type : Definition} (htype : w.registry.get? type.name = some type) {s : Store} {v : Value}
    {j : Json} (hv : (s.snapshot v).json? = some j) {q : Scalar → Prop} (hj : Json.IsDocument q j) :
    ∃ v' s', (w.bind v (some type.ref)).run s = (.ok v', s') ∧
      ∀ n ∈ (s'.snapshot v').refs, ∀ name, s'.type? n = some (.struct name) →
        ∃ d p, w.registry.get? name = some d ∧ d.kind = .struct ∧
          (StoreM.askTypedParent n).run s' = (.ok p, s') ∧
          (p = none ∨ w.registry.parentType d = .primitive .object ∨
            ∃ r outer, p = some r ∧ s'.type? r = some (.struct outer.name) ∧
              w.registry.get? outer.name = some outer ∧
              (w.registry.parentType d = outer.ref ∨
                w.registry.Reaches outer true d ∧ ¬w.registry.Within outer d.name)) := by
  have hr : w.registry.Inferred := by
    rw [hregistry]
    exact inferred_ofDocuments options docs
  obtain ⟨v', s', hrun, hbuilt, hfree⟩ := bind_rebuilt hw (some type.ref) hv hj
  refine ⟨v', s', hrun, fun n hn name hname => ?_⟩
  have hroot : w.registry.Leads none (.ofRef w.registry (some type.ref)) := by
    rw [Target.ofRef_ref htype]
    exact leads_ofDefinition htype (fun o ho => by cases ho)
  have hlies : s'.Lies w.registry none v' := by
    refine ⟨fun c hc => ?_, fun c p hc hp => ?_, fun o ho => by cases ho⟩
    · rw [hfree c hc]
      exact .nowhere
    · rw [hfree c hc] at hp
      cases hp
  obtain ⟨p, hask, howned⟩ := hbuilt.shows.owned hr hroot hlies _ hbuilt.marked n hn
  obtain ⟨d, hd, hkind, habove⟩ := howned name hname
  refine ⟨d, p, hd, hkind, hask, ?_⟩
  cases hp : p with
  | none => exact .inl rfl
  | some r =>
    obtain ⟨outer, byName, htyped, houter, hreach⟩ := habove r hp
    have hinside (h : w.registry.Within outer d.name) :
        w.registry.parentType d = .primitive .object ∨ w.registry.parentType d = outer.ref :=
      h.parent hr houter d
    by_cases hwithin : w.registry.Within outer d.name
    · rcases hinside hwithin with hobject | hsame
      · exact .inr (.inl hobject)
      · exact .inr (.inr ⟨r, outer, rfl, htyped, houter, .inl hsame⟩)
    · cases byName with
      | false => exact absurd (hreach.within hr houter rfl) hwithin
      | true => exact .inr (.inr ⟨r, outer, rfl, htyped, houter, .inr ⟨hreach, hwithin⟩⟩)

/-- A struct with a struct in it, to which another struct refers by its name. -/
def elsewhereDocument : Document where
  name := "N"
  source := "N.jschema"
  value := .map [(.str "a", .map [(.str "x", .str "int")]), (.str "c", .map [(.str "b", .str "a")])]

def elsewhereStore : Store where
  nodes := #[
    { body := .map [(.str "a", .node 1), (.str "c", .node 2)], form := .plain },
    { body := .map [], form := .plain },
    { body := .map [(.str "b", .node 1)], form := .plain }]

theorem bind_parentType_elsewhere :
    let w : Workshop := ⟨ofDocuments {} [elsewhereDocument], {}, false⟩
    ∃ type, w.registry.get? type.name = some type ∧
      ∃ v' s', (w.bind (.node 0) (some type.ref)).run elsewhereStore = (.ok v', s') ∧
        ∀ n ∈ (s'.snapshot v').refs, ∀ name, s'.type? n = some (.struct name) →
          ∃ d p, w.registry.get? name = some d ∧ d.kind = .struct ∧
            (StoreM.askTypedParent n).run s' = (.ok p, s') ∧
            (p = none ∨ w.registry.parentType d = .primitive .object ∨
              ∃ r outer, p = some r ∧ s'.type? r = some (.struct outer.name) ∧
                w.registry.get? outer.name = some outer ∧
                (w.registry.parentType d = outer.ref ∨
                  w.registry.Reaches outer true d ∧ ¬w.registry.Within outer d.name)) := by
  intro w
  have hfound : (w.registry.get? "N").isSome = true := by decide +kernel
  obtain ⟨type, htype⟩ := Option.isSome_iff_exists.mp hfound
  have hname : w.registry.get? type.name = some type := by
    rw [(inferred_ofDocuments _ _).closed.named _ _ htype]
    exact htype
  exact ⟨type, hname, bind_parentType (.inl rfl) rfl hname
    (j := .map [(.str "a", .map []), (.str "c", .map [(.str "b", .map [])])]) rfl
    (q := fun _ => True) (by decide)⟩

/-- In a struct that refers to the inner one by its name, the parent is not of the declared type. -/
theorem not_bind_parentType :
    let w : Workshop := ⟨ofDocuments {} [elsewhereDocument], {}, false⟩
    let result := (w.bind (.node 0) (some (.defined "N" 0))).run elsewhereStore
    ∃ v' ∈ result.1.toOption, ∃ n ∈ (result.2.snapshot v').refs,
      result.2.type? n = some (.struct "N.a") ∧
      (∃ d ∈ w.registry.get? "N.a", w.registry.parentType d = .defined "N" 0) ∧
      ∃ p ∈ ((StoreM.askTypedParent n).run result.2).1.toOption, ∃ r ∈ p,
        result.2.type? r = some (.struct "N.c") := by
  decide +kernel

end Workshop
end Exemplar
