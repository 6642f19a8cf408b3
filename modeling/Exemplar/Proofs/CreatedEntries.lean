import Exemplar.Model.Access
import Exemplar.Proofs.Adoption
import Exemplar.Proofs.Binding
import Exemplar.Proofs.FieldKeys
import Exemplar.Proofs.SuccessfulRuns

/-! Entries that reads create. Reading a property gives the entry that is there. Where there is none,
a field of an object, of a struct or of a list type gets an empty container with this type, behind
the other entries of the instance and linked to it. -/
namespace Exemplar
namespace Workshop
open Store StoreM Registry

/-- An empty container as reads create it for a type: a map without a type for an object, a map of a
struct, a list of a list type. -/
inductive Creates (w : Workshop) : Option TypeRef → Node → Prop
  | object : Creates w (some (.primitive .object)) ⟨.map [], .linked, none, none, []⟩
  | struct {d : Definition} (found : w.registry.get? d.name = some d) (kind : d.kind = .struct) :
    Creates w (some d.ref)
      ⟨.map [], (w.mapMark ⟨some d, none⟩).form, some (.struct d.name), none, []⟩
  | list {d : Definition} (found : w.registry.get? d.name = some d) (kind : d.kind = .list) :
    Creates w (some d.ref)
      ⟨.list [], .bound ⟨d.name, d.depth, w.classes⟩, some (.list d.name), none, []⟩

variable {w : Workshop} {t : Option TypeRef} {made : Node} {d : Definition} {f : Field}
  {s s' s₁ : Store} {m : Ref} {n : Node} {es : Assoc Scalar Value} {v : Value}

def listTarget (l : Definition) : Target := ⟨none, some (l, l.depth)⟩

theorem ofRef_list {r : Registry} {l : Definition} (hl : r.get? l.name = some l)
    (hkind : l.kind = .list) : Target.ofRef r (some l.ref) = listTarget l := by
  rw [Target.ofRef_ref hl, Target.ofDefinition, listTarget, Definition.depth]
  rw [Definition.kind] at hkind
  cases hshape : l.shape with
  | list depth sample element => rfl
  | _ => rw [hshape] at hkind; cases hkind

theorem ofRef_struct {r : Registry} (hd : r.get? d.name = some d) (hkind : d.kind = .struct) :
    Target.ofRef r (some d.ref) = ⟨some d, none⟩ := by
  rw [Target.ofRef_ref hd, Target.ofDefinition]
  rw [Definition.kind] at hkind
  cases hshape : d.shape with
  | struct fields aliases => rfl
  | _ => rw [hshape] at hkind; cases hkind

theorem eq_of_ref {r : Registry} {d d' : Definition} (hd : r.get? d.name = some d)
    (hd' : r.get? d'.name = some d') (h : d.ref = d'.ref) : d = d' := by
  have hname : d.name = d'.name := congrArg TypeRef.name h
  rw [hname, hd'] at hd
  exact (Option.some.inj hd).symm

theorem Creates.unique {made' : Node} (h : w.Creates t made) (h' : w.Creates t made') :
    made = made' := by
  cases h with
  | object => cases h' with | object => rfl
  | @struct d hd hkind =>
    generalize ht : some d.ref = t at h'
    cases h' with
    | object => cases ht
    | struct hd' _ => rw [eq_of_ref hd hd' (Option.some.inj ht)]
    | list hd' hkind' =>
      rw [eq_of_ref hd hd' (Option.some.inj ht), hkind'] at hkind
      cases hkind
  | @list d hd hkind =>
    generalize ht : some d.ref = t at h'
    cases h' with
    | object => cases ht
    | struct hd' hkind' =>
      rw [eq_of_ref hd hd' (Option.some.inj ht), hkind'] at hkind
      cases hkind
    | list hd' _ => rw [eq_of_ref hd hd' (Option.some.inj ht)]

theorem Creates.attributes (h : w.Creates t made) : made.attributes = [] := by
  cases h <;> rfl

theorem Creates.links (hw : w.MakesStructs) (h : w.Creates t made) : made.form.Links := by
  cases h with
  | object => trivial
  | @struct d hd _ =>
    refine links_mapMark hw fun d' hd' => ?_
    obtain rfl := Option.some.inj hd'
    exact ⟨d.name, d.edition, definition?_ref hd⟩
  | list _ _ => trivial

/-- No enum creates anything. -/
theorem Creates.enumOf? (h : w.Creates t made) : w.enumOf? t = none := by
  cases h with
  | object => rfl
  | struct hd hkind | list hd hkind =>
    rw [Definition.ref, Workshop.enumOf?, definition?_ref hd, Option.filter_some, hkind]
    rfl

/-- What reads create can be linked, or is an instance of a class that refuses it. -/
theorem Creates.form (h : w.Creates t made) :
    made.form.Links ∨ ∃ name, made.form = .instance name true := by
  cases h with
  | object => exact .inl trivial
  | struct _ _ => exact w.mapMark_form _
  | list _ _ => exact .inl trivial

/-- The empty container is made, if its struct can be made. -/
theorem Creates.ends_emptyValue (h : w.Creates t made) (s : Store) :
    Ends (w.emptyValue t) s (fun v s' => v = .node s.nodes.size ∧ s' = (s.add made).2)
      fun _ _ => ¬ w.MakesStructs := by
  cases h with
  | object => exact ⟨rfl, rfl⟩
  | @struct d hd hkind =>
    rw [emptyValue, ofRef_struct hd hkind]
    · refine (ends_newStruct (definition?_ref hd) s).bind ?_
      rintro _ _ ⟨rfl, rfl⟩
      exact ⟨rfl, rfl⟩
    · exact fun heq => by cases heq
  | @list d hd hkind =>
    rw [emptyValue, ofRef_list hd hkind]
    · have htype : (if d.depth = d.depth then some (NodeType.list d.name) else none) =
          some (.list d.name) := if_pos rfl
      rw [← htype]
      exact ⟨rfl, rfl⟩
    · exact fun heq => by cases heq

theorem Creates.run_emptyValue (hw : w.MakesStructs) (h : w.Creates t made) (s : Store) :
    (w.emptyValue t).run s = (.ok (.node s.nodes.size), (s.add made).2) := by
  obtain ⟨v, s', hrun, rfl, rfl⟩ := (h.ends_emptyValue s).ok fun _ _ hno => hno hw
  exact hrun

/-- A field creates a container exactly if its type is an object, a struct or a list type, and a list
exactly if it is a list type. -/
theorem creates_field {options : Options} {docs : List Document}
    (hregistry : w.registry = ofDocuments options docs) {name : String}
    (hd : w.registry.get? name = some d) (hf : f ∈ d.fields) :
    (f.autocreate = .none ∧ ∀ made, ¬ w.Creates f.type made) ∨
      ∃ made, w.Creates f.type made ∧ f.autocreate = if made.isMap then .map else .list := by
  have hauto {t : TypeRef} (ht : f.type = some t) :
      f.autocreate = .ofKind t (w.registry.types.kind? t) := by
    rw [hregistry] at hd ⊢
    exact autocreate_field hd hf ht
  have hclosed : w.registry.SelfContained := by
    rw [hregistry]
    exact (inferred_ofDocuments options docs).closed
  obtain ⟨t, ht, hheld⟩ := hclosed.fields name d hd f hf
  rw [hauto ht, ht]
  rcases hheld with ⟨p, rfl⟩ | ⟨own, hown, rfl, -⟩
  · by_cases hp : p = .object
    · subst hp
      exact .inr ⟨_, .object, rfl⟩
    · refine .inl ⟨?_, fun made hmade => ?_⟩
      · cases p <;> first | rfl | exact absurd rfl hp
      · cases hmade
        exact hp rfl
  · rw [kind?_ref hown]
    cases hkind : own.kind with
    | struct => exact .inr ⟨_, .struct hown hkind, rfl⟩
    | list => exact .inr ⟨_, .list hown hkind, rfl⟩
    | enum | primitive =>
      refine .inl ⟨rfl, fun made hmade => ?_⟩
      generalize htype : some own.ref = type at hmade
      cases hmade with
      | object => cases htype
      | struct hd hstruct =>
        rw [eq_of_ref hown hd (Option.some.inj htype), hstruct] at hkind
        cases hkind
      | list hd hlist =>
        rw [eq_of_ref hown hd (Option.some.inj htype), hlist] at hkind
        cases hkind

/-- A field whose type is an enum creates nothing. -/
theorem autocreate_of_enumOf? {options : Options} {docs : List Document}
    (hregistry : w.registry = ofDocuments options docs) {name : String} {e : Definition}
    (hd : w.registry.get? name = some d) (hf : f ∈ d.fields) (he : w.enumOf? f.type = some e) :
    f.autocreate = .none := by
  rcases creates_field hregistry hd hf with ⟨hnone, -⟩ | ⟨made, hmade, -⟩
  · exact hnone
  · rw [hmade.enumOf?] at he
    cases he

theorem run_contains (hm : s.get? m = some n) (hbody : n.body = .map es) (key : Scalar) :
    (MapNode.contains m key).run s = (.ok (es.get? key).isSome, s) := by
  rw [MapNode.contains, run_bind (MapNode.run_get? hm hbody key)]
  rfl

theorem run_hasKey (hm : s.get? m = some n) (hbody : n.body = .map es) (key : Scalar) :
    (hasKey (.node m) key).run s = (.ok (es.get? key).isSome, s) := by
  rw [hasKey, run_bind (run_node hm), hbody]
  exact run_contains hm hbody key

/-- Under a new key of a linked map a value is made and written. -/
theorem run_autocreate_eq {key : Scalar} {make : StoreM Value} (hm : s.get? m = some n)
    (hbody : n.body = .map es) (hform : (n.form == .plain) = false) (habsent : es.get? key = none) :
    (MapNode.autocreate m key make).run s =
      (do MapNode.set m key (← make); MapNode.get! m key : StoreM Value).run s := by
  have hlinked : (MapNode.requireLinked m).run s = (.ok (), s) := by
    rw [MapNode.requireLinked, run_bind (run_isPlain hm), hform]
    rfl
  rw [MapNode.autocreate, run_bind hlinked, run_bind (run_contains hm hbody key), habsent]
  rfl

theorem run_autocreate {key : Scalar} {es' : Assoc Scalar Value} {n' : Node} {make : StoreM Value}
    (hm : s.get? m = some n) (hbody : n.body = .map es) (hform : (n.form == .plain) = false)
    (habsent : es.get? key = none) (hmake : make.run s = (.ok v, s₁))
    (hset : (MapNode.set m key v).run s₁ = (.ok (), s')) (hm' : s'.get? m = some n')
    (hbody' : n'.body = .map es') (hget : es'.get? key = some v) :
    (MapNode.autocreate m key make).run s = (.ok v, s') := by
  have hgiven : (MapNode.get! m key).run s' = (.ok v, s') := by
    rw [MapNode.get!, run_bind (MapNode.run_get? hm' hbody' key), hget]
    rfl
  rw [run_autocreate_eq hm hbody hform habsent, run_bind hmake, run_bind hset, hgiven]

/-- A container was created under a key of a map: it stands behind the other entries and is linked to
the map, and nothing else changed. -/
structure Created (s : Store) (m : Ref) (n : Node) (es : Assoc Scalar Value) (key : Scalar)
    (made : Node) (s' : Store) : Prop where
  holder : s'.get? m = some { n with body := .map (es ++ [(key, .node s.nodes.size)]) }
  made : s'.get? s.nodes.size = some { made with parent := some m }
  others : ∀ r, r < s.nodes.size → r ≠ m → s'.get? r = s.get? r
  size : s'.nodes.size = s.nodes.size + 1

/-- A property with an entry gives it, and one that creates nothing gives null without. -/
theorem run_readEntry_kept (hm : s.get? m = some n) (hbody : n.body = .map es)
    (h : f.autocreate = .none ∨ (es.get? f.key).isSome = true) :
    (w.readEntry f (.node m)).run s = (.ok ((es.get? f.key).getD .null), s) := by
  have hkept : (f.autocreate = .none || (es.get? f.key).isSome) = true := by
    simpa using h
  rw [readEntry, run_bind (run_hasKey hm hbody f.key), if_pos hkept, run_bind (run_node hm), hbody]
  change (MapNode.getD m f.key .null).run s = _
  rw [MapNode.getD, run_bind (MapNode.run_get? hm hbody f.key)]
  rfl

/-- A property without an entry, of a field that creates one, is read by creating it. -/
theorem run_readEntry_absent (hpolicy : f.autocreate ≠ .none) (hm : s.get? m = some n)
    (hbody : n.body = .map es) (hfree : Assoc.has n.attributes "autocreate" = false)
    (habsent : es.get? f.key = none) :
    (w.readEntry f (.node m)).run s =
      (MapNode.autocreate m f.key (w.emptyValue f.type)).run s := by
  have hisMap : n.isMap = true := by
    rw [Node.isMap, hbody]
  have hpolicy : ¬(f.autocreate = .none || (es.get? f.key).isSome) = true := by
    simp [hpolicy, habsent]
  rw [readEntry, run_bind (run_hasKey hm hbody f.key), if_neg hpolicy]
  refine (run_named_free hm hfree _).trans ?_
  rw [run_bind (run_node hm), if_pos hisMap]

/-- The entry is created, if its container is made and can be linked. -/
theorem run_readEntry_made
    (hmade : (w.emptyValue f.type).run s = (.ok (.node s.nodes.size), (s.add made).2))
    (hlinks : made.form.Links) (hattributes : made.attributes = [])
    (hpolicy : f.autocreate ≠ .none) (hkey : (f.key == f.key) = true) (hm : s.get? m = some n)
    (hbody : n.body = .map es) (hform : (n.form == .plain) = false)
    (hfree : Assoc.has n.attributes "autocreate" = false) (habsent : es.get? f.key = none) :
    ∃ s', (w.readEntry f (.node m)).run s = (.ok (.node s.nodes.size), s') ∧
      Created s m n es f.key made s' := by
  have hlt := get?_lt hm
  have hnew := Assoc.get?_none.mp habsent
  let s₁ := (s.add made).2
  let s₂ := s₁.modify s.nodes.size (linkedTo (some m))
  let write : Node → Node := fun n =>
    { n with body := .map (es ++ [(f.key, .node s.nodes.size)]) }
  have hmade₁ : s₁.get? s.nodes.size = some made := by rw [get?_add, if_pos rfl]
  have hm₁ : s₁.get? m = some n := by rw [get?_add_lt hlt, hm]
  have hm₂ : s₂.get? m = some n := by rw [get?_modify_ne (Nat.ne_of_lt hlt), hm₁]
  have hadopt : (adoptInto (.node s.nodes.size) (some m)).run s₁ = (.ok (.node s.nodes.size), s₂) :=
    run_adoptInto_node hmade₁ hlinks hattributes (some m)
  have hset : (MapNode.set m f.key (.node s.nodes.size)).run s₁ = (.ok (), s₂.modify m write) :=
    run_set_new hm₁ hbody hform hnew hadopt hm₂ hbody
  have hentry : Assoc.get? (es ++ [(f.key, .node s.nodes.size)]) f.key =
      some (.node s.nodes.size) := by
    rw [Assoc.get?_append habsent, Assoc.get?, if_pos hkey]
  have hcreate := run_autocreate hm hbody hform habsent hmade hset
    (get?_modify_self hm₂ write) rfl hentry
  refine ⟨s₂.modify m write, ?_, get?_modify_self hm₂ write, ?_, fun r hr hne => ?_, ?_⟩
  · rw [run_readEntry_absent hpolicy hm hbody hfree habsent, hcreate]
  · rw [get?_modify_ne (Nat.ne_of_gt hlt), get?_modify_self hmade₁, linkedTo_eq hattributes]
  · rw [get?_modify_ne hne, get?_modify_ne (Nat.ne_of_lt hr), get?_add_lt hr]
  · rw [size_modify, size_modify, size_add]

/-- Where all structs can be made, a property without an entry creates one. -/
theorem run_readEntry_new (hw : w.MakesStructs) (hmade : w.Creates f.type made)
    (hpolicy : f.autocreate ≠ .none) (hkey : (f.key == f.key) = true) (hm : s.get? m = some n)
    (hbody : n.body = .map es) (hform : (n.form == .plain) = false)
    (hfree : Assoc.has n.attributes "autocreate" = false) (habsent : es.get? f.key = none) :
    ∃ s', (w.readEntry f (.node m)).run s = (.ok (.node s.nodes.size), s') ∧
      Created s m n es f.key made s' :=
  run_readEntry_made (hmade.run_emptyValue hw s) (hmade.links hw) hmade.attributes hpolicy hkey hm
    hbody hform hfree habsent

end Workshop
end Exemplar
