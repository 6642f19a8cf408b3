import Exemplar.Store.List
import Exemplar.Store.Map
import Exemplar.Store.Parent
import Mathlib.Data.List.Perm.Subperm

/-! Runs of operations on a store: what each gives when the nodes that it asks for are there, and
which nodes it changes. -/
namespace Exemplar.Store

theorem get?_lt {s : Store} {r : Ref} {n : Node} (h : s.get? r = some n) : r < s.nodes.size := by
  rw [get?] at h
  exact (Array.getElem?_eq_some_iff.mp h).1

theorem le_of_get?_none {s : Store} {r : Ref} (h : s.get? r = none) : s.nodes.size ≤ r := by
  rw [get?] at h
  exact Array.getElem?_eq_none_iff.mp h

/-- Different containers of a store are no more than there are. -/
theorem length_le_size {s : Store} {path : List Ref} (hnodup : path.Nodup) (hlt : ∀ p ∈ path, p < s.nodes.size) :
    path.length ≤ s.nodes.size := by
  have hsub : path ⊆ List.range s.nodes.size := fun p hp => List.mem_range.mpr (hlt p hp)
  simpa using (hnodup.subperm hsub).length_le

theorem get?_add (s : Store) (n : Node) (r : Ref) :
    (s.add n).2.get? r = if r = s.nodes.size then some n else s.get? r := by
  simp [add, get?, Array.getElem?_push]

theorem get?_add_lt {s : Store} {n : Node} {r : Ref} (h : r < s.nodes.size) :
    (s.add n).2.get? r = s.get? r := by
  rw [get?_add, if_neg (Nat.ne_of_lt h)]

theorem size_add (s : Store) (n : Node) : (s.add n).2.nodes.size = s.nodes.size + 1 := by
  simp [add]

theorem get?_modify_self {s : Store} {r : Ref} {n : Node} (h : s.get? r = some n) (f : Node → Node) :
    (s.modify r f).get? r = some (f n) := by
  have hlt := get?_lt h
  rw [modify, h]
  simp [set, get?, hlt]

theorem get?_modify_ne {s : Store} {r q : Ref} (h : q ≠ r) (f : Node → Node) :
    (s.modify r f).get? q = s.get? q := by
  unfold modify
  split
  · simp [set, get?, Array.getElem?_setIfInBounds_ne (Ne.symm h)]
  · rfl

theorem modify_congr {s : Store} {r : Ref} {n : Node} (h : s.get? r = some n) {f g : Node → Node}
    (hfg : f n = g n) : s.modify r f = s.modify r g := by
  simp only [modify, h, hfg]

theorem modify_modify (s : Store) (r : Ref) (f g : Node → Node) :
    (s.modify r f).modify r g = s.modify r fun n => g (f n) := by
  cases hr : s.get? r with
  | none => simp only [modify, hr]
  | some n =>
    have hr' := get?_modify_self hr f
    rw [modify, hr']
    simp only [modify, hr, set, Array.setIfInBounds_setIfInBounds]

theorem modify_same {s : Store} {r : Ref} {n : Node} (h : s.get? r = some n) {f : Node → Node}
    (hf : f n = n) : s.modify r f = s := by
  obtain ⟨hlt, hn⟩ := Array.getElem?_eq_some_iff.mp h
  simp only [modify, h, set, hf, Array.setIfInBounds, dif_pos hlt]
  rw [← hn, Array.set_getElem_self]

theorem size_modify (s : Store) (r : Ref) (f : Node → Node) :
    (s.modify r f).nodes.size = s.nodes.size := by
  unfold modify
  split
  · simp [set]
  · rfl

theorem enums_modify (s : Store) (r : Ref) (f : Node → Node) : (s.modify r f).enums = s.enums := by
  unfold modify
  split <;> rfl

section

variable {s s' s'' : Store} {same same' : Ref → Prop}

/-- The nodes are still there, of the same form and with the same set on them, but for their links.
Some of them have the same content. -/
def Retains (s : Store) (same : Ref → Prop) (s' : Store) : Prop :=
  ∀ r n, s.get? r = some n → ∃ n', s'.get? r = some n' ∧ n'.form = n.form ∧
    (∀ name, name ≠ parentLink → Assoc.has n'.attributes name = Assoc.has n.attributes name) ∧
    (same r → n'.body = n.body)

theorem Retains.refl (s : Store) (same : Ref → Prop) : s.Retains same s :=
  fun _ n hn => ⟨n, hn, rfl, fun _ _ => rfl, fun _ => rfl⟩

theorem Retains.trans (h : s.Retains same s') (h' : s'.Retains same s'') : s.Retains same s'' := by
  intro r n hn
  obtain ⟨n', hn', hform, hset, hbody⟩ := h r n hn
  obtain ⟨n'', hn'', hform', hset', hbody'⟩ := h' r n' hn'
  exact ⟨n'', hn'', hform'.trans hform, fun name hne => (hset' name hne).trans (hset name hne),
    fun hr => (hbody' hr).trans (hbody hr)⟩

theorem Retains.mono (h : s.Retains same s') (hsame : ∀ r, same' r → same r) : s.Retains same' s' := by
  intro r n hn
  obtain ⟨n', hn', hform, hset, hbody⟩ := h r n hn
  exact ⟨n', hn', hform, hset, fun hr => hbody (hsame r hr)⟩

/-- A node is changed in its links only, or in its content. -/
theorem retains_modify (s : Store) (r : Ref) {f : Node → Node} (hform : ∀ n, (f n).form = n.form)
    (hset : ∀ n name, name ≠ parentLink →
      Assoc.has (f n).attributes name = Assoc.has n.attributes name)
    (hbody : ∀ n, same r → (f n).body = n.body) : s.Retains same (s.modify r f) := by
  intro q n hn
  by_cases hq : q = r
  · subst hq
    exact ⟨f n, get?_modify_self hn f, hform n, hset n, hbody n⟩
  · exact ⟨n, by rw [get?_modify_ne hq, hn], rfl, fun _ _ => rfl, fun _ => rfl⟩

end

end Exemplar.Store

namespace Exemplar.Form

def Links : Form → Prop
  | .plain => False
  | .instance _ true => False
  | _ => True

theorem Links.ne_plain : {f : Form} → f.Links → (f == .plain) = false
  | .linked, _ => rfl
  | .bound _, _ => rfl
  | .instance _ false, _ => rfl

end Exemplar.Form

namespace Exemplar.StoreM

variable {α β : Type} {s s' : Store} {r : Ref} {n : Node}

theorem run_bind {a : StoreM α} {x : α} (h : a.run s = (.ok x, s')) (f : α → StoreM β) :
    (a >>= f).run s = (f x).run s' := by
  change ((ExceptT.run a).bind (ExceptT.bindCont f)) s = _
  change (ExceptT.run a) s = _ at h
  simp only [StateT.bind, h]
  rfl

theorem run_bind_error {a : StoreM α} {e : StoreFault} (h : a.run s = (.error e, s'))
    (f : α → StoreM β) : (a >>= f).run s = (.error e, s') := by
  change ((ExceptT.run a).bind (ExceptT.bindCont f)) s = _
  change (ExceptT.run a) s = _ at h
  simp only [StateT.bind, h]
  rfl

theorem run_get (s : Store) : (get : StoreM Store).run s = (.ok s, s) := rfl

theorem run_node (h : s.get? r = some n) : (node r).run s = (.ok n, s) := by
  rw [node, run_bind (run_get s), h]
  rfl

theorem run_add (s : Store) (n : Node) : (add n).run s = (.ok s.nodes.size, (s.add n).2) := rfl

theorem run_change (r : Ref) (f : Node → Node) (s : Store) :
    (change r f).run s = (.ok (), s.modify r f) := rfl

theorem run_isPlain (h : s.get? r = some n) : (isPlain r).run s = (.ok (n.form == .plain), s) := by
  rw [isPlain, run_bind (run_node h)]
  rfl

theorem run_items {vs : List Value} (h : s.get? r = some n) (hb : n.body = .list vs) :
    (items r).run s = (.ok vs, s) := by
  rw [items, run_bind (run_node h), hb]
  rfl

theorem run_entries {es : Assoc Scalar Value} (h : s.get? r = some n) (hb : n.body = .map es) :
    (entries r).run s = (.ok es, s) := by
  rw [entries, run_bind (run_node h), hb]
  rfl

/-- Where nothing was set under its name, an operation is the one of this name. -/
theorem run_named_free (h : s.get? r = some n) {name : String}
    (hfree : Assoc.has n.attributes name = false) (a : StoreM α) :
    (named r name a).run s = a.run s := by
  rw [named, run_bind (run_node h), hfree]
  rfl

theorem run_named (h : s.get? r = some n) (ha : n.attributes = []) (name : String) (a : StoreM α) :
    (named r name a).run s = a.run s :=
  run_named_free h (by rw [ha]; rfl) a

/-- A container is linked to a parent unless something stands in place of the operation that sets it. -/
theorem run_link_free (h : s.get? r = some n) (hf : n.form.Links)
    (hfree : Assoc.has n.attributes linkOperation = false) (parent : Option Ref) :
    (link r parent).run s =
      (.ok (), s.modify r fun n => { n with parent, attributes := n.attributes.erase parentLink }) := by
  rw [link, run_bind (run_node h)]
  match hform : n.form, hf with
  | .linked, _ => exact run_named_free h hfree _
  | .bound _, _ => exact run_named_free h hfree _
  | .instance _ false, _ => exact run_named_free h hfree _

theorem run_link (h : s.get? r = some n) (hf : n.form.Links) (ha : n.attributes = [])
    (parent : Option Ref) :
    (link r parent).run s =
      (.ok (), s.modify r fun n => { n with parent, attributes := n.attributes.erase parentLink }) :=
  run_link_free h hf (by rw [ha]; rfl) parent

theorem run_accept (h : s.get? r = some n) (hf : (n.form == .plain) = false) (v : Value) :
    (accept r v).run s = (adoptInto v (some r)).run s := by
  rw [accept, run_bind (run_isPlain h), hf]
  rfl

theorem run_releaseFrom (h : s.get? r = some n) (hf : (n.form == .plain) = false) (v : Value) :
    (releaseFrom r v).run s = (release v).run s := by
  rw [releaseFrom, run_bind (run_isPlain h), hf]
  rfl

/-- A linked container is stored as it is, with another parent. -/
theorem run_adoptInto_free (h : s.get? r = some n) (hf : n.form.Links)
    (hfree : Assoc.has n.attributes linkOperation = false) (parent : Option Ref) :
    (adoptInto (.node r) parent).run s = (.ok (.node r),
      s.modify r fun n => { n with parent, attributes := n.attributes.erase parentLink }) := by
  rw [adoptInto, run_bind (run_get s), adopt, run_bind (run_node h)]
  simp only [hf.ne_plain, Bool.false_eq_true, if_false]
  rw [run_bind (run_link_free h hf hfree parent)]
  rfl

theorem run_adoptInto_node (h : s.get? r = some n) (hf : n.form.Links) (ha : n.attributes = [])
    (parent : Option Ref) : (adoptInto (.node r) parent).run s = (.ok (.node r),
      s.modify r fun n => { n with parent, attributes := n.attributes.erase parentLink }) :=
  run_adoptInto_free h hf (by rw [ha]; rfl) parent

/-- An instance with a property in the place of the operation that links it fits no container. -/
theorem run_adoptInto_sealed (h : s.get? r = some n) {type : String}
    (hf : n.form = .instance type true) (parent : Option Ref) :
    (adoptInto (.node r) parent).run s = (.error .wrongKind, s) := by
  have hlink : (link r parent).run s = (.error .wrongKind, s) := by
    rw [link, run_bind (run_node h), hf]
    rfl
  rw [adoptInto, run_bind (run_get s), adopt, run_bind (run_node h), hf]
  exact run_bind_error hlink _

theorem run_askParent (h : s.get? r = some n) (ha : n.attributes = []) :
    (askParent r).run s = (.ok n.parent, s) := by
  rw [askParent, run_named h ha, followLink, run_bind (run_node h), ha]
  rfl

end Exemplar.StoreM

namespace Exemplar.MapNode
open StoreM

theorem run_get? {s : Store} {m : Ref} {n : Node} {es : Assoc Scalar Value} (hm : s.get? m = some n)
    (hbody : n.body = .map es) (key : Scalar) :
    (get? m key).run s = (.ok (es.get? key), s) := by
  rw [get?, run_bind (run_entries hm hbody)]
  rfl

end Exemplar.MapNode
