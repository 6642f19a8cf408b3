import Exemplar.Proofs.Adoption
import Exemplar.Proofs.BoundContent
import Mathlib.Data.List.Forall2

/-! Plain documents among the nodes. No operation on linked containers changes plain data, so a
plain document looks the same in every later store, and so do its parts, which are plain documents
too. -/
namespace Exemplar

section

variable {α β : Type} {R S : α → β → Prop} {xs : List α} {ys : List β}

theorem forall₂_imp_mem (h : List.Forall₂ R xs ys)
    (himp : ∀ x ∈ xs, ∀ y ∈ ys, R x y → S x y) : List.Forall₂ S xs ys := by
  induction h with
  | nil => exact .nil
  | @cons x y xs ys hfirst _ ih =>
    refine .cons (himp x (by simp) y (by simp) hfirst) (ih fun x' hx' y' hy' => ?_)
    exact himp x' (by simp [hx']) y' (by simp [hy'])

end

namespace Snapshot

theorem itemsJson?_map {α : Type} (f : α → Snapshot) {xs : List α} {js : List Json} :
    itemsJson? (xs.map f) = some js ↔ List.Forall₂ (fun x j => (f x).json? = some j) xs js := by
  induction xs generalizing js with
  | nil => simp [itemsJson?, eq_comm]
  | cons x xs ih =>
    rw [List.map_cons, itemsJson?_cons, List.forall₂_cons_left_iff]
    constructor
    · rintro ⟨j, rest, rfl, hj, hrest⟩
      exact ⟨j, rest, hj, ih.mp hrest, rfl⟩
    · rintro ⟨j, rest, hj, hrest, rfl⟩
      exact ⟨j, rest, rfl, hj, ih.mpr hrest⟩

theorem entriesJson?_map {α : Type} (f : α → Snapshot) {xs : List (Scalar × α)}
    {js : List (Scalar × Json)} :
    entriesJson? (xs.map fun e => (e.1, f e.2)) = some js ↔
      List.Forall₂ (fun e e' => e.1 = e'.1 ∧ (f e.2).json? = some e'.2) xs js := by
  induction xs generalizing js with
  | nil => simp [entriesJson?, eq_comm]
  | cons x xs ih =>
    rw [List.map_cons, entriesJson?_cons, List.forall₂_cons_left_iff]
    constructor
    · rintro ⟨j, rest, rfl, hj, hrest⟩
      exact ⟨(x.1, j), rest, ⟨rfl, hj⟩, ih.mp hrest, rfl⟩
    · rintro ⟨⟨k, j⟩, rest, ⟨hk, hj⟩, hrest, rfl⟩
      exact ⟨j, rest, by rw [hk], hj, ih.mpr hrest⟩

end Snapshot

namespace Store

def KeepsPlain (s s' : Store) : Prop :=
  ∀ r n, s.get? r = some n → n.form = .plain → s'.get? r = some n

variable {s s' s'' : Store} {v : Value} {j : Json}

theorem KeepsPlain.refl (s : Store) : s.KeepsPlain s := fun _ _ hn _ => hn

theorem KeepsPlain.trans (h : s.KeepsPlain s') (h' : s'.KeepsPlain s'') : s.KeepsPlain s'' :=
  fun r n hn hform => h' r n (h r n hn hform) hform

theorem KeepsPlain.of_unchanged (h : ∀ r, r < s.nodes.size → s'.get? r = s.get? r) :
    s.KeepsPlain s' :=
  fun r n hn _ => by rw [h r (get?_lt hn), hn]

theorem keepsPlain_modify {r : Ref} {n : Node} (hr : s.get? r = some n) (hform : n.form ≠ .plain)
    (f : Node → Node) : s.KeepsPlain (s.modify r f) := by
  intro q m hm hplain
  have hne : q ≠ r := by
    rintro rfl
    obtain rfl := Option.some.inj (hr.symm.trans hm)
    exact hform hplain
  rw [get?_modify_ne hne, hm]

theorem snapshotWithin_map {r : Ref} {n : Node} {path : List Ref} {es : Assoc Scalar Value}
    (hn : s.get? r = some n) (hbody : n.body = .map es) (hr : r ∉ path) (fuel : Nat) :
    s.snapshotWithin (fuel + 1) path (.node r) =
      .map r ⟨n.form, n.type⟩ (es.map fun e => (e.1, s.snapshotWithin fuel (r :: path) e.2)) := by
  have hfree : path.contains r = false := by simpa using hr
  rw [snapshotWithin, hn]
  simp only [hfree, Bool.false_eq_true, if_false, hbody]

theorem snapshotWithin_list {r : Ref} {n : Node} {path : List Ref} {vs : List Value}
    (hn : s.get? r = some n) (hbody : n.body = .list vs) (hr : r ∉ path) (fuel : Nat) :
    s.snapshotWithin (fuel + 1) path (.node r) =
      .list r ⟨n.form, n.type⟩ (vs.map (s.snapshotWithin fuel (r :: path))) := by
  have hfree : path.contains r = false := by simpa using hr
  rw [snapshotWithin, hn]
  simp only [hfree, Bool.false_eq_true, if_false, hbody]

theorem not_mem_of_json? {r : Ref} {fuel : Nat} {path : List Ref}
    (h : (s.snapshotWithin (fuel + 1) path (.node r)).json? = some j) : r ∉ path := by
  intro hmem
  rw [snapshotWithin] at h
  split at h
  · cases h
  · simp only [List.contains_iff_mem.mpr hmem, if_true] at h
    cases h

/-- A value that shows as a tree looks the same with more fuel, on a shorter way, and while plain
data is kept. -/
theorem snapshotWithin_later (hkeep : s.KeepsPlain s') {fuel fuel' : Nat} (hfuel : fuel ≤ fuel')
    {path path' : List Ref} (hpath : path' ⊆ path) (hv : s.Plain v)
    (h : (s.snapshotWithin fuel path v).json? = some j) :
    s'.snapshotWithin fuel' path' v = s.snapshotWithin fuel path v := by
  induction fuel generalizing fuel' path path' v j with
  | zero =>
    cases v with
    | scalar a => simp [snapshotWithin]
    | nan mark => simp [snapshotWithin]
    | _ => simp [snapshotWithin, Snapshot.json?] at h
  | succ fuel ih =>
    obtain ⟨fuel', rfl⟩ : ∃ f, fuel' = f + 1 := ⟨fuel' - 1, by omega⟩
    have hless : fuel ≤ fuel' := Nat.le_of_succ_le_succ hfuel
    cases v with
    | scalar a => simp [snapshotWithin]
    | nan mark => simp [snapshotWithin]
    | member m => simp [snapshotWithin, Snapshot.json?] at h
    | pair k u => simp [snapshotWithin, Snapshot.json?] at h
    | descendents mark root => cases root <;> simp [snapshotWithin, Snapshot.json?] at h
    | node r =>
      cases hv with
      | single hnode => cases hnode
      | @node _ n hn hform hparts =>
        have hr := not_mem_of_json? h
        have hbelow : r :: path' ⊆ r :: path := List.cons_subset_cons r hpath
        have hr' : r ∉ path' := fun hmem => hr (hpath hmem)
        cases hbody : n.body with
        | map es =>
          rw [Node.values, hbody] at hparts
          rw [snapshotWithin_map hn hbody hr] at h ⊢
          rw [snapshotWithin_map (hkeep r n hn hform) hbody hr']
          obtain ⟨js, hjs, -⟩ := Option.map_eq_some_iff.mp h
          congr 1
          refine List.map_congr_left fun e he => ?_
          obtain ⟨e', -, -, hshown⟩ := exists_of_forall₂ ((Snapshot.entriesJson?_map _).mp hjs) he
          rw [ih hless hbelow (hparts e.2 (List.mem_map_of_mem he)) hshown]
        | list vs =>
          rw [Node.values, hbody] at hparts
          rw [snapshotWithin_list hn hbody hr] at h ⊢
          rw [snapshotWithin_list (hkeep r n hn hform) hbody hr']
          obtain ⟨js, hjs, -⟩ := Option.map_eq_some_iff.mp h
          congr 1
          refine List.map_congr_left fun u hu => ?_
          obtain ⟨j', -, hshown⟩ := exists_of_forall₂ ((Snapshot.itemsJson?_map _).mp hjs) hu
          exact ih hless hbelow (hparts u hu) hshown

structure PlainDocument (s : Store) (v : Value) (j : Json) : Prop where
  plain : s.Plain v
  shown : (s.snapshot v).json? = some j
  document : j.IsDocument fun _ => True

theorem plainDocument_scalar (s : Store) (a : Scalar) :
    s.PlainDocument (.scalar a) (.scalar a) where
  plain := .single rfl fun _ _ h => by cases h
  shown := by rw [snapshot, snapshotWithin]; rfl
  document := .scalar trivial

theorem PlainDocument.later (h : s.PlainDocument v j) (hkeep : s.KeepsPlain s')
    (hsize : s.nodes.size ≤ s'.nodes.size) : s'.PlainDocument v j where
  plain := h.plain.imp hkeep
  shown := by
    have hfuel : 2 * s.nodes.size + 2 ≤ 2 * s'.nodes.size + 2 := by omega
    rw [snapshot, snapshotWithin_later hkeep hfuel (List.Subset.refl _) h.plain h.shown]
    exact h.shown
  document := h.document

/-- What looks like a tree is a scalar, a double that is no number, or a container. -/
theorem eq_of_json? (h : (s.snapshot v).json? = some j) :
    (∃ a, v = .scalar a ∧ j = .scalar a) ∨ (∃ mark, v = .nan mark ∧ j = .scalar (.float .nan)) ∨
      ∃ r, v = .node r := by
  rw [snapshot] at h
  cases v with
  | scalar a =>
    rw [snapshotWithin] at h
    exact .inl ⟨a, rfl, (Option.some.inj h).symm⟩
  | nan mark =>
    rw [snapshotWithin] at h
    exact .inr (.inl ⟨mark, rfl, (Option.some.inj h).symm⟩)
  | node r => exact .inr (.inr ⟨r, rfl⟩)
  | descendents mark root => cases root <;> simp [snapshotWithin, Snapshot.json?] at h
  | _ => simp [snapshotWithin, Snapshot.json?] at h

theorem Plain.found {r : Ref} (h : s.Plain (.node r)) :
    ∃ n, s.get? r = some n ∧ n.form = .plain ∧ ∀ u ∈ n.values, s.Plain u := by
  cases h with
  | single hnode => cases hnode
  | node hn hform hparts => exact ⟨_, hn, hform, hparts⟩

/-- A part that shows inside its container looks the same alone. -/
theorem plainDocument_of_part {r : Ref} (hv : s.Plain v)
    (h : (s.snapshotWithin (2 * s.nodes.size + 1) [r] v).json? = some j)
    (hj : j.IsDocument fun _ => True) : s.PlainDocument v j where
  plain := hv
  shown := by
    rw [snapshot, snapshotWithin_later (.refl s) (Nat.le_succ _) (List.nil_subset [r]) hv h]
    exact h
  document := hj

theorem PlainDocument.of_list {js : List Json} (h : s.PlainDocument v (.list js)) :
    ∃ r n vs, v = .node r ∧ s.get? r = some n ∧ n.form = .plain ∧ n.body = .list vs ∧
      List.Forall₂ s.PlainDocument vs js := by
  obtain ⟨hplain, hshown, hdocument⟩ := h
  cases hdocument with | list parts =>
  rcases eq_of_json? hshown with ⟨a, -, ha⟩ | ⟨mark, -, ha⟩ | ⟨r, rfl⟩
  · cases ha
  · cases ha
  · obtain ⟨n, hn, hform, hvalues⟩ := hplain.found
    rw [snapshot] at hshown
    cases hbody : n.body with
    | map es =>
      rw [snapshotWithin_map hn hbody (List.not_mem_nil)] at hshown
      obtain ⟨js', -, heq⟩ := Option.map_eq_some_iff.mp hshown
      cases heq
    | list vs =>
      rw [snapshotWithin_list hn hbody (List.not_mem_nil)] at hshown
      rw [Node.values, hbody] at hvalues
      obtain ⟨js', hjs, heq⟩ := Option.map_eq_some_iff.mp hshown
      obtain rfl := Json.list.inj heq
      refine ⟨r, n, vs, rfl, hn, hform, hbody, ?_⟩
      exact forall₂_imp_mem ((Snapshot.itemsJson?_map _).mp hjs) fun u hu j' hj' hu' =>
        plainDocument_of_part (hvalues u hu) hu' (parts j' hj')

theorem PlainDocument.of_map {js : List (Scalar × Json)} (h : s.PlainDocument v (.map js)) :
    ∃ r n es, v = .node r ∧ s.get? r = some n ∧ n.form = .plain ∧ n.body = .map es ∧
      List.Forall₂ (fun e e' => e.1 = e'.1 ∧ s.PlainDocument e.2 e'.2) es js := by
  obtain ⟨hplain, hshown, hdocument⟩ := h
  cases hdocument with | map _ _ parts =>
  rcases eq_of_json? hshown with ⟨a, -, ha⟩ | ⟨mark, -, ha⟩ | ⟨r, rfl⟩
  · cases ha
  · cases ha
  · obtain ⟨n, hn, hform, hvalues⟩ := hplain.found
    rw [snapshot] at hshown
    cases hbody : n.body with
    | list vs =>
      rw [snapshotWithin_list hn hbody (List.not_mem_nil)] at hshown
      obtain ⟨js', -, heq⟩ := Option.map_eq_some_iff.mp hshown
      cases heq
    | map es =>
      rw [snapshotWithin_map hn hbody (List.not_mem_nil)] at hshown
      rw [Node.values, hbody] at hvalues
      obtain ⟨js', hjs, heq⟩ := Option.map_eq_some_iff.mp hshown
      obtain rfl := Json.map.inj heq
      refine ⟨r, n, es, rfl, hn, hform, hbody, ?_⟩
      refine forall₂_imp_mem ((Snapshot.entriesJson?_map _).mp hjs) fun e he e' he' hpart => ?_
      have hplain := hvalues e.2 (List.mem_map_of_mem he)
      exact ⟨hpart.1, plainDocument_of_part hplain hpart.2 (parts e' he')⟩

end Store

/-- What a tree gives when its elements are asked for one by one: the items of a list, the keys of a
map, the characters of a string. -/
def Json.elements? : Json → Option (List Json)
  | .list items => some items
  | .map entries => some (entries.map fun e => .scalar e.1)
  | .scalar (.str text) => some (text.toList.map fun c => .str (String.singleton c))
  | .scalar _ => none

open Store in
/-- The elements of a plain document are plain documents. -/
theorem StoreM.run_elements {s : Store} {v : Value} {j : Json} {js : List Json}
    (h : s.PlainDocument v j) (hjs : j.elements? = some js) :
    ∃ vs, (elements v).run s = (.ok vs, s) ∧ List.Forall₂ s.PlainDocument vs js := by
  match j, h, hjs with
  | .list items, h, hjs =>
    obtain rfl := Option.some.inj hjs
    obtain ⟨r, n, vs, rfl, hn, -, hbody, hvs⟩ := h.of_list
    refine ⟨vs, ?_, hvs⟩
    rw [elements, run_bind (run_node hn), hbody]
    rfl
  | .map entries, h, hjs =>
    obtain rfl := Option.some.inj hjs
    obtain ⟨r, n, es, rfl, hn, -, hbody, hes⟩ := h.of_map
    refine ⟨es.map fun e => .scalar e.1, ?_, ?_⟩
    · rw [elements, run_bind (run_node hn), hbody]
      rfl
    · rw [List.forall₂_map_left_iff, List.forall₂_map_right_iff]
      refine hes.imp fun e e' he => ?_
      rw [he.1]
      exact plainDocument_scalar s e'.1
  | .scalar (.str text), h, hjs =>
    obtain rfl := Option.some.inj hjs
    obtain rfl := eq_str_of_json? h.shown
    refine ⟨_, rfl, ?_⟩
    rw [List.forall₂_map_left_iff, List.forall₂_map_right_iff, List.forall₂_same]
    exact fun c _ => plainDocument_scalar s _

end Exemplar
