import Exemplar.Proofs.Document
import Exemplar.Proofs.FreshTrees
import Exemplar.Proofs.RunOutcomes

/-! The content of a value: the tree of maps and lists that it stands for in a store. A value whose
content is finite looks like it, and a copy of it that is made for a linked container has the same
content. What is stored under a key in the place of a value of the same content leaves alone what a
document looks like. -/
namespace Exemplar

namespace Json

mutual
def depth : Json → Nat
  | .scalar _ => 0
  | .list items => itemsDepth items + 1
  | .map entries => entriesDepth entries + 1
def itemsDepth : List Json → Nat
  | [] => 0
  | x :: xs => max (depth x) (itemsDepth xs)
def entriesDepth : List (Scalar × Json) → Nat
  | [] => 0
  | (_, x) :: xs => max (depth x) (entriesDepth xs)
end

end Json

namespace Store
open Json

mutual
/-- A value has this content in a store, and all of its containers are among those named. -/
def Content (s : Store) (P : Ref → Prop) (v : Value) : Json → Prop
  | .scalar a => v = .scalar a ∨ a = .float .nan ∧ ∃ mark, v = .nan mark
  | .list js => ∃ r n vs, v = .node r ∧ P r ∧ s.get? r = some n ∧ n.body = .list vs ∧
    ContentItems s P vs js
  | .map js => ∃ r n es, v = .node r ∧ P r ∧ s.get? r = some n ∧ n.body = .map es ∧
    ContentEntries s P es js
def ContentItems (s : Store) (P : Ref → Prop) (vs : List Value) : List Json → Prop
  | [] => vs = []
  | j :: js => ∃ v rest, vs = v :: rest ∧ Content s P v j ∧ ContentItems s P rest js
def ContentEntries (s : Store) (P : Ref → Prop) (es : Assoc Scalar Value) :
    List (Scalar × Json) → Prop
  | [] => es = []
  | (k, j) :: js => ∃ v rest, es = (k, v) :: rest ∧ Content s P v j ∧ ContentEntries s P rest js
end

variable {s s' : Store} {P Q : Ref → Prop} {v : Value} {j : Json}

mutual
/-- Content stays as long as its containers keep their bodies. -/
theorem Content.later (hkeep : ∀ r n, P r → s.get? r = some n →
      Q r ∧ ∃ n', s'.get? r = some n' ∧ n'.body = n.body) {v : Value} :
    (j : Json) → s.Content P v j → s'.Content Q v j
  | .scalar _, h => h
  | .list js, h => by
    obtain ⟨r, n, vs, rfl, hr, hn, hbody, hitems⟩ := h
    obtain ⟨hq, n', hn', hbody'⟩ := hkeep r n hr hn
    exact ⟨r, n', vs, rfl, hq, hn', hbody'.trans hbody, ContentItems.later hkeep js hitems⟩
  | .map js, h => by
    obtain ⟨r, n, es, rfl, hr, hn, hbody, hentries⟩ := h
    obtain ⟨hq, n', hn', hbody'⟩ := hkeep r n hr hn
    exact ⟨r, n', es, rfl, hq, hn', hbody'.trans hbody, ContentEntries.later hkeep js hentries⟩
theorem ContentItems.later (hkeep : ∀ r n, P r → s.get? r = some n →
      Q r ∧ ∃ n', s'.get? r = some n' ∧ n'.body = n.body) {vs : List Value} :
    (js : List Json) → s.ContentItems P vs js → s'.ContentItems Q vs js
  | [], h => h
  | j :: js, h => by
    obtain ⟨v, rest, rfl, hv, hrest⟩ := h
    exact ⟨v, rest, rfl, Content.later hkeep j hv, ContentItems.later hkeep js hrest⟩
theorem ContentEntries.later (hkeep : ∀ r n, P r → s.get? r = some n →
      Q r ∧ ∃ n', s'.get? r = some n' ∧ n'.body = n.body) {es : Assoc Scalar Value} :
    (js : List (Scalar × Json)) → s.ContentEntries P es js → s'.ContentEntries Q es js
  | [], h => h
  | (k, j) :: js, h => by
    obtain ⟨v, rest, rfl, hv, hrest⟩ := h
    exact ⟨v, rest, rfl, Content.later hkeep j hv, ContentEntries.later hkeep js hrest⟩
end

theorem Content.mono (h : s.Content P v j) (hpq : ∀ r, P r → Q r) : s.Content Q v j :=
  Content.later (fun r n hr hn => ⟨hpq r hr, n, hn, rfl⟩) j h

mutual
/-- A value has one content. -/
theorem Content.unique {v : Value} : (j j' : Json) → s.Content P v j → s.Content Q v j' → j = j'
  | .scalar a, .scalar a', h, h' => by
    rcases h with rfl | ⟨rfl, mark, rfl⟩ <;> rcases h' with h' | ⟨rfl, mark', h'⟩ <;> cases h' <;> rfl
  | .list js, .list js', h, h' => by
    obtain ⟨r, n, vs, rfl, -, hn, hbody, hitems⟩ := h
    obtain ⟨r', n', vs', hr, -, hn', hbody', hitems'⟩ := h'
    obtain rfl := Value.node.inj hr
    obtain rfl := Option.some.inj (hn.symm.trans hn')
    obtain rfl := Body.list.inj (hbody.symm.trans hbody')
    rw [ContentItems.unique js js' hitems hitems']
  | .map js, .map js', h, h' => by
    obtain ⟨r, n, es, rfl, -, hn, hbody, hentries⟩ := h
    obtain ⟨r', n', es', hr, -, hn', hbody', hentries'⟩ := h'
    obtain rfl := Value.node.inj hr
    obtain rfl := Option.some.inj (hn.symm.trans hn')
    obtain rfl := Body.map.inj (hbody.symm.trans hbody')
    rw [ContentEntries.unique js js' hentries hentries']
  | .scalar _, .list _, h, h' => by
    obtain ⟨r, n, vs, rfl, -⟩ := h'
    rcases h with h | ⟨-, _, h⟩ <;> cases h
  | .scalar _, .map _, h, h' => by
    obtain ⟨r, n, es, rfl, -⟩ := h'
    rcases h with h | ⟨-, _, h⟩ <;> cases h
  | .list _, .scalar _, h, h' => by
    obtain ⟨r, n, vs, rfl, -⟩ := h
    rcases h' with h' | ⟨-, _, h'⟩ <;> cases h'
  | .map _, .scalar _, h, h' => by
    obtain ⟨r, n, es, rfl, -⟩ := h
    rcases h' with h' | ⟨-, _, h'⟩ <;> cases h'
  | .list _, .map _, h, h' => by
    obtain ⟨r, n, vs, rfl, -, hn, hbody, -⟩ := h
    obtain ⟨r', n', es', hr, -, hn', hbody', -⟩ := h'
    obtain rfl := Value.node.inj hr
    obtain rfl := Option.some.inj (hn.symm.trans hn')
    cases hbody.symm.trans hbody'
  | .map _, .list _, h, h' => by
    obtain ⟨r, n, es, rfl, -, hn, hbody, -⟩ := h
    obtain ⟨r', n', vs', hr, -, hn', hbody', -⟩ := h'
    obtain rfl := Value.node.inj hr
    obtain rfl := Option.some.inj (hn.symm.trans hn')
    cases hbody.symm.trans hbody'
theorem ContentItems.unique {vs : List Value} : (js js' : List Json) → s.ContentItems P vs js →
    s.ContentItems Q vs js' → js = js'
  | [], [], _, _ => rfl
  | [], _ :: _, h, h' => by
    obtain rfl : vs = [] := h
    obtain ⟨_, _, ⟨⟩, -⟩ := h'
  | _ :: _, [], h, h' => by
    obtain rfl : vs = [] := h'
    obtain ⟨_, _, ⟨⟩, -⟩ := h
  | j :: js, j' :: js', h, h' => by
    obtain ⟨v, rest, rfl, hv, hrest⟩ := h
    obtain ⟨_, _, ⟨⟩, hv', hrest'⟩ := h'
    rw [Content.unique j j' hv hv', ContentItems.unique js js' hrest hrest']
theorem ContentEntries.unique {es : Assoc Scalar Value} : (js js' : List (Scalar × Json)) →
    s.ContentEntries P es js → s.ContentEntries Q es js' → js = js'
  | [], [], _, _ => rfl
  | [], _ :: _, h, h' => by
    obtain rfl : es = [] := h
    obtain ⟨_, _, ⟨⟩, -⟩ := h'
  | _ :: _, [], h, h' => by
    obtain rfl : es = [] := h'
    obtain ⟨_, _, ⟨⟩, -⟩ := h
  | (k, j) :: js, (k', j') :: js', h, h' => by
    obtain ⟨v, rest, rfl, hv, hrest⟩ := h
    obtain ⟨_, _, ⟨⟩, hv', hrest'⟩ := h'
    rw [Content.unique j j' hv hv', ContentEntries.unique js js' hrest hrest']
end

mutual
/-- A container does not come up in a value whose content is smaller, or is not the same. -/
theorem Content.avoids {m : Ref} {jm : Json} (hm : s.Content Q (.node m) jm) {v : Value} :
    (j : Json) → sizeOf j < sizeOf jm → s.Content P v j → s.Content (fun r => P r ∧ r ≠ m) v j
  | .scalar _, _, h => h
  | .list js, hlt, h => by
    have hne : ∀ r, v = .node r → r ≠ m := by
      rintro r rfl rfl
      rw [Content.unique _ _ h hm] at hlt
      exact Nat.lt_irrefl _ hlt
    obtain ⟨r, n, vs, hv, hr, hn, hbody, hitems⟩ := h
    have hlt' : sizeOf js < sizeOf jm := by
      simp only [Json.list.sizeOf_spec] at hlt
      omega
    exact ⟨r, n, vs, hv, ⟨hr, hne r hv⟩, hn, hbody, ContentItems.avoids hm js hlt' hitems⟩
  | .map js, hlt, h => by
    have hne : ∀ r, v = .node r → r ≠ m := by
      rintro r rfl rfl
      rw [Content.unique _ _ h hm] at hlt
      exact Nat.lt_irrefl _ hlt
    obtain ⟨r, n, es, hv, hr, hn, hbody, hentries⟩ := h
    have hlt' : sizeOf js < sizeOf jm := by
      simp only [Json.map.sizeOf_spec] at hlt
      omega
    exact ⟨r, n, es, hv, ⟨hr, hne r hv⟩, hn, hbody, ContentEntries.avoids hm js hlt' hentries⟩
theorem ContentItems.avoids {m : Ref} {jm : Json} (hm : s.Content Q (.node m) jm)
    {vs : List Value} : (js : List Json) → sizeOf js < sizeOf jm → s.ContentItems P vs js →
      s.ContentItems (fun r => P r ∧ r ≠ m) vs js
  | [], _, h => h
  | j :: js, hlt, h => by
    obtain ⟨v, rest, rfl, hv, hrest⟩ := h
    simp only [List.cons.sizeOf_spec] at hlt
    exact ⟨v, rest, rfl, Content.avoids hm j (by omega) hv,
      ContentItems.avoids hm js (by omega) hrest⟩
theorem ContentEntries.avoids {m : Ref} {jm : Json} (hm : s.Content Q (.node m) jm)
    {es : Assoc Scalar Value} : (js : List (Scalar × Json)) → sizeOf js < sizeOf jm →
      s.ContentEntries P es js → s.ContentEntries (fun r => P r ∧ r ≠ m) es js
  | [], _, h => h
  | (k, j) :: js, hlt, h => by
    obtain ⟨v, rest, rfl, hv, hrest⟩ := h
    simp only [List.cons.sizeOf_spec, Prod.mk.sizeOf_spec] at hlt
    exact ⟨v, rest, rfl, Content.avoids hm j (by omega) hv,
      ContentEntries.avoids hm js (by omega) hrest⟩
end

/-- A container on the way is one more to be avoided. -/
theorem ContentItems.below {path : List Ref} {r : Ref} {n : Node} {vs : List Value}
    {js : List Json} (hr : r ∉ path) (hn : s.get? r = some n) (hbody : n.body = .list vs)
    (h : s.ContentItems (· ∉ path) vs js) : s.ContentItems (· ∉ r :: path) vs js := by
  have hself : s.Content (· ∉ path) (.node r) (.list js) := ⟨r, n, vs, rfl, hr, hn, hbody, h⟩
  have hlt : sizeOf js < sizeOf (Json.list js) := by simp
  refine ContentItems.later (fun q n' hq hn' => ⟨?_, n', hn', rfl⟩) js
    (ContentItems.avoids hself js hlt h)
  simpa using And.comm.mp hq

theorem ContentEntries.below {path : List Ref} {r : Ref} {n : Node} {es : Assoc Scalar Value}
    {js : List (Scalar × Json)} (hr : r ∉ path) (hn : s.get? r = some n) (hbody : n.body = .map es)
    (h : s.ContentEntries (· ∉ path) es js) : s.ContentEntries (· ∉ r :: path) es js := by
  have hself : s.Content (· ∉ path) (.node r) (.map js) := ⟨r, n, es, rfl, hr, hn, hbody, h⟩
  have hlt : sizeOf js < sizeOf (Json.map js) := by simp
  refine ContentEntries.later (fun q n' hq hn' => ⟨?_, n', hn', rfl⟩) js
    (ContentEntries.avoids hself js hlt h)
  simpa using And.comm.mp hq

mutual
/-- A content is nested no deeper than there are containers besides those on the way to it. -/
theorem Content.depth_le {path : List Ref} (hnodup : path.Nodup)
    (hlt : ∀ p ∈ path, p < s.nodes.size) {v : Value} :
    (j : Json) → s.Content (· ∉ path) v j → path.length + j.depth ≤ s.nodes.size
  | .scalar _, _ => length_le_size hnodup hlt
  | .list js, h => by
    obtain ⟨r, n, vs, -, hr, hn, hbody, hitems⟩ := h
    have hinside := ContentItems.depth_le (List.nodup_cons.mpr ⟨hr, hnodup⟩)
      (List.forall_mem_cons.mpr ⟨get?_lt hn, hlt⟩) js (hitems.below hr hn hbody)
    rw [List.length_cons] at hinside
    rw [depth]
    omega
  | .map js, h => by
    obtain ⟨r, n, es, -, hr, hn, hbody, hentries⟩ := h
    have hinside := ContentEntries.depth_le (List.nodup_cons.mpr ⟨hr, hnodup⟩)
      (List.forall_mem_cons.mpr ⟨get?_lt hn, hlt⟩) js (hentries.below hr hn hbody)
    rw [List.length_cons] at hinside
    rw [depth]
    omega
theorem ContentItems.depth_le {path : List Ref} (hnodup : path.Nodup)
    (hlt : ∀ p ∈ path, p < s.nodes.size) {vs : List Value} :
    (js : List Json) → s.ContentItems (· ∉ path) vs js →
      path.length + itemsDepth js ≤ s.nodes.size
  | [], _ => length_le_size hnodup hlt
  | j :: js, h => by
    obtain ⟨v, rest, rfl, hv, hrest⟩ := h
    have hfirst := Content.depth_le hnodup hlt j hv
    have hothers := ContentItems.depth_le hnodup hlt js hrest
    rw [itemsDepth]
    omega
theorem ContentEntries.depth_le {path : List Ref} (hnodup : path.Nodup)
    (hlt : ∀ p ∈ path, p < s.nodes.size) {es : Assoc Scalar Value} :
    (js : List (Scalar × Json)) → s.ContentEntries (· ∉ path) es js →
      path.length + entriesDepth js ≤ s.nodes.size
  | [], _ => length_le_size hnodup hlt
  | (k, j) :: js, h => by
    obtain ⟨v, rest, rfl, hv, hrest⟩ := h
    have hfirst := Content.depth_le hnodup hlt j hv
    have hothers := ContentEntries.depth_le hnodup hlt js hrest
    rw [entriesDepth]
    omega
end

theorem Content.depth_lt (h : s.Content P v j) : j.depth < s.nodes.size + 1 := by
  have hall := Content.depth_le List.nodup_nil nofun j
    (h.mono fun r _ => List.not_mem_nil)
  rw [List.length_nil] at hall
  omega

mutual
theorem Content.snapshotWithin {fuel : Nat} {path : List Ref} {v : Value} :
    (j : Json) → j.depth < fuel → s.Content (· ∉ path) v j →
      (s.snapshotWithin fuel path v).json? = some j
  | .scalar a, _, h => by
    rcases h with rfl | ⟨rfl, mark, rfl⟩ <;> rw [Store.snapshotWithin, Snapshot.json?]
  | .list js, hfuel, h => by
    obtain ⟨r, n, vs, rfl, hr, hn, hbody, hitems⟩ := h
    obtain ⟨fuel, rfl⟩ := Nat.exists_eq_add_one_of_ne_zero (Nat.ne_of_gt (Nat.zero_lt_of_lt hfuel))
    have hshown := ContentItems.snapshots js (Nat.lt_of_succ_lt_succ hfuel)
      (hitems.below hr hn hbody)
    rw [Store.snapshotWithin, hn]
    simp only [List.contains_eq_mem, hr, decide_false, Bool.false_eq_true, if_false, hbody,
      Snapshot.json?, hshown, Option.map_some]
  | .map js, hfuel, h => by
    obtain ⟨r, n, es, rfl, hr, hn, hbody, hentries⟩ := h
    obtain ⟨fuel, rfl⟩ := Nat.exists_eq_add_one_of_ne_zero (Nat.ne_of_gt (Nat.zero_lt_of_lt hfuel))
    have hshown := ContentEntries.snapshots js (Nat.lt_of_succ_lt_succ hfuel)
      (hentries.below hr hn hbody)
    rw [Store.snapshotWithin, hn]
    simp only [List.contains_eq_mem, hr, decide_false, Bool.false_eq_true, if_false, hbody,
      Snapshot.json?, hshown, Option.map_some]
theorem ContentItems.snapshots {fuel : Nat} {path : List Ref} {vs : List Value} :
    (js : List Json) → itemsDepth js < fuel → s.ContentItems (· ∉ path) vs js →
      Snapshot.itemsJson? (vs.map (s.snapshotWithin fuel path)) = some js
  | [], _, h => by
    obtain rfl : vs = [] := h
    rfl
  | j :: js, hfuel, h => by
    obtain ⟨v, rest, rfl, hv, hrest⟩ := h
    rw [itemsDepth] at hfuel
    have hfirst := Content.snapshotWithin j (show j.depth < fuel by omega) hv
    have hothers := ContentItems.snapshots js (show itemsDepth js < fuel by omega) hrest
    rw [List.map_cons, Snapshot.itemsJson?, hfirst, hothers]
    rfl
theorem ContentEntries.snapshots {fuel : Nat} {path : List Ref} {es : Assoc Scalar Value} :
    (js : List (Scalar × Json)) → entriesDepth js < fuel → s.ContentEntries (· ∉ path) es js →
      Snapshot.entriesJson? (es.map fun e => (e.1, s.snapshotWithin fuel path e.2)) = some js
  | [], _, h => by
    obtain rfl : es = [] := h
    rfl
  | (k, j) :: js, hfuel, h => by
    obtain ⟨v, rest, rfl, hv, hrest⟩ := h
    rw [entriesDepth] at hfuel
    have hfirst := Content.snapshotWithin j (show j.depth < fuel by omega) hv
    have hothers := ContentEntries.snapshots js (show entriesDepth js < fuel by omega) hrest
    rw [List.map_cons, Snapshot.entriesJson?, hfirst, hothers]
    rfl
end

/-- A value looks like its content. -/
theorem Content.json? (h : s.Content P v j) : (s.snapshot v).json? = some j := by
  have hdepth := h.depth_lt
  exact Content.snapshotWithin j (by omega) (h.mono fun r _ => List.not_mem_nil)

end Store
end Exemplar
