import Exemplar.Proofs.Holdings

/-! The maps below a container. A view yields them when it is asked, so they are those of the tree as it
is at that moment: in document order, every map before the maps inside it, however many lists lie
between. -/
namespace Exemplar

/-- A tree of containers, each with those that it holds in order. -/
inductive Tree where
  | node (r : Ref) (isMap : Bool) (parts : List Tree)

namespace Tree

def root : Tree → Ref
  | .node r _ _ => r

def parts : Tree → List Tree
  | .node _ _ parts => parts

mutual
def refs : Tree → List Ref
  | .node r _ parts => r :: refsOf parts
def refsOf : List Tree → List Ref
  | [] => []
  | t :: ts => refs t ++ refsOf ts
end

mutual
def maps : Tree → List Ref
  | .node r isMap parts => (if isMap then [r] else []) ++ mapsOf parts
def mapsOf : List Tree → List Ref
  | [] => []
  | t :: ts => maps t ++ mapsOf ts
end

def mapsBelow (t : Tree) : List Ref := mapsOf t.parts

mutual
def Stored (s : Store) : Tree → Prop
  | .node r isMap parts =>
    (∃ n, s.get? r = some n ∧ n.isMap = isMap) ∧ s.childrenOf r = parts.map root ∧ StoredAll s parts
def StoredAll (s : Store) : List Tree → Prop
  | [] => True
  | t :: ts => Stored s t ∧ StoredAll s ts
end

variable {s : Store}

theorem root_mem_refs (t : Tree) : t.root ∈ t.refs := by
  cases t
  simp [root, refs]

theorem mem_refsOf {ts : List Tree} {r : Ref} : r ∈ refsOf ts ↔ ∃ t ∈ ts, r ∈ t.refs := by
  induction ts with
  | nil => simp [refsOf]
  | cons t ts ih => simp [refsOf, ih]

theorem storedAll_iff {ts : List Tree} : StoredAll s ts ↔ ∀ t ∈ ts, t.Stored s := by
  induction ts with
  | nil => simp [StoredAll]
  | cons t ts ih => simp [StoredAll, ih]

mutual
/-- A store has only one tree below a container. -/
theorem Stored.unique : {t t' : Tree} → t.Stored s → t'.Stored s → t.root = t'.root → t = t'
  | .node r isMap parts, .node r' isMap' parts', h, h', hroot => by
    obtain ⟨⟨n, hn, hmap⟩, hchildren, hparts⟩ := h
    obtain ⟨⟨n', hn', hmap'⟩, hchildren', hparts'⟩ := h'
    obtain rfl : r = r' := hroot
    obtain rfl := Option.some.inj (hn.symm.trans hn')
    rw [← hmap, ← hmap', StoredAll.unique hparts hparts' (hchildren.symm.trans hchildren')]
theorem StoredAll.unique : {ts ts' : List Tree} → StoredAll s ts → StoredAll s ts' →
    ts.map root = ts'.map root → ts = ts'
  | [], [], _, _, _ => rfl
  | t :: ts, t' :: ts', h, h', hroots => by
    obtain ⟨hroot, hroots⟩ := List.cons.inj hroots
    rw [h.1.unique h'.1 hroot, StoredAll.unique h.2 h'.2 hroots]
end

mutual
/-- Each container of a tree is the root of a tree that is no larger. -/
theorem Stored.exists_tree {r : Ref} : {t : Tree} → t.Stored s → r ∈ t.refs →
    ∃ u : Tree, u.Stored s ∧ u.root = r ∧ u.refs.length ≤ t.refs.length
  | .node q isMap parts, h, hr => by
    rcases List.mem_cons.mp hr with rfl | hr
    · exact ⟨.node r isMap parts, h, rfl, Nat.le_refl _⟩
    · obtain ⟨u, hu, hroot, hle⟩ := StoredAll.exists_tree h.2.2 hr
      exact ⟨u, hu, hroot, Nat.le_succ_of_le hle⟩
theorem StoredAll.exists_tree {r : Ref} : {ts : List Tree} → StoredAll s ts → r ∈ refsOf ts →
    ∃ u : Tree, u.Stored s ∧ u.root = r ∧ u.refs.length ≤ (refsOf ts).length
  | t :: ts, h, hr => by
    have hlength : (refsOf (t :: ts)).length = t.refs.length + (refsOf ts).length :=
      List.length_append
    rcases List.mem_append.mp hr with hr | hr
    · obtain ⟨u, hu, hroot, hle⟩ := h.1.exists_tree hr
      exact ⟨u, hu, hroot, by omega⟩
    · obtain ⟨u, hu, hroot, hle⟩ := StoredAll.exists_tree h.2 hr
      exact ⟨u, hu, hroot, by omega⟩
end

/-- No container comes up again below itself: the tree below it would be its own part. -/
theorem Stored.not_mem_parts {t : Tree} (h : t.Stored s) : t.root ∉ refsOf t.parts := by
  intro hmem
  obtain ⟨r, isMap, parts⟩ := t
  obtain ⟨u, hu, hroot, hle⟩ := StoredAll.exists_tree h.2.2 hmem
  obtain rfl := hu.unique h hroot
  simp only [refs, List.length_cons] at hle
  omega

end Tree

namespace Store
open Snapshot Value

variable {s : Store} {fuel : Nat} {path : List Ref} {r : Ref}

theorem childrenOf_eq {n : Node} (hn : s.get? r = some n) : s.childrenOf r = refs n.values := by
  unfold childrenOf Node.values
  rw [hn, Option.map_some]
  cases n.body <;> rfl

/-- Containers on the way to another one: each once, and none of them in the tree of that one. -/
structure Above (s : Store) (path : List Ref) (t : Tree) : Prop where
  once : path.Nodup
  found : ∀ p ∈ path, p < s.nodes.size
  apart : ∀ p ∈ path, p ∉ t.refs

theorem not_container {v : Value} (h : v.ref? = none) :
    (s.snapshotWithin fuel path v).isContainer = false := by
  cases v with
  | node r => cases h
  | descendents mark root =>
    cases fuel <;> cases root <;> simp [snapshotWithin, isContainer, Snapshot.ref?]
  | _ => cases fuel <;> simp [snapshotWithin, isContainer, Snapshot.ref?]

/-- The containers that are shown among values are those that the values are. -/
theorem filter_isContainer (vs : List Value) (h : ∀ c ∈ refs vs,
    (s.snapshotWithin fuel path (.node c)).isContainer = true) :
    (vs.map (s.snapshotWithin fuel path)).filter isContainer =
      (refs vs).map fun c => s.snapshotWithin fuel path (.node c) := by
  induction vs with
  | nil => rfl
  | cons v vs ih =>
    rw [List.map_cons, List.filter_cons]
    cases hv : v.ref? with
    | none =>
      rw [refs_cons_other hv] at h ⊢
      rw [not_container hv, if_neg Bool.false_ne_true, ih h]
    | some c =>
      obtain rfl := ref?_eq_some.mp hv
      rw [refs_cons_node] at h ⊢
      obtain ⟨hc, hvs⟩ := List.forall_mem_cons.mp h
      rw [hc, if_pos rfl, ih hvs, List.map_cons]

/-- What is shown of a container: what sort it is, and what is shown of those that it holds. -/
theorem snapshotWithin_container (fuel : Nat) {n : Node} (hn : s.get? r = some n) (hpath : r ∉ path) :
    ((s.snapshotWithin (fuel + 1) path (.node r)).isMap = n.isMap ∧
      (s.snapshotWithin (fuel + 1) path (.node r)).ref? = some r) ∧
    (s.snapshotWithin (fuel + 1) path (.node r)).children =
      (n.values.map (s.snapshotWithin fuel (r :: path))).filter isContainer := by
  have hcontains : path.contains r = false := by simpa using hpath
  rw [snapshotWithin, hn]
  simp only [hcontains, Bool.false_eq_true, if_false, Node.isMap, Node.values]
  cases n.body with
  | map es => simp [Snapshot.isMap, Snapshot.ref?, children, Function.comp_def]
  | list vs => simp [Snapshot.isMap, Snapshot.ref?, children]

/-- Below the containers above a tree there is room for its root. -/
theorem Above.length_lt {t : Tree} (h : s.Above path t) (ht : t.Stored s) :
    path.length < s.nodes.size := by
  obtain ⟨r, isMap, parts⟩ := t
  obtain ⟨n, hn, -⟩ := ht.1
  have honce : (r :: path).Nodup :=
    List.nodup_cons.mpr ⟨fun hr => h.apart r hr (Tree.root_mem_refs _), h.once⟩
  exact length_le_size honce (List.forall_mem_cons.mpr ⟨get?_lt hn, h.found⟩)

theorem Above.part {t u : Tree} (h : s.Above path t) (ht : t.Stored s) (hu : u ∈ t.parts) :
    s.Above (t.root :: path) u := by
  have hroot := ht.not_mem_parts
  obtain ⟨r, isMap, parts⟩ := t
  obtain ⟨n, hn, -⟩ := ht.1
  refine ⟨List.nodup_cons.mpr ⟨fun hr => h.apart r hr (Tree.root_mem_refs _), h.once⟩, ?_, ?_⟩
  · exact List.forall_mem_cons.mpr ⟨get?_lt hn, h.found⟩
  · have hin {p : Ref} (hp : p ∈ u.refs) : p ∈ Tree.refsOf parts := Tree.mem_refsOf.mpr ⟨u, hu, hp⟩
    exact List.forall_mem_cons.mpr ⟨fun hr => hroot (hin hr),
      fun p hp hpu => h.apart p hp (List.mem_cons_of_mem r (hin hpu))⟩

/-- A tree is shown container by container. -/
theorem snapshotWithin_tree {isMap : Bool} {parts : List Tree} (ht : (Tree.node r isMap parts).Stored s)
    (h : s.Above path (.node r isMap parts)) (hfuel : s.nodes.size < fuel + 1 + path.length) :
    (s.snapshotWithin (fuel + 1) path (.node r)).isMap = isMap ∧
      (s.snapshotWithin (fuel + 1) path (.node r)).ref? = some r ∧
      (s.snapshotWithin (fuel + 1) path (.node r)).children =
        parts.map fun u => s.snapshotWithin fuel (r :: path) (.node u.root) := by
  have hroot : r ∉ path := fun hr => h.apart r hr (Tree.root_mem_refs _)
  have hlength := h.length_lt ht
  obtain ⟨⟨n, hn, hmap⟩, hchildren, hparts⟩ := id ht
  obtain ⟨⟨hisMap, href⟩, hshown⟩ := snapshotWithin_container fuel hn hroot
  rw [childrenOf_eq hn] at hchildren
  refine ⟨hisMap.trans hmap, href, ?_⟩
  rw [hshown, filter_isContainer, hchildren, List.map_map]
  · rfl
  · intro c hc
    rw [hchildren] at hc
    obtain ⟨u, hu, rfl⟩ := List.mem_map.mp hc
    have habove : s.Above (r :: path) u := h.part ht hu
    have hstored := Tree.storedAll_iff.mp hparts u hu
    have hout : u.root ∉ r :: path := fun hin => habove.apart _ hin u.root_mem_refs
    obtain ⟨m, hm⟩ : ∃ m, s.get? u.root = some m := by
      obtain ⟨q, _, _⟩ := u
      obtain ⟨⟨m, hm, -⟩, -⟩ := hstored
      exact ⟨m, hm⟩
    obtain ⟨fuel, rfl⟩ : ∃ k, fuel = k + 1 := Nat.exists_eq_add_one_of_ne_zero (by omega)
    rw [isContainer, (snapshotWithin_container fuel hm hout).1.2]
    rfl

mutual
/-- The walk through what is shown of a tree meets the maps of the tree in their order. -/
theorem walk_tree : (t : Tree) → t.Stored s → {fuel : Nat} → {path : List Ref} → s.Above path t →
    s.nodes.size < fuel + path.length → (rest : List Snapshot) →
    (walk (s.snapshotWithin fuel path (.node t.root) :: rest)).filterMap Snapshot.ref? =
      t.maps ++ (walk rest).filterMap Snapshot.ref?
  | .node r isMap parts, ht, fuel, path, h, hfuel, rest => by
    have hlength := h.length_lt ht
    obtain ⟨fuel, rfl⟩ : ∃ k, fuel = k + 1 := Nat.exists_eq_add_one_of_ne_zero (by omega)
    obtain ⟨hisMap, href, hchildren⟩ := snapshotWithin_tree ht h hfuel
    have hbelow := walk_trees parts ht.2.2 (fun u hu => h.part ht hu)
      (by rw [List.length_cons]; omega : s.nodes.size < fuel + (r :: path).length) rest
    rw [walk, Tree.root, hchildren, hisMap, Tree.maps, List.append_assoc, ← hbelow]
    cases isMap with
    | false => rfl
    | true => rw [if_pos rfl, if_pos rfl, List.filterMap_cons, href]; rfl
theorem walk_trees : (ts : List Tree) → Tree.StoredAll s ts → {fuel : Nat} → {path : List Ref} →
    (∀ t ∈ ts, s.Above path t) → s.nodes.size < fuel + path.length → (rest : List Snapshot) →
    (walk (ts.map (fun t => s.snapshotWithin fuel path (.node t.root)) ++ rest)).filterMap
      Snapshot.ref? = Tree.mapsOf ts ++ (walk rest).filterMap Snapshot.ref?
  | [], _, _, _, _, _, _ => rfl
  | t :: ts, hts, fuel, path, h, hfuel, rest => by
    obtain ⟨ht, hts⟩ := hts
    obtain ⟨habove, hmore⟩ := List.forall_mem_cons.mp h
    rw [List.map_cons, List.cons_append, walk_tree t ht habove hfuel, walk_trees ts hts hmore hfuel,
      Tree.mapsOf, List.append_assoc]
end

/-- The maps below the root of a tree, as they are found in the store. -/
theorem mapsBelow_tree {t : Tree} (ht : t.Stored s) : s.mapsBelow t.root = t.mapsBelow := by
  have habove : s.Above [] t := ⟨List.nodup_nil, nofun, nofun⟩
  obtain ⟨r, isMap, parts⟩ := t
  have hfuel : s.nodes.size < 2 * s.nodes.size + 1 + 1 + ([] : List Ref).length := by
    rw [List.length_nil]
    omega
  obtain ⟨-, -, hchildren⟩ := snapshotWithin_tree ht habove hfuel
  have hwalk := walk_trees parts ht.2.2 (fun u hu => habove.part ht hu)
    (by rw [List.length_cons]; omega : s.nodes.size < 2 * s.nodes.size + 1 + [r].length) []
  rw [List.append_nil, walk] at hwalk
  rw [mapsBelow, snapshot, Snapshot.mapsBelow, Tree.root, hchildren]
  exact hwalk.trans (List.append_nil _)

def isMap (s : Store) (r : Ref) : Bool := (s.get? r).any Node.isMap

/-- A walk with a stack, its top at the end. The container on top is taken off and yielded if it is a
map, and what it holds at that time is put on in reverse order. -/
inductive Yields (s : Store) : List Ref → List Ref → Prop
  | done : Yields s [] []
  | list {stack out : List Ref} {r : Ref} (hlist : s.isMap r = false)
      (rest : Yields s (stack ++ (s.childrenOf r).reverse) out) : Yields s (stack ++ [r]) out
  | map {stack out : List Ref} {r : Ref} (hmap : s.isMap r = true)
      (rest : Yields s (stack ++ (s.childrenOf r).reverse) out) : Yields s (stack ++ [r]) (r :: out)

theorem Yields.unique {stack out out' : List Ref} (h : s.Yields stack out)
    (h' : s.Yields stack out') : out = out' := by
  induction h generalizing out' with
  | done =>
    generalize hstack : ([] : List Ref) = stack at h'
    cases h' with
    | done => rfl
    | list => simp at hstack
    | map => simp at hstack
  | @list stack out r hlist rest ih =>
    generalize hstack : stack ++ [r] = stack' at h'
    cases h' with
    | done => simp at hstack
    | list hlist' rest' =>
      obtain ⟨rfl, ⟨⟩⟩ := List.append_inj' hstack rfl
      exact ih rest'
    | map hmap' rest' =>
      obtain ⟨rfl, ⟨⟩⟩ := List.append_inj' hstack rfl
      exact absurd hmap' (by simp [hlist])
  | @map stack out r hmap rest ih =>
    generalize hstack : stack ++ [r] = stack' at h'
    cases h' with
    | done => simp at hstack
    | list hlist' rest' =>
      obtain ⟨rfl, ⟨⟩⟩ := List.append_inj' hstack rfl
      exact absurd hlist' (by simp [hmap])
    | map hmap' rest' =>
      obtain ⟨rfl, ⟨⟩⟩ := List.append_inj' hstack rfl
      rw [ih rest']

theorem isMap_root {isMap : Bool} {parts : List Tree} (ht : (Tree.node r isMap parts).Stored s) :
    s.isMap r = isMap := by
  obtain ⟨⟨n, hn, hmap⟩, -⟩ := ht
  rw [Store.isMap, hn, Option.any_some, hmap]

mutual
/-- With a tree on top of the stack its maps are yielded first, and then what the rest yields. -/
theorem yields_tree : (t : Tree) → t.Stored s → {stack out : List Ref} → s.Yields stack out →
    s.Yields (stack ++ [t.root]) (t.maps ++ out)
  | .node r isMap parts, ht, stack, out, hrest => by
    have hroot := isMap_root ht
    have hparts := yields_trees parts ht.2.2 hrest
    rw [← ht.2.1] at hparts
    rw [Tree.maps, List.append_assoc]
    cases isMap with
    | false => exact .list hroot hparts
    | true => exact .map hroot hparts
theorem yields_trees : (ts : List Tree) → Tree.StoredAll s ts → {stack out : List Ref} →
    s.Yields stack out → s.Yields (stack ++ (ts.map Tree.root).reverse) (Tree.mapsOf ts ++ out)
  | [], _, stack, out, hrest => by
    rw [List.map_nil, List.reverse_nil, List.append_nil]
    exact hrest
  | t :: ts, hts, stack, out, hrest => by
    have hlater := yields_trees ts hts.2 hrest
    rw [List.map_cons, List.reverse_cons, ← List.append_assoc, Tree.mapsOf, List.append_assoc t.maps]
    exact yields_tree t hts.1 hlater
end

mutual
/-- The maps of a tree are those of its containers that are maps, in the same order. -/
theorem maps_eq_filter : (t : Tree) → t.Stored s → t.maps = t.refs.filter s.isMap
  | .node r isMap parts, ht => by
    rw [Tree.maps, Tree.refs, List.filter_cons, isMap_root ht, mapsOf_eq_filter parts ht.2.2]
    cases isMap <;> rfl
theorem mapsOf_eq_filter : (ts : List Tree) → Tree.StoredAll s ts →
    Tree.mapsOf ts = (Tree.refsOf ts).filter s.isMap
  | [], _ => rfl
  | t :: ts, hts => by
    rw [Tree.mapsOf, Tree.refsOf, List.filter_append, maps_eq_filter t hts.1,
      mapsOf_eq_filter ts hts.2]
end

/-- A view yields the maps of the tree that is there when it is asked, whenever it was made: all but the
root, each before the maps inside it. It takes a walk with a stack to find them, and the walk ends. -/
theorem elements_view {s₀ s₁ : Store} {t : Tree} {view : Value} (ht : t.Stored s)
    (hview : (StoreM.viewOf (some t.root)).run s₀ = (.ok view, s₁)) :
    (StoreM.elements view).run s = (.ok (t.mapsBelow.map .node), s) ∧
      (∀ out, s.Yields (s.childrenOf t.root).reverse out ↔ t.mapsBelow = out) ∧
      t.mapsBelow = t.refs.tail.filter s.isMap ∧ (t.refs.Nodup → t.mapsBelow.Nodup) := by
  have hbelow : t.mapsBelow = t.refs.tail.filter s.isMap := by
    obtain ⟨r, isMap, parts⟩ := t
    exact mapsOf_eq_filter parts ht.2.2
  refine ⟨?elements, fun out => ?yields, hbelow, fun honce => ?once⟩
  case elements =>
    obtain ⟨⟨⟩, -⟩ := Prod.mk.inj hview
    rw [StoreM.elements, StoreM.run_bind (StoreM.run_get s), mapsBelow_tree ht]
    rfl
  case yields =>
    have hyields : s.Yields (s.childrenOf t.root).reverse t.mapsBelow := by
      obtain ⟨r, isMap, parts⟩ := t
      have hparts := yields_trees parts ht.2.2 .done
      rw [List.nil_append, List.append_nil, ← ht.2.1] at hparts
      exact hparts
    exact ⟨hyields.unique, fun hout => hout ▸ hyields⟩
  case once =>
    rw [hbelow]
    exact (honce.sublist (List.tail_sublist _)).filter _

def nestedStore : Store where
  nodes := #[
    { body := .map [(.str "a", .node 1), (.str "b", .null), (.str "c", .node 4)], form := .linked },
    { body := .list [.node 2, .scalar (.int 1), .node 3], form := .linked, parent := some 0 },
    { body := .list [.node 5], form := .plain },
    { body := .map [], form := .linked, parent := some 1 },
    { body := .map [(.str "x", .node 6)], form := .plain },
    { body := .map [], form := .plain },
    { body := .map [], form := .plain }]

def nestedTree : Tree :=
  .node 0 true [
    .node 1 false [.node 2 false [.node 5 true []], .node 3 true []],
    .node 4 true [.node 6 true []]]

def earlierStore : Store where
  nodes := #[{ body := .map [], form := .linked }]

theorem elements_view_nested :
    nestedTree.Stored nestedStore ∧ nestedTree.refs.Nodup ∧
      (StoreM.viewOf (some 0)).run earlierStore =
        (.ok (.descendents 0 (some 0)), { earlierStore with marks := 1 }) ∧
      (StoreM.elements (.descendents 0 (some 0))).run nestedStore =
        (.ok [.node 5, .node 3, .node 4, .node 6], nestedStore) := by
  have hview : (StoreM.viewOf (some 0)).run earlierStore =
    (.ok (.descendents 0 (some 0)), { earlierStore with marks := 1 }) := rfl
  have hlist : (Tree.node 1 false [.node 2 false [.node 5 true []], .node 3 true []]).Stored
      nestedStore :=
    ⟨⟨_, rfl, rfl⟩, rfl, ⟨⟨_, rfl, rfl⟩, rfl, ⟨⟨_, rfl, rfl⟩, rfl, ⟨⟩⟩, ⟨⟩⟩,
      ⟨⟨_, rfl, rfl⟩, rfl, ⟨⟩⟩, ⟨⟩⟩
  have hmap : (Tree.node 4 true [.node 6 true []]).Stored nestedStore :=
    ⟨⟨_, rfl, rfl⟩, rfl, ⟨⟨_, rfl, rfl⟩, rfl, ⟨⟩⟩, ⟨⟩⟩
  have ht : nestedTree.Stored nestedStore := ⟨⟨_, rfl, rfl⟩, rfl, hlist, hmap, ⟨⟩⟩
  exact ⟨ht, by decide, hview, (elements_view ht hview).1⟩

end Store
end Exemplar
