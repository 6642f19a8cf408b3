import Exemplar.Proofs.Nodes
import Exemplar.Store.Parent

/-! Trees of new nodes. Rebuilding a value adds every container after the one that is to hold it, so
the numbers grow on every way down: no way comes back to where it was, and what is added or changed
elsewhere later does not change what was built. -/
namespace Exemplar

namespace Snapshot

mutual
def refs : Snapshot → List Ref
  | .list r _ items => r :: itemsRefs items
  | .map r _ entries => r :: entriesRefs entries
  | _ => []
def itemsRefs : List Snapshot → List Ref
  | [] => []
  | x :: xs => refs x ++ itemsRefs xs
def entriesRefs : List (Scalar × Snapshot) → List Ref
  | [] => []
  | (_, x) :: xs => refs x ++ entriesRefs xs
end

end Snapshot

namespace Store

def Held (s : Store) (holder : Ref) : Value → Prop
  | .node c => s.parent? c = some holder
  | _ => True

mutual
/-- A value looks like this, in linked containers numbered from `low` on, each holding later ones
only and being their parent. -/
def Shows (s : Store) (low : Ref) (v : Value) : Snapshot → Prop
  | .scalar a => v = .scalar a
  | .nan mark => v = .nan mark
  | .list r mark ys =>
    v = .node r ∧ low ≤ r ∧ mark.form.Links ∧ ∃ vs parent,
      s.get? r = some ⟨.list vs, mark.form, mark.type, parent, []⟩ ∧ ShowsItems s r vs ys
  | .map r mark ys =>
    v = .node r ∧ low ≤ r ∧ mark.form.Links ∧ ∃ es parent,
      s.get? r = some ⟨.map es, mark.form, mark.type, parent, []⟩ ∧ ShowsEntries s r es ys
  | _ => False
def ShowsItems (s : Store) (holder : Ref) (vs : List Value) : List Snapshot → Prop
  | [] => vs = []
  | y :: ys => ∃ v rest, vs = v :: rest ∧
    Shows s (holder + 1) v y ∧ s.Held holder v ∧ ShowsItems s holder rest ys
def ShowsEntries (s : Store) (holder : Ref) (es : Assoc Scalar Value) :
    List (Scalar × Snapshot) → Prop
  | [] => es = []
  | (k, y) :: ys => ∃ v rest, es = (k, v) :: rest ∧
    Shows s (holder + 1) v y ∧ s.Held holder v ∧ ShowsEntries s holder rest ys
end

theorem Shows.bounds {s : Store} {low c : Ref} {y : Snapshot} (h : s.Shows low (.node c) y) :
    low ≤ c ∧ c < s.nodes.size := by
  cases y with
  | list r mark ys =>
    obtain ⟨⟨⟩, hlow, -, vs, parent, hr, -⟩ := h
    exact ⟨hlow, get?_lt hr⟩
  | map r mark ys =>
    obtain ⟨⟨⟩, hlow, -, es, parent, hr, -⟩ := h
    exact ⟨hlow, get?_lt hr⟩
  | scalar a => cases h
  | nan mark => cases h
  | _ => exact h.elim

theorem Shows.weaken {s : Store} {low low' : Ref} {v : Value} {y : Snapshot} (h : s.Shows low v y)
    (hle : low' ≤ low) : s.Shows low' v y := by
  cases y with
  | list r mark ys =>
    obtain ⟨hv, hlow, hrest⟩ := h
    exact ⟨hv, Nat.le_trans hle hlow, hrest⟩
  | map r mark ys =>
    obtain ⟨hv, hlow, hrest⟩ := h
    exact ⟨hv, Nat.le_trans hle hlow, hrest⟩
  | _ => exact h

/-- Two stores have the same nodes from a number on, as far as the first one goes. -/
def SameFrom (s s' : Store) (low : Ref) : Prop :=
  ∀ r, low ≤ r → r < s.nodes.size → s'.get? r = s.get? r

variable {s s' : Store}

theorem SameFrom.mono {low low' : Ref} (h : SameFrom s s' low) (hle : low ≤ low') :
    SameFrom s s' low' :=
  fun r hr hlt => h r (Nat.le_trans hle hr) hlt

theorem SameFrom.get? {low r : Ref} {n : Node} (h : SameFrom s s' low) (hlow : low ≤ r)
    (hr : s.get? r = some n) : s'.get? r = some n := by
  rw [h r hlow (get?_lt hr), hr]

theorem Held.of_same {holder low : Ref} {v : Value} {y : Snapshot} (h : SameFrom s s' low)
    (hv : s.Shows low v y) (hheld : s.Held holder v) : s'.Held holder v := by
  cases v with
  | node c =>
    obtain ⟨hlow, hlt⟩ := hv.bounds
    have hc := h c hlow hlt
    rw [Held, parent?] at hheld ⊢
    rw [hc, hheld]
  | _ => trivial

mutual
/-- What is not changed looks the same. -/
theorem Shows.of_same {low : Ref} {v : Value} (h : SameFrom s s' low) :
    (y : Snapshot) → s.Shows low v y → s'.Shows low v y
  | .scalar _, hv => hv
  | .nan _, hv => hv
  | .list r mark ys, hv => by
    obtain ⟨hnode, hlow, hlinks, vs, parent, hr, hitems⟩ := hv
    exact ⟨hnode, hlow, hlinks, vs, parent, h.get? hlow hr,
      ShowsItems.of_same (h.mono (Nat.le_succ_of_le hlow)) ys hitems⟩
  | .map r mark ys, hv => by
    obtain ⟨hnode, hlow, hlinks, es, parent, hr, hentries⟩ := hv
    exact ⟨hnode, hlow, hlinks, es, parent, h.get? hlow hr,
      ShowsEntries.of_same (h.mono (Nat.le_succ_of_le hlow)) ys hentries⟩
theorem ShowsItems.of_same {holder : Ref} {vs : List Value} (h : SameFrom s s' (holder + 1)) :
    (ys : List Snapshot) → s.ShowsItems holder vs ys → s'.ShowsItems holder vs ys
  | [], hvs => hvs
  | y :: ys, hvs => by
    obtain ⟨v, rest, heq, hv, hheld, hrest⟩ := hvs
    exact ⟨v, rest, heq, hv.of_same h y, hheld.of_same h hv, ShowsItems.of_same h ys hrest⟩
theorem ShowsEntries.of_same {holder : Ref} {es : Assoc Scalar Value}
    (h : SameFrom s s' (holder + 1)) :
    (ys : List (Scalar × Snapshot)) → s.ShowsEntries holder es ys → s'.ShowsEntries holder es ys
  | [], hes => hes
  | (k, y) :: ys, hes => by
    obtain ⟨v, rest, heq, hv, hheld, hrest⟩ := hes
    exact ⟨v, rest, heq, Shows.of_same h y hv, hheld.of_same h hv,
      ShowsEntries.of_same h ys hrest⟩
end

/-- Linking the container that a value stands for leaves alone what it looks like. -/
theorem Shows.linked {low c : Ref} {y : Snapshot} (h : s.Shows low (.node c) y)
    (parent : Option Ref) :
    (s.modify c fun n => { n with parent, attributes := n.attributes.erase parentLink }).Shows low
      (.node c) y := by
  have hsame : SameFrom s
      (s.modify c fun n => { n with parent, attributes := n.attributes.erase parentLink }) (c + 1) :=
    fun r hr _ => get?_modify_ne (Nat.ne_of_gt hr) _
  cases y with
  | list r mark ys =>
    obtain ⟨⟨⟩, hlow, hlinks, vs, _, hr, hitems⟩ := h
    exact ⟨rfl, hlow, hlinks, vs, parent, get?_modify_self hr _, hitems.of_same hsame⟩
  | map r mark ys =>
    obtain ⟨⟨⟩, hlow, hlinks, es, _, hr, hentries⟩ := h
    exact ⟨rfl, hlow, hlinks, es, parent, get?_modify_self hr _, hentries.of_same hsame⟩
  | scalar a => cases h
  | nan mark => cases h
  | _ => exact h.elim

theorem fuel_below {low r size fuel : Nat} (hlow : low ≤ r) (hlt : r < size)
    (hfuel : size < low + fuel) : ∃ f, fuel = f + 1 ∧ size < r + 1 + f :=
  ⟨fuel - 1, by omega, by omega⟩

/-- A way to earlier containers does not come by a later one, and goes on below it. -/
theorem path_below {low r : Nat} {path : List Nat} (hlow : low ≤ r) (hpath : ∀ p ∈ path, p < low) :
    path.contains r = false ∧ ∀ p ∈ r :: path, p < r + 1 := by
  constructor
  · simpa using fun hmem => Nat.lt_irrefl r (Nat.lt_of_lt_of_le (hpath r hmem) hlow)
  · intro p hp
    rcases List.mem_cons.mp hp with rfl | hp
    · exact Nat.lt_succ_self p
    · exact Nat.lt_succ_of_lt (Nat.lt_of_lt_of_le (hpath p hp) hlow)

mutual
/-- A tree of new nodes is seen as a whole: no way through it is cut off. -/
theorem Shows.snapshotWithin {low fuel : Nat} {path : List Ref} {v : Value}
    (hpath : ∀ p ∈ path, p < low) (hfuel : s.nodes.size < low + fuel) :
    (y : Snapshot) → s.Shows low v y → s.snapshotWithin fuel path v = y
  | .scalar a, hv => by
    rw [show v = .scalar a from hv, Store.snapshotWithin]
  | .nan mark, hv => by
    rw [show v = .nan mark from hv, Store.snapshotWithin]
  | .list r mark ys, hv => by
    obtain ⟨rfl, hlow, hlinks, vs, parent, hr, hitems⟩ := hv
    obtain ⟨fuel, rfl, hbelow⟩ := fuel_below hlow (get?_lt hr) hfuel
    obtain ⟨hfree, hway⟩ := path_below hlow hpath
    have hshown := hitems.snapshots hway hbelow ys
    rw [Store.snapshotWithin, hr]
    simp only [hfree, Bool.false_eq_true, if_false, hshown]
  | .map r mark ys, hv => by
    obtain ⟨rfl, hlow, hlinks, es, parent, hr, hentries⟩ := hv
    obtain ⟨fuel, rfl, hbelow⟩ := fuel_below hlow (get?_lt hr) hfuel
    obtain ⟨hfree, hway⟩ := path_below hlow hpath
    have hshown := hentries.snapshots hway hbelow ys
    rw [Store.snapshotWithin, hr]
    simp only [hfree, Bool.false_eq_true, if_false, hshown]
theorem ShowsItems.snapshots {holder fuel : Nat} {path : List Ref} {vs : List Value}
    (hpath : ∀ p ∈ path, p < holder + 1) (hfuel : s.nodes.size < holder + 1 + fuel) :
    (ys : List Snapshot) → s.ShowsItems holder vs ys → vs.map (s.snapshotWithin fuel path) = ys
  | [], hvs => by rw [show vs = [] from hvs, List.map_nil]
  | y :: ys, hvs => by
    obtain ⟨v, rest, rfl, hv, -, hrest⟩ := hvs
    rw [List.map_cons, hv.snapshotWithin hpath hfuel y, hrest.snapshots hpath hfuel ys]
theorem ShowsEntries.snapshots {holder fuel : Nat} {path : List Ref} {es : Assoc Scalar Value}
    (hpath : ∀ p ∈ path, p < holder + 1) (hfuel : s.nodes.size < holder + 1 + fuel) :
    (ys : List (Scalar × Snapshot)) → s.ShowsEntries holder es ys →
      es.map (fun (k, v) => (k, s.snapshotWithin fuel path v)) = ys
  | [], hes => by rw [show es = [] from hes, List.map_nil]
  | (k, y) :: ys, hes => by
    obtain ⟨v, rest, rfl, hv, -, hrest⟩ := hes
    simp only [List.map_cons, Shows.snapshotWithin hpath hfuel y hv,
      hrest.snapshots hpath hfuel ys]
end

/-- What a tree of new nodes looks like. -/
theorem Shows.snapshot_eq {low : Ref} {v : Value} {y : Snapshot} (h : s.Shows low v y) :
    s.snapshot v = y := by
  have hfuel : s.nodes.size < 2 * s.nodes.size + 2 := by omega
  exact h.snapshotWithin (by simp) (Nat.lt_of_lt_of_le hfuel (Nat.le_add_left _ _)) y

theorem ShowsEntries.snapshot_eq {m : Ref} {es : Assoc Scalar Value} {form : Form}
    {type : Option NodeType} {parent : Option Ref} {ys : List (Scalar × Snapshot)}
    (h : s.ShowsEntries m es ys) (hm : s.get? m = some ⟨.map es, form, type, parent, []⟩) :
    s.snapshot (.node m) = .map m ⟨form, type⟩ ys := by
  have hfuel : s.nodes.size < m + 1 + (2 * s.nodes.size + 1) := by omega
  have hpath : ∀ p ∈ [m], p < m + 1 := by simp
  have hshown := h.snapshots hpath hfuel ys
  rw [snapshot, Store.snapshotWithin, hm]
  simp only [List.contains_nil, Bool.false_eq_true, if_false, hshown]

/-- A value was made fit to be stored into a container: its parent is set if it has one, and nothing
else changed. -/
structure Adopted (s : Store) (low : Ref) (v : Value) (y : Snapshot) (holder : Ref)
    (s' : Store) : Prop where
  run : (StoreM.adoptInto v (some holder)).run s = (.ok v, s')
  shows : s'.Shows low v y
  held : s'.Held holder v
  unchanged : ∀ r, r < low → s'.get? r = s.get? r
  size : s'.nodes.size = s.nodes.size

theorem Shows.adopted_node {low c : Ref} {y : Snapshot} (h : s.Shows low (.node c) y) {n : Node}
    (hc : s.get? c = some n) (hlinks : n.form.Links) (ha : n.attributes = []) (holder : Ref) :
    ∃ s', s.Adopted low (.node c) y holder s' := by
  refine ⟨_, StoreM.run_adoptInto_node hc hlinks ha (some holder), h.linked (some holder), ?_,
    fun r hr => ?_, size_modify s c _⟩
  · rw [Held, parent?, get?_modify_self hc]
    rfl
  · exact get?_modify_ne (Nat.ne_of_lt (Nat.lt_of_lt_of_le hr h.bounds.1)) _

/-- A tree of new nodes can be stored into every container. -/
theorem Shows.adopted {low : Ref} {v : Value} {y : Snapshot} (h : s.Shows low v y) (holder : Ref) :
    ∃ s', s.Adopted low v y holder s' := by
  cases y with
  | scalar a =>
    obtain rfl : v = .scalar a := h
    exact ⟨s, rfl, rfl, trivial, fun _ _ => rfl, rfl⟩
  | nan mark =>
    obtain rfl : v = .nan mark := h
    exact ⟨s, rfl, rfl, trivial, fun _ _ => rfl, rfl⟩
  | list r mark ys =>
    obtain ⟨rfl, -, hlinks, vs, parent, hr, -⟩ := id h
    exact h.adopted_node hr hlinks rfl holder
  | map r mark ys =>
    obtain ⟨rfl, -, hlinks, es, parent, hr, -⟩ := id h
    exact h.adopted_node hr hlinks rfl holder
  | _ => exact h.elim

theorem ShowsItems.held {holder : Ref} {vs : List Value} {ys : List Snapshot}
    (h : s.ShowsItems holder vs ys) : ∀ v ∈ vs, s.Held holder v := by
  induction ys generalizing vs with
  | nil =>
    rw [show vs = [] from h]
    simp
  | cons y ys ih =>
    obtain ⟨v, rest, rfl, -, hheld, hrest⟩ := h
    exact List.forall_mem_cons.mpr ⟨hheld, ih hrest⟩

theorem ShowsEntries.held {holder : Ref} {es : Assoc Scalar Value} {ys : List (Scalar × Snapshot)}
    (h : s.ShowsEntries holder es ys) : ∀ v ∈ es.map Prod.snd, s.Held holder v := by
  induction ys generalizing es with
  | nil =>
    rw [show es = [] from h]
    simp
  | cons e ys ih =>
    obtain ⟨v, rest, rfl, -, hheld, hrest⟩ := h
    exact List.forall_mem_cons.mpr ⟨hheld, ih hrest⟩

/-- A container that holds values whose parent it is. -/
theorem parent_of_held {holder c : Ref} {vs : List Value} (h : ∀ v ∈ vs, s.Held holder v)
    (hc : c ∈ vs.filterMap fun | .node c => some c | _ => none) : s.parent? c = some holder := by
  obtain ⟨v, hv, heq⟩ := List.mem_filterMap.mp hc
  cases v with
  | node r =>
    obtain rfl : r = c := Option.some.inj heq
    exact h _ hv
  | _ => cases heq

/-- A container of a tree of new nodes: it is numbered from `low` on, and it is the parent of all
containers that it holds. -/
def Keeps (s : Store) (low r : Ref) : Prop :=
  low ≤ r ∧ ∀ c ∈ s.childrenOf r, s.parent? c = some r

theorem Keeps.weaken {low low' r : Ref} (h : s.Keeps low r) (hle : low' ≤ low) : s.Keeps low' r :=
  ⟨Nat.le_trans hle h.1, h.2⟩

mutual
theorem Shows.keeps {low : Ref} {v : Value} :
    (y : Snapshot) → s.Shows low v y → ∀ r ∈ y.refs, s.Keeps low r
  | .scalar _, _ => by simp [Snapshot.refs]
  | .nan _, _ => by simp [Snapshot.refs]
  | .list r mark ys, hv => by
    obtain ⟨rfl, hlow, -, vs, parent, hr, hitems⟩ := hv
    refine List.forall_mem_cons.mpr ⟨⟨hlow, fun c hc => ?_⟩, fun q hq => ?_⟩
    · rw [childrenOf, hr] at hc
      exact parent_of_held hitems.held hc
    · exact (hitems.keeps ys q hq).weaken (Nat.le_succ_of_le hlow)
  | .map r mark ys, hv => by
    obtain ⟨rfl, hlow, -, es, parent, hr, hentries⟩ := hv
    refine List.forall_mem_cons.mpr ⟨⟨hlow, fun c hc => ?_⟩, fun q hq => ?_⟩
    · rw [childrenOf, hr] at hc
      exact parent_of_held hentries.held hc
    · exact (hentries.keeps ys q hq).weaken (Nat.le_succ_of_le hlow)
theorem ShowsItems.keeps {holder : Ref} {vs : List Value} :
    (ys : List Snapshot) → s.ShowsItems holder vs ys →
      ∀ r ∈ Snapshot.itemsRefs ys, s.Keeps (holder + 1) r
  | [], _ => by simp [Snapshot.itemsRefs]
  | y :: ys, hvs => by
    obtain ⟨v, rest, rfl, hv, -, hrest⟩ := hvs
    intro r hr
    rcases List.mem_append.mp hr with hr | hr
    · exact hv.keeps y r hr
    · exact hrest.keeps ys r hr
theorem ShowsEntries.keeps {holder : Ref} {es : Assoc Scalar Value} :
    (ys : List (Scalar × Snapshot)) → s.ShowsEntries holder es ys →
      ∀ r ∈ Snapshot.entriesRefs ys, s.Keeps (holder + 1) r
  | [], _ => by simp [Snapshot.entriesRefs]
  | (k, y) :: ys, hes => by
    obtain ⟨v, rest, rfl, hv, -, hrest⟩ := hes
    intro r hr
    rcases List.mem_append.mp hr with hr | hr
    · exact Shows.keeps y hv r hr
    · exact hrest.keeps ys r hr
end

end Store
end Exemplar
