import Exemplar.Proofs.ListChanges
import Exemplar.Proofs.PlainDocuments
import Exemplar.Store.Operation

/-! Lists that are filled with plain data. Every operation that stores plain data into a bound list
binds each item like an item of a bound document, and links it to the list; what it replaces loses
its link only. So the list holds the bound items in the order that the same operations give a list
of plain trees. -/
namespace Exemplar
open StoreM

namespace Store

variable {s s' : Store}

theorem Shows.found {low c : Ref} {y : Snapshot} (h : s.Shows low (.node c) y) :
    ∃ n, s.get? c = some n ∧ n.form.Links ∧ n.attributes = [] := by
  cases y with
  | list r mark ys =>
    obtain ⟨⟨⟩, -, hlinks, vs, parent, hr, -⟩ := h
    exact ⟨_, hr, hlinks, rfl⟩
  | map r mark ys =>
    obtain ⟨⟨⟩, -, hlinks, es, parent, hr, -⟩ := h
    exact ⟨_, hr, hlinks, rfl⟩
  | scalar a => cases h
  | nan mark => cases h
  | _ => exact h.elim

theorem Held.relinked {holder c : Ref} {v : Value} {parent : Option Ref} (h : s.Held holder v)
    (hc : v ≠ .node c) : (s.modify c (linkedTo parent)).Held holder v := by
  cases v with
  | node r =>
    have hne : r ≠ c := fun heq => hc (by rw [heq])
    rw [Held, parent?] at h ⊢
    rw [get?_modify_ne hne]
    exact h
  | _ => trivial

theorem Held.ne_of_parent {holder c : Ref} {v : Value} (h : s.Held holder v)
    (hc : s.parent? c ≠ some holder) : v ≠ .node c := by
  rintro rfl
  exact hc h

mutual
/-- A tree of new nodes looks the same when one of them is linked that hangs below none of them. -/
theorem Shows.relinked {low c : Ref} {v : Value} {parent : Option Ref}
    (hc : ∀ p, s.parent? c = some p → p < low) :
    (y : Snapshot) → s.Shows low v y → (s.modify c (linkedTo parent)).Shows low v y
  | .scalar _, hv => hv
  | .nan _, hv => hv
  | .list r mark ys, hv => by
    obtain ⟨rfl, hlow, hlinks, vs, q, hr, hitems⟩ := hv
    have hinside : (s.modify c (linkedTo parent)).ShowsItems r vs ys := ShowsItems.relinked
      (fun p hp => Nat.lt_of_lt_of_le (hc p hp) hlow) ys hitems
    by_cases hrc : r = c
    · subst hrc
      exact ⟨rfl, hlow, hlinks, vs, parent, get?_modify_self hr _, hinside⟩
    · exact ⟨rfl, hlow, hlinks, vs, q, (get?_modify_ne hrc _).trans hr, hinside⟩
  | .map r mark ys, hv => by
    obtain ⟨rfl, hlow, hlinks, es, q, hr, hentries⟩ := hv
    have hinside : (s.modify c (linkedTo parent)).ShowsEntries r es ys := ShowsEntries.relinked
      (fun p hp => Nat.lt_of_lt_of_le (hc p hp) hlow) ys hentries
    by_cases hrc : r = c
    · subst hrc
      exact ⟨rfl, hlow, hlinks, es, parent, get?_modify_self hr _, hinside⟩
    · exact ⟨rfl, hlow, hlinks, es, q, (get?_modify_ne hrc _).trans hr, hinside⟩
theorem ShowsItems.relinked {holder c : Ref} {vs : List Value} {parent : Option Ref}
    (hc : ∀ p, s.parent? c = some p → p < holder) :
    (ys : List Snapshot) → s.ShowsItems holder vs ys → (s.modify c (linkedTo parent)).ShowsItems holder vs ys
  | [], hvs => hvs
  | y :: ys, hvs => by
    obtain ⟨v, rest, heq, hv, hheld, hrest⟩ := hvs
    have hother := hheld.ne_of_parent fun hp => Nat.lt_irrefl _ (hc _ hp)
    exact ⟨v, rest, heq, hv.relinked (fun p hp => Nat.lt_succ_of_lt (hc p hp)) y,
      hheld.relinked hother, ShowsItems.relinked hc ys hrest⟩
theorem ShowsEntries.relinked {holder c : Ref} {es : Assoc Scalar Value} {parent : Option Ref}
    (hc : ∀ p, s.parent? c = some p → p < holder) :
    (ys : List (Scalar × Snapshot)) → s.ShowsEntries holder es ys →
      (s.modify c (linkedTo parent)).ShowsEntries holder es ys
  | [], hes => hes
  | (k, y) :: ys, hes => by
    obtain ⟨v, rest, heq, hv, hheld, hrest⟩ := hes
    have hother := hheld.ne_of_parent fun hp => Nat.lt_irrefl _ (hc _ hp)
    exact ⟨v, rest, heq, Shows.relinked (fun p hp => Nat.lt_succ_of_lt (hc p hp)) y hv,
      hheld.relinked hother, ShowsEntries.relinked hc ys hrest⟩
end

/-- Behind a list nodes came and were linked; before it all is as it was, and so is plain data. -/
structure Behind (l : Ref) (s s' : Store) : Prop where
  below : ∀ r, r < l → s'.get? r = s.get? r
  plain : s.KeepsPlain s'
  grown : s.nodes.size ≤ s'.nodes.size

theorem Behind.refl (l : Ref) (s : Store) : Behind l s s :=
  ⟨fun _ _ => rfl, KeepsPlain.refl s, Nat.le_refl _⟩

theorem Behind.trans {l : Ref} {s'' : Store} (h : Behind l s s') (h' : Behind l s' s'') :
    Behind l s s'' where
  below r hr := by rw [h'.below r hr, h.below r hr]
  plain := h.plain.trans h'.plain
  grown := Nat.le_trans h.grown h'.grown

theorem Behind.of_unchanged {l : Ref} (hl : l < s.nodes.size)
    (h : ∀ r, r < s.nodes.size → s'.get? r = s.get? r) (hgrown : s.nodes.size ≤ s'.nodes.size) :
    Behind l s s' :=
  ⟨fun r hr => h r (Nat.lt_trans hr hl), .of_unchanged h, hgrown⟩

theorem behind_modify {l r : Ref} {n : Node} (hr : s.get? r = some n) (hform : n.form ≠ .plain)
    (hl : l ≤ r) (f : Node → Node) : Behind l s (s.modify r f) where
  below _ hq := get?_modify_ne (Nat.ne_of_lt (Nat.lt_of_lt_of_le hq hl)) f
  plain := keepsPlain_modify hr hform f
  grown := Nat.le_of_eq (size_modify s r f).symm

end Store

namespace Workshop
open Store Value ListNode

variable {w : Workshop} {t : Target} {l : Ref} {n : Node} {s s' s'' : Store}

/-- A value that a list holds looks like a tree, typed as a target asks. -/
def Appears (w : Workshop) (t : Target) (s : Store) (l : Ref) (v : Value) (j : Json) : Prop :=
  ∃ y : Snapshot, y.json? = some j ∧ w.Marked t y ∧ s.Shows (l + 1) v y

theorem Appears.of_same {v : Value} {j : Json} (h : w.Appears t s l v j)
    (hsame : SameFrom s s' (l + 1)) : w.Appears t s' l v j := by
  obtain ⟨y, hy, hmarked, hv⟩ := h
  exact ⟨y, hy, hmarked, hv.of_same hsame y⟩

theorem Appears.relinked {v : Value} {j : Json} (h : w.Appears t s l v j) {c : Ref}
    (hc : s.parent? c = some l) (parent : Option Ref) : w.Appears t (s.modify c (linkedTo parent)) l v j := by
  obtain ⟨y, hy, hmarked, hv⟩ := h
  refine ⟨y, hy, hmarked, hv.relinked (fun p hp => ?_) y⟩
  obtain rfl := Option.some.inj (hc.symm.trans hp)
  exact Nat.lt_succ_self _

theorem Appears.held_of_same {v : Value} {j : Json} (h : w.Appears t s l v j)
    (hsame : SameFrom s s' (l + 1)) (hheld : s.Held l v) : s'.Held l v := by
  obtain ⟨y, -, -, hv⟩ := h
  exact hheld.of_same hsame hv

/-- A list holds values that look like these trees. All of `rest` among them are linked to it, each
node once. -/
structure Fills (w : Workshop) (t : Target) (l : Ref) (n : Node) (s : Store) (vs : List Value)
    (js : List Json) (rest : List Value) : Prop where
  found : s.get? l = some { n with body := .list vs }
  shown : List.Forall₂ (w.Appears t s l) vs js
  among : rest ⊆ vs
  held : ∀ v ∈ rest, s.Held l v
  once : (refs rest).Nodup

/-- Values were made fit to be items of a list: they are linked to it, and their nodes are new. -/
structure Accepted (w : Workshop) (t : Target) (l : Ref) (s : Store) (vs : List Value)
    (js : List Json) (s' : Store) : Prop where
  shown : List.Forall₂ (w.Appears t s' l) vs js
  held : ∀ v ∈ vs, s'.Held l v
  once : (refs vs).Nodup
  fresh : ∀ c ∈ refs vs, s.nodes.size ≤ c
  unchanged : ∀ r, r < s.nodes.size → s'.get? r = s.get? r
  grown : s.nodes.size ≤ s'.nodes.size

section

variable {vs rest : List Value} {js : List Json}

theorem Fills.bounds (h : w.Fills t l n s vs js rest) {c : Ref} (hc : .node c ∈ vs) :
    l < c ∧ c < s.nodes.size := by
  obtain ⟨j, -, y, -, -, hv⟩ := exists_of_forall₂ h.shown hc
  exact hv.bounds

theorem Fills.perm (h : w.Fills t l n s vs js rest) {rest' : List Value}
    (hperm : rest'.Perm rest) : w.Fills t l n s vs js rest' where
  found := h.found
  shown := h.shown
  among _ hv := h.among (hperm.subset hv)
  held v hv := h.held v (hperm.subset hv)
  once := (hperm.filterMap ref?).nodup_iff.mpr h.once

/-- An item that is taken out loses its link. -/
theorem Fills.release {v : Value} (h : w.Fills t l n s vs js (v :: rest))
    (hform : n.form ≠ .plain) : ∃ s', (releaseFrom l v).run s = (.ok (), s') ∧
      w.Fills t l n s' vs js rest ∧ Behind l s s' := by
  have hrest : w.Fills t l n s vs js rest :=
    ⟨h.found, h.shown, fun u hu => h.among (List.mem_cons_of_mem v hu),
      fun u hu => h.held u (List.mem_cons_of_mem v hu), h.once.sublist
        ((List.sublist_cons_self v rest).filterMap ref?)⟩
  rw [run_releaseFrom h.found (beq_eq_false_iff_ne.mpr hform)]
  cases v with
  | node c =>
    obtain ⟨hlc, -⟩ := h.bounds (h.among List.mem_cons_self)
    obtain ⟨j, -, y, -, -, hv⟩ := exists_of_forall₂ h.shown (h.among List.mem_cons_self)
    obtain ⟨m, hc, hlinks, hattributes⟩ := hv.found
    have hparent : s.parent? c = some l := h.held (.node c) List.mem_cons_self
    obtain ⟨hnotin, -⟩ := List.nodup_cons.mp h.once
    refine ⟨s.modify c (linkedTo none), StoreM.run_link hc hlinks hattributes none, ⟨?_, ?_, hrest.among,
      fun u hu => (hrest.held u hu).relinked ?_, hrest.once⟩, ?_⟩
    · exact (get?_modify_ne (Nat.ne_of_lt hlc) _).trans h.found
    · exact h.shown.imp fun u j hu => hu.relinked hparent none
    · rintro rfl
      exact hnotin (mem_refs.mpr hu)
    · refine behind_modify hc (fun heq => ?_) (Nat.le_of_lt hlc) _
      rw [heq] at hlinks
      exact hlinks
  | _ => exact ⟨s, rfl, hrest, Behind.refl l s⟩

theorem Fills.releaseAll {us : List Value} (h : w.Fills t l n s vs js (us ++ rest))
    (hform : n.form ≠ .plain) : ∃ s', (ListNode.releaseAll l us).run s = (.ok (), s') ∧
      w.Fills t l n s' vs js rest ∧ Behind l s s' := by
  induction us generalizing s with
  | nil => exact ⟨s, rfl, h, Behind.refl l s⟩
  | cons u us ih =>
    obtain ⟨s₁, hrelease, hfirst, hbehind₁⟩ := h.release hform
    obtain ⟨s₂, hothers, hfills, hbehind₂⟩ := ih hfirst
    refine ⟨s₂, ?_, hfills, hbehind₁.trans hbehind₂⟩
    rw [ListNode.releaseAll, run_bind hrelease, hothers]

theorem Accepted.sameFrom (h : w.Accepted t l s vs js s') : SameFrom s s' (l + 1) :=
  fun r _ hlt => h.unchanged r hlt

theorem Accepted.nil (s : Store) : w.Accepted t l s [] [] s :=
  ⟨.nil, by simp, List.nodup_nil, by simp [refs], fun _ _ => rfl, Nat.le_refl _⟩

theorem Accepted.cons {v : Value} {j : Json} (h : w.Accepted t l s [v] [j] s')
    (h' : w.Accepted t l s' vs js s'') : w.Accepted t l s (v :: vs) (j :: js) s'' := by
  obtain ⟨hv, -⟩ := List.forall₂_cons.mp h.shown
  have hheld := hv.held_of_same h'.sameFrom (h.held v (by simp))
  have hsplit : refs (v :: vs) = refs [v] ++ refs vs := List.filterMap_append (l := [v])
  refine ⟨.cons (hv.of_same h'.sameFrom) h'.shown, List.forall_mem_cons.mpr ⟨hheld, h'.held⟩, ?_, ?_,
    fun r hr => ?_, Nat.le_trans h.grown h'.grown⟩
  · rw [hsplit, List.nodup_append]
    refine ⟨h.once, h'.once, fun c hc c' hc' heq => ?_⟩
    obtain rfl : .node c = v := List.mem_singleton.mp (mem_refs.mp hc)
    obtain ⟨y, -, -, hshown⟩ := hv
    have hnew := h'.fresh c' hc'
    rw [← heq] at hnew
    exact Nat.lt_irrefl c (Nat.lt_of_lt_of_le hshown.bounds.2 hnew)
  · intro c hc
    rw [hsplit, List.mem_append] at hc
    rcases hc with hc | hc
    · exact h.fresh c hc
    · exact Nat.le_trans h.grown (h'.fresh c hc)
  · rw [h'.unchanged r (Nat.lt_of_lt_of_le hr h.grown), h.unchanged r hr]

theorem Rebuilt.accepted {v : Value} {j : Json} {y : Snapshot} (h : w.Rebuilt t j s s' v y)
    (hheld : s'.Held l v) (hl : l < s.nodes.size) : w.Accepted t l s [v] [j] s' where
  shown := .cons ⟨y, h.content, h.marked, h.shows.weaken hl⟩ .nil
  held := by simpa using hheld
  once := (List.nodup_singleton v).filterMap fun u u' c hu hu' => by
    rw [ref?_eq_some.mp hu, ref?_eq_some.mp hu']
  fresh c hc := by
    obtain rfl : .node c = v := List.mem_singleton.mp (mem_refs.mp hc)
    exact h.shows.bounds.1
  unchanged := h.unchanged
  grown := h.grown

theorem Fills.shown_later (h : w.Fills t l n s vs js rest) {new : List Value} {newJs : List Json}
    (hnew : w.Accepted t l s new newJs s') : List.Forall₂ (w.Appears t s' l) vs js :=
  h.shown.imp fun _ _ hv => hv.of_same hnew.sameFrom

/-- The items of a list are replaced by new ones and those that were not taken out. -/
theorem Fills.write (h : w.Fills t l n s vs js rest) {new ys : List Value} {newJs js' : List Json}
    (hnew : w.Accepted t l s new newJs s') (hform : n.form ≠ .plain) (hperm : ys.Perm (new ++ rest))
    (hys : List.Forall₂ (w.Appears t s' l) ys js') :
    w.Fills t l n (s'.modify l fun n => { n with body := .list ys }) ys js' ys ∧
      Behind l s (s'.modify l fun n => { n with body := .list ys }) := by
  have hl := get?_lt h.found
  have hfound : s'.get? l = some { n with body := .list vs } := by rw [hnew.unchanged l hl, h.found]
  have hsame : SameFrom s' (s'.modify l fun n => { n with body := .list ys }) (l + 1) :=
    fun r hr _ => get?_modify_ne (Nat.ne_of_gt hr) _
  have hheld : ∀ v ∈ new ++ rest, s'.Held l v := by
    intro v hv
    rcases List.mem_append.mp hv with hv | hv
    · exact hnew.held v hv
    · obtain ⟨j, -, hj⟩ := exists_of_forall₂ h.shown (h.among hv)
      exact hj.held_of_same hnew.sameFrom (h.held v hv)
  refine ⟨⟨get?_modify_self hfound _, hys.imp fun v j hv => hv.of_same hsame,
    List.Subset.refl ys, fun v hv => ?_, ?_⟩, ?_⟩
  · obtain ⟨j, -, hj⟩ := exists_of_forall₂ hys hv
    exact hj.held_of_same hsame (hheld v (hperm.subset hv))
  · have hrefs : (refs ys).Perm (refs new ++ refs rest) := by
      rw [refs, refs, refs, ← List.filterMap_append]
      exact hperm.filterMap ref?
    refine hrefs.nodup_iff.mpr (List.nodup_append.mpr ⟨hnew.once, h.once, ?_⟩)
    intro c hc c' hc' heq
    have hold := (h.bounds (h.among (mem_refs.mp hc'))).2
    rw [← heq] at hold
    exact Nat.lt_irrefl c (Nat.lt_of_lt_of_le hold (hnew.fresh c hc))
  · exact (Behind.of_unchanged hl hnew.unchanged hnew.grown).trans
      (behind_modify hfound hform (Nat.le_refl l) _)

end

/-- A list is bound to the list type of a target, and nothing is set on it. -/
structure BoundTo (w : Workshop) (t : Target) (n : Node) : Prop where
  bound : ∃ d depth, t.list = some (d, depth) ∧ w.registry.get? d.name = some d ∧
    n.form = .bound ⟨d.name, depth, w.classes⟩
  attributes : n.attributes = []

theorem BoundTo.ne_plain (h : w.BoundTo t n) : n.form ≠ .plain := by
  obtain ⟨d, depth, -, -, hform⟩ := h.bound
  rw [hform]
  exact fun heq => by cases heq

section

variable {vs : List Value} {js : List Json}

/-- Plain data is bound like an item of a bound document. -/
theorem run_acceptItem (hw : w.MakesStructs) (hn : w.BoundTo t n)
    (hl : s.get? l = some { n with body := .list vs }) {v : Value} {j : Json}
    (hv : s.PlainDocument v j) : ∃ v' s', (acceptItem w.bindItem l v).run s = (.ok v', s') ∧
      w.Accepted (t.inside w.registry) l s [v'] [j] s' := by
  obtain ⟨d, depth, htarget, hget, hform⟩ := hn.bound
  have hlt := get?_lt hl
  obtain ⟨v', s₁, y, hbind, hbuilt, -⟩ := rebuilds hw hv.document _ hv.shown (t.inside w.registry)
    (t.known_inside w.registry) s
  obtain ⟨s₂, hadopt, hbuilt, hheld⟩ := hbuilt.adopted l
  refine ⟨v', s₂, ?_, hbuilt.accepted hheld hlt⟩
  rw [acceptItem, run_named hl hn.attributes, run_bind (run_node hl)]
  simp only [hform]
  rcases eq_of_json? hv.shown with ⟨a, rfl, -⟩ | ⟨mark, rfl, -⟩ | ⟨r, rfl⟩
  · rw [snapshot, snapshotWithin] at hbind
    cases hbind
    exact hadopt
  · rw [snapshot, snapshotWithin] at hbind
    cases hbind
    exact hadopt
  · obtain ⟨m, hr, hplain, -⟩ := hv.plain.found
    have hbound : (bindFor w.bindItem l ⟨d.name, depth, w.classes⟩ (.node r)).run s =
        (.ok v', s₁) := by
      rw [bindFor, run_bind (run_node hl), hn.attributes]
      simp only [Assoc.get?, bindItem, hget]
      rw [run_bind (run_get s)]
      rw [Target.inside, htarget] at hbind
      exact hbind
    rw [isPlainContainer, run_bind (run_isPlain hr), hplain]
    exact (run_bind hbound _).trans hadopt

theorem run_acceptItems (hw : w.MakesStructs) (hn : w.BoundTo t n)
    (hl : s.get? l = some { n with body := .list vs }) {us : List Value}
    (hus : List.Forall₂ s.PlainDocument us js) :
    ∃ us' s', (acceptItems w.bindItem l us).run s = (.ok us', s') ∧
      w.Accepted (t.inside w.registry) l s us' js s' := by
  induction us generalizing s js with
  | nil =>
    obtain rfl := List.forall₂_nil_left_iff.mp hus
    exact ⟨[], s, rfl, .nil s⟩
  | cons u us ih =>
    obtain ⟨j, js, hu, hrest, rfl⟩ := List.forall₂_cons_left_iff.mp hus
    obtain ⟨u', s₁, haccept, hfirst⟩ := run_acceptItem hw hn hl hu
    have hl₁ : s₁.get? l = some { n with body := .list vs } := by
      rw [hfirst.unchanged l (get?_lt hl), hl]
    have hlater : List.Forall₂ s₁.PlainDocument us js := hrest.imp fun _ _ hv =>
      hv.later (.of_unchanged hfirst.unchanged) hfirst.grown
    obtain ⟨us', s₂, hothers, haccepted⟩ := ih hl₁ hlater
    refine ⟨u' :: us', s₂, ?_, hfirst.cons haccepted⟩
    rw [acceptItems, run_bind haccept, run_bind hothers]
    rfl

end

end Workshop

/-- An operation stores plain data into a list. From items that look like the first trees it makes
items that look like the second ones. -/
inductive ListOperation.Stores (s : Store) : ListOperation → List Json → List Json → Prop
  | append {v : Value} {j : Json} (js : List Json) (value : s.PlainDocument v j) :
    Stores s (.append v) js (js ++ [j])
  | insert {index : Int} {v : Value} {j : Json} (js : List Json)
    (small : -(2 ^ 63) ≤ index ∧ index < 2 ^ 63) (value : s.PlainDocument v j) :
    Stores s (.insert index v) js (js.take (insertPlace js.length index) ++
      j :: js.drop (insertPlace js.length index))
  | extend {source : Value} {x : Json} {new : List Json} (js : List Json)
    (value : s.PlainDocument source x) (elements : x.elements? = some new) :
    Stores s (.extend source) js (js ++ new)
  | grow {source : Value} {x : Json} {new : List Json} (js : List Json)
    (value : s.PlainDocument source x) (elements : x.elements? = some new) :
    Stores s (.grow source) js (js ++ new)
  | set {index : Int} {i : Nat} {v : Value} {j : Json} {js : List Json}
    (place : placeOf js.length index = some i) (value : s.PlainDocument v j) :
    Stores s (.set index v) js (js.set i j)
  | setSlice {slice : Slice} {places : Span} {source : Value} {x : Json} {new js js' : List Json}
    (span : slice.span? js.length = some places) (value : s.PlainDocument source x)
    (elements : x.elements? = some new) (replaced : places.replace? js new = some js') :
    Stores s (.setSlice slice source) js js'

inductive ListOperation.StoreAll (s : Store) : List ListOperation → List Json → List Json → Prop
  | nil (js : List Json) : StoreAll s [] js js
  | cons {op : ListOperation} {ops : List ListOperation} {js js' js'' : List Json}
    (first : op.Stores s js js') (rest : StoreAll s ops js' js'') : StoreAll s (op :: ops) js js''

section

variable {α β : Type} {R : α → β → Prop} {xs new : List α} {ys new' ys' : List β}

theorem forall₂_set (h : List.Forall₂ R xs ys) (i : Nat) {x : α} {y : β} (hxy : R x y) :
    List.Forall₂ R (xs.set i x) (ys.set i y) := by
  induction h generalizing i with
  | nil => exact .nil
  | cons hfirst hrest ih =>
    cases i with
    | zero => exact .cons hxy hrest
    | succ i => exact .cons hfirst (ih i)

theorem forall₂_writeAll (hnew : List.Forall₂ R new new') (h : List.Forall₂ R xs ys)
    (ps : List Nat) :
    List.Forall₂ R (Span.writeAll xs (ps.zip new)) (Span.writeAll ys (ps.zip new')) := by
  induction hnew generalizing ps xs ys with
  | nil => simpa [Span.writeAll] using h
  | @cons x y new new' hxy _ ih =>
    cases ps with
    | nil => simpa [Span.writeAll] using h
    | cons p ps => exact ih (forall₂_set h p hxy) ps

theorem placeOf_lt {length i : Nat} {index : Int} (h : placeOf length index = some i) :
    i < length := by
  simp only [placeOf, Option.ite_none_right_eq_some, Option.some.injEq] at h
  omega

/-- Putting items in the place of a span does the same to related lists. -/
theorem Span.replace?_forall₂ {span : Span} (h : List.Forall₂ R xs ys)
    (hnew : List.Forall₂ R new new') (hys : span.replace? ys new' = some ys') :
    ∃ xs', span.replace? xs new = some xs' ∧ List.Forall₂ R xs' ys' := by
  unfold replace? at hys ⊢
  by_cases hstep : span.step = 1
  · rw [if_pos hstep] at hys ⊢
    obtain rfl := Option.some.inj hys
    exact ⟨_, rfl, List.rel_append (List.rel_append (List.forall₂_take _ h) hnew)
      (List.forall₂_drop _ h)⟩
  · rw [if_neg hstep] at hys ⊢
    by_cases hlength : new'.length = span.count
    · rw [if_pos hlength] at hys
      obtain rfl := Option.some.inj hys
      rw [hnew.length_eq, if_pos hlength]
      exact ⟨_, rfl, forall₂_writeAll hnew h span.places⟩
    · rw [if_neg hlength] at hys
      cases hys

end

namespace Workshop
open Store Value ListNode

variable {w : Workshop} {t : Target} {l : Ref} {n : Node} {s s' : Store} {js js' : List Json}

def Filled (w : Workshop) (t : Target) (l : Ref) (n : Node) (s : Store) (js : List Json) : Prop :=
  ∃ vs, w.Fills (t.inside w.registry) l n s vs js vs

theorem run_append (hw : w.MakesStructs) (hn : w.BoundTo t n) (h : w.Filled t l n s js) {v : Value}
    {j : Json} (hv : s.PlainDocument v j) : ∃ s', (append w.bindItem l v).run s = (.ok (), s') ∧
      w.Filled t l n s' (js ++ [j]) ∧ Behind l s s' := by
  obtain ⟨vs, h⟩ := h
  obtain ⟨v', s₁, haccept, haccepted⟩ := run_acceptItem hw hn h.found hv
  obtain ⟨hfills, hbehind⟩ := h.write haccepted hn.ne_plain (List.perm_append_singleton v' vs)
    (List.rel_append (h.shown_later haccepted) haccepted.shown)
  refine ⟨_, ?_, ⟨_, hfills⟩, hbehind⟩
  have hl : s₁.get? l = some { n with body := .list vs } := by
    rw [haccepted.unchanged l (get?_lt h.found), h.found]
  rw [append, run_bind haccept, run_bind (run_items hl rfl)]
  rfl

theorem run_appendAll (hw : w.MakesStructs) (hn : w.BoundTo t n) (h : w.Filled t l n s js)
    {us : List Value} {new : List Json} (hus : List.Forall₂ s.PlainDocument us new) :
    ∃ s', (appendAll w.bindItem l us).run s = (.ok (), s') ∧
      w.Filled t l n s' (js ++ new) ∧ Behind l s s' := by
  induction us generalizing s js new with
  | nil =>
    obtain rfl := List.forall₂_nil_left_iff.mp hus
    exact ⟨s, rfl, by rwa [List.append_nil], Behind.refl l s⟩
  | cons u us ih =>
    obtain ⟨j, new, hu, hrest, rfl⟩ := List.forall₂_cons_left_iff.mp hus
    obtain ⟨s₁, happend, hfilled, hbehind⟩ := run_append hw hn h hu
    obtain ⟨s₂, hothers, hall, hbehind'⟩ := ih hfilled
      (hrest.imp fun _ _ hv => hv.later hbehind.plain hbehind.grown)
    refine ⟨s₂, ?_, ?_, hbehind.trans hbehind'⟩
    · obtain ⟨vs, hfills⟩ := h
      rw [appendAll, run_bind ((run_named hfills.found hn.attributes _ _).trans happend), hothers]
    · rwa [List.append_assoc] at hall

theorem run_extend (hw : w.MakesStructs) (hn : w.BoundTo t n) (h : w.Filled t l n s js)
    {source : Value} {x : Json} {new : List Json} (hsource : s.PlainDocument source x)
    (hnew : x.elements? = some new) : ∃ s', (extend w.bindItem l source).run s = (.ok (), s') ∧
      w.Filled t l n s' (js ++ new) ∧ Behind l s s' := by
  obtain ⟨us, helements, hus⟩ := run_elements hsource hnew
  obtain ⟨s', hall, hfilled, hbehind⟩ := run_appendAll hw hn h hus
  refine ⟨s', ?_, hfilled, hbehind⟩
  have hother : source.identical (.node l) = false := by
    rcases eq_of_json? hsource.shown with ⟨a, rfl, -⟩ | ⟨mark, rfl, -⟩ | ⟨r, rfl⟩
    · rfl
    · rfl
    · obtain ⟨m, hr, hplain, -⟩ := hsource.plain.found
      obtain ⟨vs, hfills⟩ := h
      refine beq_eq_false_iff_ne.mpr ?_
      rintro rfl
      obtain rfl := Option.some.inj (hr.symm.trans hfills.found)
      exact hn.ne_plain hplain
  have hgive : (extendEach w.bindItem l source).run s = (.ok (), s') := by
    rw [extendEach, run_bind helements, run_bind hall, requireEnd, if_neg (by simp [hother])]
    rfl
  rcases eq_of_json? hsource.shown with ⟨a, rfl, -⟩ | ⟨mark, rfl, -⟩ | ⟨r, rfl⟩
  · exact hgive
  · exact hgive
  · exact hgive

theorem run_insert (hw : w.MakesStructs) (hn : w.BoundTo t n) (h : w.Filled t l n s js)
    {index : Int} (hindex : -(2 ^ 63) ≤ index ∧ index < 2 ^ 63) {v : Value} {j : Json}
    (hv : s.PlainDocument v j) :
    ∃ s', (ListNode.insert w.bindItem l index v).run s = (.ok (), s') ∧
      w.Filled t l n s' (js.take (insertPlace js.length index) ++
        j :: js.drop (insertPlace js.length index)) ∧ Behind l s s' := by
  obtain ⟨vs, h⟩ := h
  obtain ⟨v', s₁, haccept, haccepted⟩ := run_acceptItem hw hn h.found hv
  have hlength : vs.length = js.length := h.shown.length_eq
  let i := insertPlace vs.length index
  have hperm : (vs.take i ++ v' :: vs.drop i).Perm ([v'] ++ vs) := by
    conv_rhs => rw [← List.take_append_drop i vs]
    exact List.perm_middle
  have hvs := h.shown_later haccepted
  have hfirst := (List.forall₂_cons.mp haccepted.shown).1
  obtain ⟨hfills, hbehind⟩ := h.write haccepted hn.ne_plain hperm
    (List.rel_append (List.forall₂_take i hvs) (.cons hfirst (List.forall₂_drop i hvs)))
  refine ⟨_, ?_, ?_, hbehind⟩
  · have hl : s₁.get? l = some { n with body := .list vs } := by
      rw [haccepted.unchanged l (get?_lt h.found), h.found]
    have hcountable : (requireCountable index).run s₁ = (.ok (), s₁) := by
      rw [requireCountable, if_neg (by omega)]
      rfl
    rw [ListNode.insert, run_bind haccept, run_bind hcountable, run_bind (run_items hl rfl)]
    rfl
  · rw [← hlength]
    exact ⟨_, hfills⟩

theorem run_set (hw : w.MakesStructs) (hn : w.BoundTo t n) (h : w.Filled t l n s js) {index : Int}
    {i : Nat} (hplace : placeOf js.length index = some i) {v : Value} {j : Json}
    (hv : s.PlainDocument v j) : ∃ s', (ListNode.set w.bindItem l index v).run s = (.ok (), s') ∧
      w.Filled t l n s' (js.set i j) ∧ Behind l s s' := by
  obtain ⟨vs, h⟩ := h
  rw [← h.shown.length_eq] at hplace
  have hi := placeOf_lt hplace
  have hget : (get! l index).run s = (.ok vs[i], s) := by
    rw [get!, run_bind (run_items h.found rfl), hplace]
    simp only [Option.bind_some, List.getElem?_eq_getElem hi]
    rfl
  have hfirst : w.Fills (t.inside w.registry) l n s vs js (vs[i] :: vs.eraseIdx i) :=
    h.perm (perm_eraseIdx (List.getElem?_eq_getElem hi))
  obtain ⟨s₁, hrelease, hreleased, hbehind₁⟩ := hfirst.release hn.ne_plain
  obtain ⟨v', s₂, haccept, haccepted⟩ := run_acceptItem hw hn hreleased.found
    (hv.later hbehind₁.plain hbehind₁.grown)
  obtain ⟨hfills, hbehind₂⟩ := hreleased.write haccepted hn.ne_plain
    (List.set_perm_cons_eraseIdx hi v')
    (forall₂_set (hreleased.shown_later haccepted) i (List.forall₂_cons.mp haccepted.shown).1)
  refine ⟨_, ?_, ⟨_, hfills⟩, hbehind₁.trans hbehind₂⟩
  have hl : s₂.get? l = some { n with body := .list vs } := by
    rw [haccepted.unchanged l (get?_lt hreleased.found), hreleased.found]
  have hplace₂ : (place l index).run s₂ = (.ok i, s₂) := by
    rw [place, run_bind (run_items hl rfl), hplace]
    rfl
  rw [ListNode.set, run_bind hget, run_bind hrelease, run_bind haccept, run_bind hplace₂,
    run_bind (run_items hl rfl)]
  rfl

theorem run_setSlice (hw : w.MakesStructs) (hn : w.BoundTo t n) (h : w.Filled t l n s js)
    {slice : Slice} {places : Span} {source : Value} {x : Json} {new : List Json}
    (hspan : slice.span? js.length = some places) (hsource : s.PlainDocument source x)
    (hnew : x.elements? = some new) (hreplaced : places.replace? js new = some js') :
    ∃ s', (setSlice w.bindItem l slice source).run s = (.ok (), s') ∧
      w.Filled t l n s' js' ∧ Behind l s s' := by
  obtain ⟨vs, h⟩ := h
  rw [← h.shown.length_eq] at hspan
  have hwithin := Slice.within hspan
  have hrunSpan {s : Store} (hl : s.get? l = some { n with body := .list vs }) :
      (span l slice).run s = (.ok places, s) := by
    rw [span, run_bind (run_items hl rfl), hspan]
    rfl
  obtain ⟨s₁, hrelease, hreleased, hbehind₁⟩ :=
    (h.perm (Span.perm_select_reject hwithin.nodup vs)).releaseAll hn.ne_plain
  obtain ⟨us, helements, hus⟩ := run_elements (hsource.later hbehind₁.plain hbehind₁.grown) hnew
  obtain ⟨us', s₂, haccept, haccepted⟩ := run_acceptItems hw hn hreleased.found hus
  have hl : s₂.get? l = some { n with body := .list vs } := by
    rw [haccepted.unchanged l (get?_lt hreleased.found), hreleased.found]
  obtain ⟨ys, hys, hshown⟩ := Span.replace?_forall₂ (hreleased.shown_later haccepted)
    haccepted.shown hreplaced
  obtain ⟨hfills, hbehind₂⟩ := hreleased.write haccepted hn.ne_plain (Span.perm_replace hwithin hys)
    hshown
  refine ⟨_, ?_, ⟨_, hfills⟩, hbehind₁.trans hbehind₂⟩
  rw [ListNode.setSlice, run_bind (hrunSpan h.found), run_bind (run_items h.found rfl),
    run_bind hrelease, run_bind helements, run_bind haccept, run_bind (hrunSpan hl),
    run_bind (run_items hl rfl), hys]
  rfl

/-- An operation that stores plain data stores what a bound document has in its place. -/
theorem run_stores (hw : w.MakesStructs) (hn : w.BoundTo t n) (h : w.Filled t l n s js)
    {op : ListOperation} (hop : op.Stores s js js') :
    ∃ v s', (op.run w.bindItem l).run s = (.ok v, s') ∧ w.Filled t l n s' js' ∧ Behind l s s' := by
  have hnamed {α : Type} (name : String) (a : StoreM α) : (named l name a).run s = a.run s := by
    obtain ⟨vs, hfills⟩ := h
    exact run_named hfills.found hn.attributes name a
  cases hop with
  | append _ hv =>
    obtain ⟨s', hrun, hfilled⟩ := run_append hw hn h hv
    exact ⟨.null, s', (hnamed _ _).trans (run_bind hrun _), hfilled⟩
  | insert _ hsmall hv =>
    obtain ⟨s', hrun, hfilled⟩ := run_insert hw hn h hsmall hv
    exact ⟨.null, s', (hnamed _ _).trans (run_bind hrun _), hfilled⟩
  | extend _ hv hnew =>
    obtain ⟨s', hrun, hfilled⟩ := run_extend hw hn h hv hnew
    exact ⟨.null, s', (hnamed _ _).trans (run_bind hrun _), hfilled⟩
  | grow _ hv hnew =>
    obtain ⟨s', hrun, hfilled⟩ := run_extend hw hn h hv hnew
    exact ⟨.null, s', run_bind ((hnamed _ _).trans hrun) _, hfilled⟩
  | set hplace hv =>
    obtain ⟨s', hrun, hfilled⟩ := run_set hw hn h hplace hv
    exact ⟨.null, s', run_bind hrun _, hfilled⟩
  | setSlice hspan hv hnew hreplaced =>
    obtain ⟨s', hrun, hfilled⟩ := run_setSlice hw hn h hspan hv hnew hreplaced
    exact ⟨.null, s', run_bind hrun _, hfilled⟩

theorem Stores.later {op : ListOperation} (hop : op.Stores s js js') (hkeep : s.KeepsPlain s')
    (hsize : s.nodes.size ≤ s'.nodes.size) : op.Stores s' js js' := by
  cases hop with
  | append _ hv => exact .append _ (hv.later hkeep hsize)
  | insert _ hsmall hv => exact .insert _ hsmall (hv.later hkeep hsize)
  | extend _ hv hnew => exact .extend _ (hv.later hkeep hsize) hnew
  | grow _ hv hnew => exact .grow _ (hv.later hkeep hsize) hnew
  | set hplace hv => exact .set hplace (hv.later hkeep hsize)
  | setSlice hspan hv hnew hreplaced => exact .setSlice hspan (hv.later hkeep hsize) hnew hreplaced

end Workshop
end Exemplar
