import Exemplar.Proofs.Binding
import Exemplar.Proofs.PartialReading
import Exemplar.Store.Assembly

/-! Documents built as nodes from events that may stop early. Neither stack is ever read when it is
empty: there is one key for every open container, and a value always goes into the container that was
opened last and not closed. A container is linked to its holder before it is filled, so that it shows
with what was read of it wherever the events stop. -/
namespace Exemplar

namespace Snapshot

theorem itemsJson?_snoc {ys : List Snapshot} {y : Snapshot} {js : List Json} {j : Json}
    (hys : itemsJson? ys = some js) (hy : y.json? = some j) :
    itemsJson? (ys ++ [y]) = some (js ++ [j]) := by
  induction ys generalizing js with
  | nil =>
    obtain rfl := Option.some.inj hys
    exact itemsJson?_cons.mpr ⟨j, [], rfl, hy, rfl⟩
  | cons x ys ih =>
    obtain ⟨j', rest, rfl, hx, hrest⟩ := itemsJson?_cons.mp hys
    exact itemsJson?_cons.mpr ⟨j', rest ++ [j], rfl, hx, ih hrest⟩

theorem entriesJson?_snoc {ys : List (Scalar × Snapshot)} {k : Scalar} {y : Snapshot}
    {js : List (Scalar × Json)} {j : Json} (hys : entriesJson? ys = some js)
    (hy : y.json? = some j) : entriesJson? (ys ++ [(k, y)]) = some (js ++ [(k, j)]) := by
  induction ys generalizing js with
  | nil =>
    obtain rfl := Option.some.inj hys
    exact entriesJson?_cons.mpr ⟨j, [], rfl, hy, rfl⟩
  | cons e ys ih =>
    obtain ⟨k', x⟩ := e
    obtain ⟨j', rest, rfl, hx, hrest⟩ := entriesJson?_cons.mp hys
    exact entriesJson?_cons.mpr ⟨j', rest ++ [(k, j)], rfl, hx, ih hrest⟩

end Snapshot

namespace Store

variable {s s' : Store} {holder : Ref}

theorem ShowsItems.snoc {vs : List Value} {ys : List Snapshot} {v : Value} {y : Snapshot}
    (h : s.ShowsItems holder vs ys) (hv : s.Shows (holder + 1) v y) (hheld : s.Held holder v) :
    s.ShowsItems holder (vs ++ [v]) (ys ++ [y]) := by
  induction ys generalizing vs with
  | nil =>
    obtain rfl : vs = [] := h
    exact ⟨v, [], rfl, hv, hheld, rfl⟩
  | cons x ys ih =>
    obtain ⟨u, rest, rfl, hu, huheld, hrest⟩ := h
    exact ⟨u, rest ++ [v], rfl, hu, huheld, ih hrest⟩

theorem ShowsEntries.snoc {es : Assoc Scalar Value} {ys : List (Scalar × Snapshot)} {k : Scalar}
    {v : Value} {y : Snapshot} (h : s.ShowsEntries holder es ys) (hv : s.Shows (holder + 1) v y)
    (hheld : s.Held holder v) : s.ShowsEntries holder (es ++ [(k, v)]) (ys ++ [(k, y)]) := by
  induction ys generalizing es with
  | nil =>
    obtain rfl : es = [] := h
    exact ⟨v, [], rfl, hv, hheld, rfl⟩
  | cons e ys ih =>
    obtain ⟨k', x⟩ := e
    obtain ⟨u, rest, rfl, hu, huheld, hrest⟩ := h
    exact ⟨u, rest ++ [(k, v)], rfl, hu, huheld, ih hrest⟩

theorem ShowsEntries.keys {es : Assoc Scalar Value} {ys : List (Scalar × Snapshot)}
    (h : s.ShowsEntries holder es ys) : Assoc.keys es = Assoc.keys ys := by
  induction ys generalizing es with
  | nil => rw [show es = [] from h]; rfl
  | cons e ys ih =>
    obtain ⟨k, x⟩ := e
    obtain ⟨v, rest, rfl, -, -, hrest⟩ := h
    exact congrArg (k :: ·) (ih hrest)

end Store

/-- Appending to a linked list makes the value fit and puts it behind the items. -/
theorem ListNode.run_append_linked (bindItem : BindItem) {l : Ref} {v : Value} {vs : List Value}
    {s s' : Store} {n : Node} (hl : s.get? l = some n) (hform : n.form = .linked)
    (hattributes : n.attributes = []) (haccept : (StoreM.accept l v).run s = (.ok v, s'))
    (hl' : s'.get? l = some n) (hbody : n.body = .list vs) :
    (append bindItem l v).run s =
      (.ok (), s'.modify l fun n => { n with body := .list (vs ++ [v]) }) := by
  have hitem : (acceptItem bindItem l v).run s = (.ok v, s') := by
    rw [acceptItem, StoreM.run_named hl hattributes, StoreM.run_bind (StoreM.run_node hl), hform]
    exact haccept
  rw [append, StoreM.run_bind hitem, StoreM.run_bind (StoreM.run_items hl' hbody)]
  rfl

/-- What a container holds with one more value, which a map has under a key. -/
def Body.adding (key : Scalar) (v : Value) : Body → Body
  | .map es => .map (es ++ [(key, v)])
  | .list vs => .list (vs ++ [v])

namespace Assembly
open StoreM Workshop

/-- The assembly when a value was stored where the next one goes. -/
def placed (a : Assembly) (v : Value) : Assembly :=
  match a.holders with
  | [] => { a with root := v }
  | _ :: _ => a

def key (a : Assembly) : Scalar := a.keys.headD .null

/-- The next value has a place: there is no open container, or the innermost one is linked and, if it
is a map, has nothing under the key that was read last. -/
def Awaits (a : Assembly) (s : Store) : Prop :=
  ∀ r, a.holders.head? = some r → ∃ n, s.get? r = some n ∧ n.form = .linked ∧ n.attributes = [] ∧
    ∀ es, n.body = .map es → a.keys ≠ [] ∧ ∀ e ∈ es, (e.1 == a.key) = false

/-- A value was stored where it belongs, and of what was there before only the container that holds
it now has changed. -/
structure Stored (a : Assembly) (s : Store) (v : Value) (s' : Store) : Prop where
  parent : ∀ c, v = .node c → s'.parent? c = a.holders.head?
  added : ∀ r n, a.holders.head? = some r → s.get? r = some n →
    s'.get? r = some { n with body := n.body.adding a.key v }
  unchanged : ∀ r, r < s.nodes.size → a.holders.head? ≠ some r → s'.get? r = s.get? r
  grown : s.nodes.size ≤ s'.nodes.size

/-- A container was filled: of what was there before nothing else has changed, and its parent is the
same. -/
structure Filled (r : Ref) (s s' : Store) : Prop extends OnlyFilled r s s' where
  parent : s'.parent? r = s.parent? r

structure Gained (a : Assembly) (j : Json) (s s' : Store) (v : Value) (y : Snapshot) : Prop where
  content : y.json? = some j
  shows : s'.Shows s.nodes.size v y
  stored : a.Stored s v s'

/-- All events of a tree build it where the next value goes, and leave the stacks as they were. -/
def Assembles (x : Json) : Prop :=
  ∀ a s, Awaits a s → ∃ v s' y,
    ((Json.events x).foldlM take a).run s = (.ok (a.placed v), s') ∧ a.Gained x s s' v y

/-- The assembly inside a container, behind a key. -/
def within (a : Assembly) (r : Ref) (key : Scalar) : Assembly :=
  ⟨(a.placed (.node r)).root, r :: a.holders, key :: a.keys⟩

variable {a : Assembly} {s s' : Store}

theorem placed_of_holder {r : Ref} (hr : a.holders.head? = some r) (v : Value) :
    a.placed v = a := by
  obtain ⟨root, holders, keys⟩ := a
  cases holders with
  | nil => cases hr
  | cons q holders => rfl

/-- The innermost container takes a value in behind what it holds. -/
theorem run_attach_holder {r : Ref} {holders : List Ref} {n : Node} {v : Value} {s₂ : Store}
    (hholders : a.holders = r :: holders) (ha : a.Awaits s') (hr : s.get? r = some n)
    (hr' : s'.get? r = some n) (hadopt : (adoptInto v (some r)).run s = (.ok v, s₂))
    (hr₂ : s₂.get? r = some n) : (a.attach v).run s =
      (.ok a, s₂.modify r fun n => { n with body := n.body.adding a.key v }) := by
  obtain ⟨root, _, keys⟩ := a
  cases hholders
  obtain ⟨n', hn, hform, hattributes, hkey⟩ := ha r rfl
  obtain rfl : n = n' := Option.some.inj (hr'.symm.trans hn)
  have hlinks : n.form.Links := by rw [hform]; trivial
  have haccept : (StoreM.accept r v).run s = (.ok v, s₂) := by
    rw [run_accept hr hlinks.ne_plain, hadopt]
  rw [attach]
  dsimp only
  rw [run_bind (run_node hr)]
  cases hbody : n.body with
  | list vs =>
    have happend := ListNode.run_append_linked (fun _ v => return v) hr hform hattributes
      haccept hr₂ hbody
    rw [Store.modify_congr hr₂ (g := fun n => { n with body := .list (vs ++ [v]) })
      (by rw [hbody, Body.adding]), Node.isMap, hbody]
    exact run_bind happend _
  | map es =>
    obtain ⟨hkeys, hnew⟩ := hkey es hbody
    obtain ⟨key, keys, rfl⟩ := List.exists_cons_of_ne_nil hkeys
    have hset := run_set_new hr hbody hlinks.ne_plain hnew hadopt hr₂ hbody
    rw [Store.modify_congr hr₂ (g := fun n => { n with body := .map (es ++ [(key, v)]) })
      (by rw [hbody, Body.adding, Assembly.key, List.headD_cons]), Node.isMap, hbody]
    exact run_bind hset _

/-- A tree of nodes that are new since an earlier store is stored where the next value goes. -/
theorem run_attach {s₁ : Store} {v : Value} {y : Snapshot} (ha : a.Awaits s)
    (hsame : ∀ r, r < s.nodes.size → s₁.get? r = s.get? r) (hgrown : s.nodes.size ≤ s₁.nodes.size)
    (hv : s₁.Shows s.nodes.size v y) (hfree : ∀ c, v = .node c → s₁.parent? c = none) :
    ∃ s', (a.attach v).run s₁ = (.ok (a.placed v), s') ∧ s'.Shows s.nodes.size v y ∧
      a.Stored s v s' := by
  cases hholders : a.holders with
  | nil =>
    obtain ⟨root, _, keys⟩ := a
    cases hholders
    exact ⟨s₁, rfl, hv, hfree, fun r n hr _ => absurd hr (by simp), fun r hr _ => hsame r hr, hgrown⟩
  | cons r holders =>
    have hhead : a.holders.head? = some r := by rw [hholders]; rfl
    obtain ⟨n, hr, -⟩ := ha r hhead
    have hlt := Store.get?_lt hr
    obtain ⟨s₂, hadopted⟩ := hv.adopted r
    have hr₁ : s₁.get? r = some n := by rw [hsame r hlt, hr]
    have hr₂ : s₂.get? r = some n := by rw [hadopted.unchanged r hlt, hr₁]
    have hrun := run_attach_holder hholders ha hr₁ hr hadopted.run hr₂
    have hlater : Store.SameFrom s₂ (s₂.modify r fun n =>
        { n with body := n.body.adding a.key v }) s.nodes.size := fun q hq _ =>
      Store.get?_modify_ne (Nat.ne_of_gt (Nat.lt_of_lt_of_le hlt hq)) _
    rw [placed_of_holder hhead v]
    refine ⟨_, hrun, hadopted.shows.of_same hlater y, ?_, ?_, fun q hq hne => ?_, ?_⟩
    · rintro c rfl
      rw [hhead]
      exact hadopted.held.of_same hlater hadopted.shows
    · intro q m hq hm
      obtain rfl := Option.some.inj (hhead.symm.trans hq)
      obtain rfl : n = m := Option.some.inj (hr.symm.trans hm)
      exact Store.get?_modify_self hr₂ _
    · have hne : q ≠ r := fun h => hne (h ▸ hhead)
      rw [Store.get?_modify_ne hne, hadopted.unchanged q hq, hsame q hq]
    · rw [Store.size_modify, hadopted.size]
      exact hgrown

theorem Filled.refl (r : Ref) (s : Store) : Filled r s s :=
  ⟨⟨fun _ _ _ => rfl, Nat.le_refl _⟩, rfl⟩

theorem Filled.trans {r : Ref} {s'' : Store} (h : Filled r s s') (h' : Filled r s' s'') :
    Filled r s s'' :=
  ⟨h.toOnlyFilled.trans h'.toOnlyFilled, by rw [h'.parent, h.parent]⟩

/-- A container may be filled after it was stored. -/
theorem Stored.filled {s₁ : Store} {r : Ref} (h : a.Stored s (.node r) s₁) (hr : s.nodes.size ≤ r)
    (hfilled : Filled r s₁ s') : a.Stored s (.node r) s' where
  parent := by
    rintro c ⟨⟩
    rw [hfilled.parent, h.parent r rfl]
  added q n hq hn := by
    have hlt := Store.get?_lt hn
    have hne : q ≠ r := Nat.ne_of_lt (Nat.lt_of_lt_of_le hlt hr)
    rw [hfilled.unchanged q (Nat.lt_of_lt_of_le hlt h.grown) hne, h.added q n hq hn]
  unchanged q hq hne := by
    have hne' : q ≠ r := Nat.ne_of_lt (Nat.lt_of_lt_of_le hq hr)
    rw [hfilled.unchanged q (Nat.lt_of_lt_of_le hq h.grown) hne', h.unchanged q hq hne]
  grown := Nat.le_trans h.grown hfilled.grown

section

variable {j : Json} {v : Value} {y : Snapshot} {r low : Ref} {mark : Mark}

theorem Gained.filled {n : Node} (h : a.Gained j s s' v y) (hr : a.holders.head? = some r)
    (hn : s.get? r = some n) : Filled r s s' where
  unchanged q hq hne := h.stored.unchanged q hq fun h => hne (Option.some.inj (h.symm.trans hr))
  grown := h.stored.grown
  parent := by rw [Store.parent?, Store.parent?, h.stored.added r n hr hn, hn]; rfl

/-- What the value in an open container looks like, and that it knows its holder. -/
theorem Gained.shows_inside {n : Node} (h : a.Gained j s s' v y) (hr : a.holders.head? = some r)
    (hn : s.get? r = some n) :
    s'.Shows (r + 1) v y ∧ s'.Held r v ∧ Store.SameFrom s s' (r + 1) := by
  refine ⟨h.shows.weaken (Store.get?_lt hn), ?_, fun q hq hlt => ?_⟩
  · cases v with
    | node c => exact (h.stored.parent c rfl).trans hr
    | _ => trivial
  · exact (h.filled hr hn).unchanged q hlt (Nat.ne_of_gt hq)

/-- An open list shows the value that was stored into it behind the others. -/
theorem Gained.shows_list {ys : List Snapshot} (h : a.Gained j s s' v y)
    (hr : a.holders.head? = some r) (hshow : s.Shows low (.node r) (.list r mark ys)) :
    s'.Shows low (.node r) (.list r mark (ys ++ [y])) ∧ Filled r s s' := by
  obtain ⟨-, hlow, hlinks, vs, parent, hn, hitems⟩ := hshow
  obtain ⟨hv, hheld, hsame⟩ := h.shows_inside hr hn
  exact ⟨⟨rfl, hlow, hlinks, vs ++ [v], parent, h.stored.added r _ hr hn,
    (hitems.of_same hsame ys).snoc hv hheld⟩, h.filled hr hn⟩

/-- An open map shows the value that was stored into it under the key that was read last. -/
theorem Gained.shows_map {ys : List (Scalar × Snapshot)} (h : a.Gained j s s' v y)
    (hr : a.holders.head? = some r) (hshow : s.Shows low (.node r) (.map r mark ys)) :
    s'.Shows low (.node r) (.map r mark (ys ++ [(a.key, y)])) ∧ Filled r s s' := by
  obtain ⟨-, hlow, hlinks, es, parent, hn, hentries⟩ := hshow
  obtain ⟨hv, hheld, hsame⟩ := h.shows_inside hr hn
  exact ⟨⟨rfl, hlow, hlinks, es ++ [(a.key, v)], parent, h.stored.added r _ hr hn,
    (hentries.of_same hsame ys).snoc hv hheld⟩, h.filled hr hn⟩

end

def mark : Mark := ⟨.linked, none⟩

section

variable {r low : Ref}

theorem awaits_list {ys : List Snapshot} (hr : a.holders.head? = some r)
    (hshow : s.Shows low (.node r) (.list r mark ys)) : a.Awaits s := by
  obtain ⟨-, -, -, vs, parent, hn, -⟩ := hshow
  intro q hq
  obtain rfl := Option.some.inj (hr.symm.trans hq)
  exact ⟨_, hn, rfl, rfl, nofun⟩

theorem awaits_map {ys : List (Scalar × Snapshot)} {js : List (Scalar × Json)}
    (hr : a.holders.head? = some r) (hshow : s.Shows low (.node r) (.map r mark ys))
    (hys : Snapshot.entriesJson? ys = some js) (hkeys : a.keys ≠ [])
    (hnew : ∀ e ∈ js, (e.1 == a.key) = false) : a.Awaits s := by
  obtain ⟨-, -, -, es, parent, hn, hentries⟩ := hshow
  intro q hq
  obtain rfl := Option.some.inj (hr.symm.trans hq)
  refine ⟨_, hn, rfl, rfl, fun es' hes => ⟨hkeys, fun e he => ?_⟩⟩
  obtain rfl := Body.map.inj hes
  have hkey : e.1 ∈ Assoc.keys js := by
    rw [← Snapshot.keys_of_entriesJson? hys, ← hentries.keys]
    exact List.mem_map_of_mem he
  obtain ⟨e', he', heq⟩ := List.mem_map.mp hkey
  rw [← heq]
  exact hnew e' he'

theorem run_key {key : Scalar} {keys : List Scalar} (hkeys : a.keys = key :: keys) (name : String)
    (s : Store) : (take a (.key name)).run s = (.ok { a with keys := .str name :: keys }, s) := by
  rw [take, hkeys]
  rfl

/-- A container that opens is stored while it is empty. -/
theorem run_enter (ha : a.Awaits s) (body : Body) {y : Snapshot}
    (hy : (s.add { body, form := .linked }).2.Shows s.nodes.size (.node s.nodes.size) y) :
    ∃ s', (a.enter s.nodes.size).run (s.add { body, form := .linked }).2 =
        (.ok (a.within s.nodes.size .null), s') ∧
      s'.Shows s.nodes.size (.node s.nodes.size) y ∧ a.Stored s (.node s.nodes.size) s' := by
  obtain ⟨s', hrun, hshows, hstored⟩ := run_attach ha (fun r hr => Store.get?_add_lt hr)
    (by rw [Store.size_add]; exact Nat.le_succ _) hy
    (by rintro c ⟨⟩; rw [Store.parent?, Store.get?_add, if_pos rfl]; rfl)
  refine ⟨s', ?_, hshows, hstored⟩
  rw [enter, run_bind hrun]
  obtain ⟨root, holders, keys⟩ := a
  cases holders <;> rfl

/-- Complete items go behind those that an open list holds. -/
theorem run_items {xs js : List Json} {ys : List Snapshot} (hxs : ∀ x ∈ xs, Assembles x)
    (hr : a.holders.head? = some r) (hshow : s.Shows low (.node r) (.list r mark ys))
    (hys : Snapshot.itemsJson? ys = some js) :
    ∃ s' zs, ((Json.itemEvents xs).foldlM take a).run s = (.ok a, s') ∧
      Snapshot.itemsJson? zs = some (js ++ xs) ∧
      s'.Shows low (.node r) (.list r mark zs) ∧ Filled r s s' := by
  induction xs generalizing s js ys with
  | nil => exact ⟨s, ys, rfl, by rwa [List.append_nil], hshow, .refl r s⟩
  | cons x xs ih =>
    obtain ⟨v, s₁, y, hrun, hgained⟩ := hxs x (by simp) a s (awaits_list hr hshow)
    obtain ⟨hshow₁, hfilled₁⟩ := hgained.shows_list hr hshow
    obtain ⟨s₂, zs, hrun₂, hzs, hshow₂, hfilled₂⟩ := ih (fun x hx => hxs x (by simp [hx])) hshow₁
      (Snapshot.itemsJson?_snoc hys hgained.content)
    refine ⟨s₂, zs, ?_, ?_, hshow₂, hfilled₁.trans hfilled₂⟩
    · rw [Json.itemEvents, List.foldlM_append, run_bind hrun, placed_of_holder hr, hrun₂]
    · rw [hzs, List.append_assoc, List.singleton_append]

/-- Complete entries go behind those that an open map holds, as long as no key comes up again. -/
theorem run_entries {xs js : List (Scalar × Json)} {ys : List (Scalar × Snapshot)}
    {key : Scalar} {keys : List Scalar} (hxs : ∀ e ∈ xs, Assembles e.2)
    (hnames : ∀ e ∈ xs, ∃ s, e.1 = .str s) (hr : a.holders.head? = some r)
    (hkeys : a.keys = key :: keys) (hshow : s.Shows low (.node r) (.map r mark ys))
    (hys : Snapshot.entriesJson? ys = some js)
    (honce : (js ++ xs).Pairwise fun e e' => (e.1 == e'.1) = false) :
    ∃ s' zs key', ((Json.entryEvents xs).foldlM take a).run s =
        (.ok { a with keys := key' :: keys }, s') ∧
      Snapshot.entriesJson? zs = some (js ++ xs) ∧
      s'.Shows low (.node r) (.map r mark zs) ∧ Filled r s s' := by
  induction xs generalizing a s js ys key with
  | nil =>
    refine ⟨s, ys, key, ?_, by rwa [List.append_nil], hshow, .refl r s⟩
    rw [← hkeys]
    rfl
  | cons e xs ih =>
    obtain ⟨k, x⟩ := e
    obtain ⟨name, rfl⟩ : ∃ name, k = .str name := hnames (k, x) (by simp)
    have hname : String.ofList (Json.writePlain (.str name)) = name := String.ofList_toList
    have hnew : ∀ e ∈ js, (e.1 == Scalar.str name) = false := fun e he =>
      (List.pairwise_append.mp honce).2.2 e he (.str name, x) (by simp)
    have hawaits : Awaits { a with keys := .str name :: keys } s :=
      awaits_map hr hshow hys (by simp) hnew
    obtain ⟨v, s₁, y, hrun, hgained⟩ := hxs (.str name, x) (by simp) _ s hawaits
    obtain ⟨hshow₁, hfilled₁⟩ := hgained.shows_map hr hshow
    have hsplit : js ++ (Scalar.str name, x) :: xs = js ++ [(.str name, x)] ++ xs := by simp
    rw [hsplit] at honce
    obtain ⟨s₂, zs, key', hrun₂, hzs, hshow₂, hfilled₂⟩ :=
      ih (a := { a with keys := .str name :: keys }) (fun e he => hxs e (by simp [he]))
        (fun e he => hnames e (by simp [he])) hr rfl hshow₁
        (Snapshot.entriesJson?_snoc hys hgained.content) honce
    refine ⟨s₂, zs, key', ?_, ?_, hshow₂, hfilled₁.trans hfilled₂⟩
    · have hplaced := placed_of_holder (a := { a with keys := .str name :: keys }) hr v
      rw [Json.entryEvents, hname, List.foldlM_cons, run_bind (run_key hkeys name s),
        List.foldlM_append, run_bind hrun, hplaced, hrun₂]
    · rw [hsplit]
      exact hzs

/-- A list opens and takes complete items in. -/
theorem run_openList {xs : List Json} (hxs : ∀ x ∈ xs, Assembles x) (ha : a.Awaits s) :
    ∃ s' ys, (∀ es, ((Json.Event.startList :: (Json.itemEvents xs ++ es)).foldlM take a).run s =
        (es.foldlM take (a.within s.nodes.size .null)).run s') ∧
      Snapshot.itemsJson? ys = some xs ∧
      s'.Shows s.nodes.size (.node s.nodes.size) (.list s.nodes.size mark ys) ∧
      a.Stored s (.node s.nodes.size) s' := by
  obtain ⟨s₁, hstart, hshow₁, hstored⟩ := run_enter ha (.list [])
    (y := .list s.nodes.size mark [])
    ⟨rfl, Nat.le_refl _, trivial, [], none, by rw [Store.get?_add, if_pos rfl]; rfl, rfl⟩
  obtain ⟨s₂, ys, hrun, hys, hshow₂, hfilled⟩ :=
    run_items (a := a.within s.nodes.size .null) hxs rfl hshow₁ rfl
  refine ⟨s₂, ys, fun es => ?_, hys, hshow₂, hstored.filled (Nat.le_refl _) hfilled⟩
  have hfirst : (take a .startList).run s = (.ok (a.within s.nodes.size .null), s₁) := hstart
  rw [List.foldlM_cons, run_bind hfirst, List.foldlM_append, run_bind hrun]

/-- A map opens and takes complete entries in. -/
theorem run_openMap {xs : List (Scalar × Json)} (hxs : ∀ e ∈ xs, Assembles e.2)
    (hnames : ∀ e ∈ xs, ∃ s, e.1 = .str s)
    (honce : xs.Pairwise fun e e' => (e.1 == e'.1) = false) (ha : a.Awaits s) :
    ∃ s' ys key, (∀ es, ((Json.Event.startMap :: (Json.entryEvents xs ++ es)).foldlM take a).run s =
        (es.foldlM take (a.within s.nodes.size key)).run s') ∧
      Snapshot.entriesJson? ys = some xs ∧
      s'.Shows s.nodes.size (.node s.nodes.size) (.map s.nodes.size mark ys) ∧
      a.Stored s (.node s.nodes.size) s' := by
  obtain ⟨s₁, hstart, hshow₁, hstored⟩ := run_enter ha (.map [])
    (y := .map s.nodes.size mark [])
    ⟨rfl, Nat.le_refl _, trivial, [], none, by rw [Store.get?_add, if_pos rfl]; rfl, rfl⟩
  obtain ⟨s₂, ys, key, hrun, hys, hshow₂, hfilled⟩ :=
    run_entries (a := a.within s.nodes.size .null) hxs hnames rfl rfl hshow₁ rfl honce
  refine ⟨s₂, ys, key, fun es => ?_, hys, hshow₂, hstored.filled (Nat.le_refl _) hfilled⟩
  have hfirst : (take a .startMap).run s = (.ok (a.within s.nodes.size .null), s₁) := hstart
  rw [List.foldlM_cons, run_bind hfirst, List.foldlM_append, run_bind hrun]
  rfl

theorem gained_list {xs : List Json} {ys : List Snapshot} (hys : Snapshot.itemsJson? ys = some xs)
    (hshow : s'.Shows s.nodes.size (.node r) (.list r mark ys)) (hstored : a.Stored s (.node r) s') :
    a.Gained (.list xs) s s' (.node r) (.list r mark ys) :=
  ⟨by rw [Snapshot.json?, hys]; rfl, hshow, hstored⟩

theorem gained_map {xs : List (Scalar × Json)} {ys : List (Scalar × Snapshot)}
    (hys : Snapshot.entriesJson? ys = some xs)
    (hshow : s'.Shows s.nodes.size (.node r) (.map r mark ys)) (hstored : a.Stored s (.node r) s') :
    a.Gained (.map xs) s s' (.node r) (.map r mark ys) :=
  ⟨by rw [Snapshot.json?, hys]; rfl, hshow, hstored⟩

end

theorem run_ofScalar (a : Scalar) (s : Store) :
    ∃ v s' y, (ofScalar a).run s = (.ok v, s') ∧ y.json? = some (.scalar a) ∧
      s'.nodes = s.nodes ∧ (∀ low, s'.Shows low v y) ∧ ∀ c, v ≠ .node c := by
  cases a with
  | float x =>
    cases x with
    | nan => exact ⟨.nan s.marks, _, .nan s.marks, rfl, rfl, rfl, fun _ => rfl, nofun⟩
    | _ => exact ⟨_, s, .scalar _, rfl, rfl, rfl, fun _ => rfl, nofun⟩
  | _ => exact ⟨_, s, .scalar _, rfl, rfl, rfl, fun _ => rfl, nofun⟩

theorem assembles_scalar (x : Scalar) : Assembles (.scalar x) := by
  intro a s ha
  obtain ⟨v, s₁, y, hrun, hcontent, hnodes, hshows, hno⟩ := run_ofScalar x s
  have hsame (r : Ref) : s₁.get? r = s.get? r := by rw [Store.get?, Store.get?, hnodes]
  obtain ⟨s', hattach, hshows', hstored⟩ := run_attach ha (fun r _ => hsame r)
    (Nat.le_of_eq (by rw [hnodes])) (hshows _) fun c hc => absurd hc (hno c)
  refine ⟨v, s', y, ?_, hcontent, hshows', hstored⟩
  rw [Json.events, List.foldlM_cons, take, run_bind (f := fun a => [].foldlM take a)
    ((run_bind hrun _).trans hattach)]
  rfl

theorem run_leave (a : Assembly) (r : Ref) (key : Scalar) (s : Store) :
    (leave (a.within r key)).run s = (.ok (a.placed (.node r)), s) := by
  obtain ⟨root, holders, keys⟩ := a
  cases holders <;> rfl

theorem assembles_list {xs : List Json} (hxs : ∀ x ∈ xs, Assembles x) : Assembles (.list xs) := by
  intro a s ha
  obtain ⟨s', ys, hrun, hys, hshow, hstored⟩ := run_openList hxs ha
  refine ⟨_, s', _, ?_, gained_list hys hshow hstored⟩
  exact (hrun [.endList]).trans (run_bind (run_leave a s.nodes.size .null s') _)

theorem assembles_map {xs : List (Scalar × Json)} (hxs : ∀ e ∈ xs, Assembles e.2)
    (hnames : ∀ e ∈ xs, ∃ s, e.1 = .str s)
    (honce : xs.Pairwise fun e e' => (e.1 == e'.1) = false) : Assembles (.map xs) := by
  intro a s ha
  obtain ⟨s', ys, key, hrun, hys, hshow, hstored⟩ := run_openMap hxs hnames honce ha
  refine ⟨_, s', _, ?_, gained_map hys hshow hstored⟩
  exact (hrun [.endMap]).trans (run_bind (run_leave a s.nodes.size key s') _)

variable {q : Scalar → Prop}

theorem assembles {x : Json} (hx : Json.IsDocument q x) : Assembles x := by
  induction hx with
  | scalar _ => exact assembles_scalar _
  | list _ ih => exact assembles_list ih
  | map names once _ ih => exact assembles_map ih names (Json.pairwise_keys names once)

/-- The first entries of a document open a map. -/
theorem run_openMap_document {done rest : List (Scalar × Json)}
    (hx : Json.IsDocument q (.map (done ++ rest))) (ha : a.Awaits s) :
    ∃ s' ys key, (∀ es, ((Json.Event.startMap :: (Json.entryEvents done ++ es)).foldlM take a).run s =
        (es.foldlM take (a.within s.nodes.size key)).run s') ∧
      Snapshot.entriesJson? ys = some done ∧
      s'.Shows s.nodes.size (.node s.nodes.size) (.map s.nodes.size mark ys) ∧
      a.Stored s (.node s.nodes.size) s' := by
  cases hx with | map names once parts =>
  exact run_openMap (fun e he => assembles (parts e (by simp [he])))
    (fun e he => names e (by simp [he]))
    (List.pairwise_append.mp (Json.pairwise_keys names once)).1 ha

/-- The first events of a tree build what was read of it. What is still open was stored into its
holder when it opened, so nothing has to be done when the events stop. -/
theorem run_read {x j : Json} {read : List Json.Event} (h : Json.Read x read j)
    (hx : Json.IsDocument q x) (ha : a.Awaits s) :
    ∃ a' v s' y, (read.foldlM take a).run s = (.ok a', s') ∧ a'.root = (a.placed v).root ∧
      a.Gained j s s' v y := by
  induction h generalizing a s with
  | whole x =>
    obtain ⟨v, s', y, hrun, hgained⟩ := assembles hx a s ha
    exact ⟨_, v, s', y, hrun, rfl, hgained⟩
  | list done rest =>
    cases hx with | list parts =>
    obtain ⟨s', ys, hrun, hys, hshow, hstored⟩ :=
      run_openList (fun x hx => assembles (parts x (List.mem_append_left rest hx))) ha
    refine ⟨a.within s.nodes.size .null, _, s', _, ?_, rfl, gained_list hys hshow hstored⟩
    rw [← List.append_nil (Json.itemEvents done)]
    exact hrun []
  | inList done rest _ ih =>
    cases hx with | list parts =>
    obtain ⟨s₁, ys, hrun, hys, hshow, hstored⟩ :=
      run_openList (fun x hx => assembles (parts x (List.mem_append_left _ hx))) ha
    have hawaits : (a.within s.nodes.size .null).Awaits s₁ := awaits_list rfl hshow
    obtain ⟨a', v, s', y, hlast, hroot, hgained⟩ := ih (parts _ (by simp)) hawaits
    obtain ⟨hshow', hfilled⟩ := hgained.shows_list rfl hshow
    refine ⟨a', _, s', _, (hrun _).trans hlast, hroot,
      gained_list (Snapshot.itemsJson?_snoc hys hgained.content) hshow'
        (hstored.filled (Nat.le_refl _) hfilled)⟩
  | map done rest =>
    obtain ⟨s', ys, key, hrun, hys, hshow, hstored⟩ := run_openMap_document hx ha
    refine ⟨a.within s.nodes.size key, _, s', _, ?_, rfl, gained_map hys hshow hstored⟩
    rw [← List.append_nil (Json.entryEvents done)]
    exact hrun []
  | atKey done k x rest =>
    obtain ⟨s', ys, key, hrun, hys, hshow, hstored⟩ := run_openMap_document hx ha
    exact ⟨_, _, s', _, (hrun _).trans (run_bind (run_key rfl _ s') _), rfl,
      gained_map hys hshow hstored⟩
  | @inMap done k x j read rest _ ih =>
    obtain ⟨s₁, ys, key, hrun, hys, hshow, hstored⟩ := run_openMap_document hx ha
    cases hx with | map names once parts =>
    obtain ⟨name, rfl⟩ : ∃ name, k = .str name := names (k, x) (by simp)
    have hname : String.ofList (Json.writePlain (.str name)) = name := String.ofList_toList
    have hnew : ∀ e ∈ done, (e.1 == Scalar.str name) = false := fun e he =>
      (List.pairwise_append.mp (Json.pairwise_keys names once)).2.2 e he (.str name, x) (by simp)
    have hawaits : (a.within s.nodes.size (.str name)).Awaits s₁ :=
      awaits_map rfl hshow hys (List.cons_ne_nil _ _) hnew
    obtain ⟨a', v, s', y, hlast, hroot, hgained⟩ := ih (parts (.str name, x) (by simp)) hawaits
    obtain ⟨hshow', hfilled⟩ := hgained.shows_map rfl hshow
    refine ⟨a', _, s', _, ?_, hroot, gained_map (Snapshot.entriesJson?_snoc hys hgained.content)
      hshow' (hstored.filled (Nat.le_refl _) hfilled)⟩
    rw [hname, hrun, List.foldlM_cons, run_bind (run_key rfl name s₁)]
    exact hlast

/-- Wherever the events of a document stop, building nodes from them succeeds. Nothing gives null,
all events give the document, and all that was read is there and nothing else: an initial part of the
document, in new containers of which each is the parent of those it holds. -/
theorem assemble_begins {t : Json} (ht : Json.IsDocument q t) {read : List Json.Event}
    (hread : read <+: Json.events t) (s : Store) :
    ∃ v s', (assemble read).run s = (.ok v, s') ∧
      (s'.snapshot v).json? = some (Json.ofEvents read) ∧
      (read = [] → v = .null) ∧
      (read ≠ [] → (Json.ofEvents read).Begins t ∧ Json.Shown read (Json.ofEvents read)) ∧
      (read = Json.events t → Json.ofEvents read = t) ∧
      (∀ r ∈ (s'.snapshot v).refs, s.nodes.size ≤ r ∧ ∀ c ∈ s'.childrenOf r, s'.parent? c = some r) ∧
      (∀ r, v = .node r → s'.parent? r = none) ∧
      ∀ r, r < s.nodes.size → s'.get? r = s.get? r := by
  by_cases hempty : read = []
  · subst hempty
    have hnothing : Json.ofEvents [] = .null := by
      rw [Json.ofEvents, List.foldl_nil, Json.Partial.empty, Json.Partial.tree,
        Json.Partial.collapse]
    have hnull : s.snapshot .null = .scalar .null := by rw [Store.snapshot, Store.snapshotWithin]
    refine ⟨.null, s, rfl, ?_, fun _ => rfl, fun h => absurd rfl h, fun h => ?_, ?_,
      fun r hr => absurd hr (by simp), fun _ _ => rfl⟩
    · rw [hnothing, hnull]
      rfl
    · rw [h, Json.ofEvents_events ht]
    · simp [hnull, Snapshot.refs]
  · obtain ⟨j, hj⟩ := Json.exists_read ht hread hempty
    have hofEvents := hj.ofEvents_eq ht
    have hawaits : Awaits .empty s := fun r hr => absurd hr (by simp [empty])
    obtain ⟨a, v, s', y, hrun, hroot, hgained⟩ := run_read hj ht hawaits
    have hsnapshot := hgained.shows.snapshot_eq
    refine ⟨v, s', ?_, ?_, fun h => absurd h hempty, fun _ => ?_, fun h => ?_, ?_,
      hgained.stored.parent, fun r hr => hgained.stored.unchanged r hr (by simp [empty])⟩
    · rw [assemble, run_bind hrun, hroot]
      rfl
    · rw [hsnapshot, hgained.content, hofEvents]
    · rw [hofEvents]
      exact ⟨hj.begins, hj.shown⟩
    · rw [h, Json.ofEvents_events ht]
    · rw [hsnapshot]
      exact hgained.shows.keeps y

/-- A document that stops behind the key of a map inside a list. -/
theorem assemble_begins_open :
    let t : Json := .map [(.str "a", .list [.scalar (.int 1), .map [(.str "b", .null)]]),
      (.str "c", .null)]
    let read : List Json.Event :=
      [.startMap, .key "a", .startList, .scalar (.int 1), .startMap, .key "b"]
    ∃ v s', (assemble read).run .empty = (.ok v, s') ∧
      (s'.snapshot v).json? = some (Json.ofEvents read) ∧
      (read = [] → v = .null) ∧
      (read ≠ [] → (Json.ofEvents read).Begins t ∧ Json.Shown read (Json.ofEvents read)) ∧
      (read = Json.events t → Json.ofEvents read = t) ∧
      (∀ r ∈ (s'.snapshot v).refs, 0 ≤ r ∧ ∀ c ∈ s'.childrenOf r, s'.parent? c = some r) ∧
      (∀ r, v = .node r → s'.parent? r = none) ∧
      ∀ r, r < 0 → s'.get? r = Store.empty.get? r := by
  intro t read
  exact assemble_begins (q := fun _ => True) (by decide) (by decide) .empty

end Assembly
end Exemplar
