import Exemplar.Proofs.LostLinks
import Exemplar.Proofs.Spans

/-! Operations on a linked list of a sound store: each leaves a sound store in which the list holds
nothing but what it held before and what was stored. What left the list has lost its link, unless the
list was cleared. -/
namespace Exemplar
open StoreM Value

namespace ListNode

variable {s s' : Store} {l : Ref} {index : Int} {v w : Value} {u : Unit} {bindItem : BindItem}

theorem of_run_acceptItem (h : s.Ordinary) (hl : s.IsLinked l)
    (hrun : (acceptItem bindItem l v).run s = (.ok w, s')) :
    (accept l v).run s = (.ok w, s') := by
  obtain ⟨n, hn, hform, -⟩ := hl.found h
  obtain ⟨n', hn', haccept⟩ := of_run_node_bind (of_run_named hrun)
  obtain rfl := Option.some.inj (hn.symm.trans hn')
  rw [hform] at haccept
  exact haccept

/-- The item at an index has others before it and others behind it. -/
theorem of_run_get! (hrun : (get! l index).run s = (.ok v, s')) :
    ∃ n i vs, s.get? l = some n ∧ n.body = .list vs ∧ placeOf vs.length index = some i ∧
      vs[i]? = some v ∧ s' = s := by
  obtain ⟨n, vs, hn, hbody, hrest⟩ := of_run_items_bind hrun
  cases hplace : placeOf vs.length index with
  | none =>
    rw [hplace] at hrest
    exact (not_run_throw hrest).elim
  | some i =>
    rw [hplace] at hrest
    cases hget : vs[i]? with
    | none =>
      simp only [Option.bind_some, hget] at hrest
      exact (not_run_throw hrest).elim
    | some w =>
      simp only [Option.bind_some, hget] at hrest
      obtain ⟨rfl, rfl⟩ := of_run_pure hrest
      exact ⟨n, i, vs, hn, hbody, hplace, hget, rfl⟩

theorem of_run_place {i : Nat} (hrun : (place l index).run s = (.ok i, s')) :
    ∃ n vs, s.get? l = some n ∧ n.body = .list vs ∧ placeOf vs.length index = some i ∧ s' = s := by
  obtain ⟨n, vs, hn, hbody, hrest⟩ := of_run_items_bind hrun
  cases hplace : placeOf vs.length index with
  | none =>
    rw [hplace] at hrest
    exact (not_run_throw hrest).elim
  | some j =>
    rw [hplace] at hrest
    obtain ⟨rfl, rfl⟩ := of_run_pure hrest
    exact ⟨n, vs, hn, hbody, hplace, rfl⟩

theorem of_run_span {slice : Slice} {span' : Span} (hrun : (span l slice).run s = (.ok span', s')) :
    ∃ n vs, s.get? l = some n ∧ n.body = .list vs ∧ slice.span? vs.length = some span' ∧ s' = s := by
  obtain ⟨n, vs, hn, hbody, hrest⟩ := of_run_items_bind hrun
  cases hspan : slice.span? vs.length with
  | none =>
    rw [hspan] at hrest
    exact (not_run_throw hrest).elim
  | some t =>
    rw [hspan] at hrest
    obtain ⟨rfl, rfl⟩ := of_run_pure hrest
    exact ⟨n, vs, hn, hbody, hspan, rfl⟩

end ListNode

namespace Store
open ListNode

variable {s s' s₁ s₂ : Store} {l : Ref} {n n₁ : Node} {index : Int} {v w : Value} {u : Unit}
  {us vs ws : List Value} {bindItem : BindItem}

theorem Kept.items_eq (h : Kept s s₁) (hn : s.get? l = some n) (hbody : n.body = .list vs)
    (hn₁ : s₁.get? l = some n₁) (hbody₁ : n₁.body = .list ws) : ws = vs := by
  have hsame := h.body_eq hn hn₁
  rw [hbody, hbody₁] at hsame
  exact Body.list.inj hsame

/-- One item is taken from a list. -/
theorem perm_eraseIdx {i : Nat} (h : vs[i]? = some v) : (v :: vs.eraseIdx i).Perm vs := by
  obtain ⟨hi, rfl⟩ := List.getElem?_eq_some_iff.mp h
  exact List.getElem_cons_eraseIdx_perm hi

/-- The other items are what is left when the item at a place is released. -/
theorem Sound.taking_item (h : s.Sound) (hn : s.get? l = some n) (hform : n.form = .linked)
    (hbody : n.body = .list vs) {i : Nat} (hv : vs[i]? = some v) :
    s.Reworking l (v :: vs.eraseIdx i) s := by
  refine (h.reworking hn hform).perm ?_
  rw [Node.values, hbody]
  exact perm_eraseIdx hv

theorem mem_values_of_eraseIdx (hbody : n.body = .list vs) {i : Nat} (hw : w ∈ vs.eraseIdx i) :
    w ∈ n.values := by
  rw [Node.values, hbody]
  exact List.mem_of_mem_eraseIdx hw

theorem holds_item (hn : s.get? l = some n) (hform : n.form = .linked) (hbody : n.body = .list vs)
    (hv : v ∈ vs) : s.Holds l v := by
  refine ⟨n, hn, hform, ?_⟩
  rwa [Node.values, hbody]

theorem Sound.list_append (h : s.Sound) (hl : s.IsLinked l) (hv : s.Loose v)
    (hrun : (ListNode.append bindItem l v).run s = (.ok u, s')) : s.Reworked l [v] s' := by
  obtain ⟨n, hn, hform⟩ := hl
  obtain ⟨w, s₁, haccept, hwrite⟩ := of_run_bind hrun
  obtain ⟨n₁, vs₁, hn₁, hbody₁, hset⟩ := of_run_items_bind hwrite
  obtain ⟨hkept, hreworked⟩ := (h.reworking hn hform).store h (Kept.refl s) hn hform hv
    (fun w hw => hw) (of_run_acceptItem h.ordinary ⟨n, hn, hform⟩ haccept)
  have hvalues : n.values = vs₁ := by
    have hbody := hkept.body_eq hn hn₁
    rw [Node.values, ← hbody, hbody₁]
  rw [of_run_change hset]
  refine hreworked ?_
  rw [hvalues]
  exact List.perm_append_singleton w vs₁

theorem Sound.list_appendAll (h : s.Sound) (hl : s.IsLinked l) (hvs : s.Offered vs)
    (hrun : (appendAll bindItem l vs).run s = (.ok u, s')) : s.Reworked l vs s' := by
  induction vs generalizing s with
  | nil =>
    obtain ⟨-, rfl⟩ := of_run_pure hrun
    exact h.reworked
  | cons v vs ih =>
    obtain ⟨u', s₁, happend, hrest⟩ := of_run_bind hrun
    have hfirst := h.list_append hl (hvs.loose v (by simp)) (of_run_named happend)
    have hothers := ih hfirst.sound (hfirst.linked l hl) (hfirst.toChanged.offered hvs) hrest
    exact hfirst.trans hothers

theorem mem_childrenOf {r c : Ref} (hn : s.get? r = some n) :
    c ∈ s.childrenOf r ↔ .node c ∈ n.values := by
  unfold childrenOf Node.values
  rw [hn]
  cases hb : n.body <;> simp only [Option.map_some, hb, List.mem_filterMap]
  all_goals
    constructor
    · rintro ⟨v, hv, hc⟩
      cases v with
      | node d =>
        obtain rfl := Option.some.inj hc
        exact hv
      | _ => cases hc
    · exact fun hc => ⟨_, hc, rfl⟩

/-- Walking through plain data while a list grows stores copies of its maps. -/
theorem Sound.list_appendBelow (h : s.Sound) (hl : s.IsLinked l) {fuel : Nat} {pending : List Ref}
    (hpending : ∀ r ∈ pending, s.Plain (.node r))
    (hrun : (appendBelow bindItem l fuel pending).run s = (.ok u, s')) : s.Reworked l [] s' := by
  induction fuel generalizing s pending with
  | zero =>
    cases pending with
    | nil =>
      obtain ⟨-, rfl⟩ := of_run_pure hrun
      exact h.reworked
    | cons r rest => exact (not_run_throw hrun).elim
  | succ fuel ih =>
    cases pending with
    | nil =>
      obtain ⟨-, rfl⟩ := of_run_pure hrun
      exact h.reworked
    | cons r rest =>
      have hr : s.Plain (.node r) := hpending r (by simp)
      obtain ⟨n, hn, hstep⟩ := of_run_node_bind hrun
      have hwalk {s₁ : Store} (hstored : s.Reworked l [] s₁)
          (hrest : (do
            let s ← get
            appendBelow bindItem l fuel (s.childrenOf r ++ rest) : StoreM Unit).run s₁ = (.ok u, s')) :
          s.Reworked l [] s' := by
        obtain ⟨_, s₂, hget, hbelow⟩ := of_run_bind hrest
        obtain ⟨rfl, rfl⟩ := of_run_get hget
        refine hstored.trans (ih hstored.sound (hstored.linked l hl) ?_ hbelow)
        intro c hc
        rcases List.mem_append.mp hc with hchild | hlater
        · cases hr with
          | single hnode => cases hnode
          | node hfound hform hparts =>
            have hmem := (mem_childrenOf (hstored.plain r _ hfound hform)).mp hchild
            exact (hparts _ hmem).imp hstored.plain
        · exact (hpending c (by simp [hlater])).imp hstored.plain
      cases hmap : n.isMap with
      | false =>
        rw [hmap] at hstep
        exact hwalk h.reworked hstep
      | true =>
        rw [hmap] at hstep
        obtain ⟨u', s₁, happend, hrest⟩ := of_run_bind hstep
        refine hwalk ((h.list_append hl (Or.inl hr) (of_run_named happend)).imp h ?_) hrest
        refine fun c hc => ⟨fun hmem => ?_, fun hmem => (List.not_mem_nil hmem).elim⟩
        obtain rfl := Value.node.inj (List.mem_singleton.mp hmem)
        exact absurd hc hr.not_linked

/-- What is shown inside a container are values of its node. -/
theorem snapshotWithin_children {fuel : Nat} {path : List Ref} {w : Value} {y : Snapshot}
    (hy : y ∈ (s.snapshotWithin fuel path w).children) : ∃ fuel' r n v, w = .node r ∧
      s.get? r = some n ∧ v ∈ n.values ∧ y = s.snapshotWithin fuel' (r :: path) v := by
  cases fuel with
  | zero => cases w <;> simp [snapshotWithin, Snapshot.children] at hy
  | succ fuel =>
    cases w with
    | node r =>
      rw [snapshotWithin] at hy
      cases hn : s.get? r with
      | none => simp [hn, Snapshot.children] at hy
      | some n =>
        simp only [hn] at hy
        split at hy
        · simp [Snapshot.children] at hy
        · refine ⟨fuel, r, n, ?_⟩
          cases hbody : n.body with
          | map es =>
            simp only [hbody, Snapshot.children, List.mem_filter, List.map_map] at hy
            obtain ⟨e, he, rfl⟩ := List.mem_map.mp hy.1
            refine ⟨e.2, rfl, hn, ?_, rfl⟩
            rw [Node.values, hbody]
            exact List.mem_map_of_mem he
          | list vs =>
            simp only [hbody, Snapshot.children, List.mem_filter] at hy
            obtain ⟨v, hv, rfl⟩ := List.mem_map.mp hy.1
            refine ⟨v, rfl, hn, ?_, rfl⟩
            rwa [Node.values, hbody]
    | descendents mark root => cases root <;> simp [snapshotWithin, Snapshot.children] at hy
    | _ => simp [snapshotWithin, Snapshot.children] at hy

theorem snapshotWithin_ref {fuel : Nat} {path : List Ref} {w : Value} {c : Ref}
    (h : (s.snapshotWithin fuel path w).ref? = some c) : w = .node c := by
  cases fuel with
  | zero => cases w <;> simp [snapshotWithin, Snapshot.ref?] at h
  | succ fuel =>
    cases w with
    | node r =>
      rw [snapshotWithin] at h
      cases hn : s.get? r with
      | none => simp [hn, Snapshot.ref?] at h
      | some n =>
        simp only [hn] at h
        split at h
        · cases h
        · cases hbody : n.body <;> simp [hbody, Snapshot.ref?] at h <;> rw [h]
    | descendents mark root => cases root <;> simp [snapshotWithin, Snapshot.ref?] at h
    | _ => simp [snapshotWithin, Snapshot.ref?] at h

def ShowsPlain (s : Store) (x : Snapshot) : Prop :=
  ∃ fuel path w, s.Plain w ∧ x = s.snapshotWithin fuel path w

theorem ShowsPlain.ref {x : Snapshot} {c : Ref} (h : s.ShowsPlain x) (hc : x.ref? = some c) :
    s.Plain (.node c) := by
  obtain ⟨fuel, path, w, hw, rfl⟩ := h
  rwa [← snapshotWithin_ref hc]

theorem ShowsPlain.children {x : Snapshot} (h : s.ShowsPlain x) : ∀ y ∈ x.children, s.ShowsPlain y := by
  intro y hy
  obtain ⟨fuel, path, w, hw, rfl⟩ := h
  obtain ⟨fuel', r, n, v, rfl, hn, hv, rfl⟩ := snapshotWithin_children hy
  cases hw with
  | single hnode => cases hnode
  | node hfound _ hparts =>
    obtain rfl := Option.some.inj (hn.symm.trans hfound)
    exact ⟨_, _, v, hparts v hv, rfl⟩

/-- Only plain data is met on a walk through plain data. -/
theorem showsPlain_walk {pending : List Snapshot} (h : ∀ x ∈ pending, s.ShowsPlain x) :
    ∀ y ∈ Snapshot.walk pending, s.ShowsPlain y := by
  induction pending using Snapshot.walk.induct with
  | case1 =>
    rw [Snapshot.walk]
    exact List.forall_mem_nil _
  | case2 x rest hmap ih =>
    obtain ⟨hx, hrest⟩ := List.forall_mem_cons.mp h
    rw [Snapshot.walk, if_pos hmap]
    exact List.forall_mem_cons.mpr ⟨hx, ih (List.forall_mem_append.mpr ⟨hx.children, hrest⟩)⟩
  | case3 x rest hmap ih =>
    obtain ⟨hx, hrest⟩ := List.forall_mem_cons.mp h
    rw [Snapshot.walk, if_neg hmap]
    exact ih (List.forall_mem_append.mpr ⟨hx.children, hrest⟩)

theorem plain_mapsBelow {root c : Ref} (h : s.Plain (.node root)) (hc : c ∈ s.mapsBelow root) :
    s.Plain (.node c) := by
  obtain ⟨x, hx, href⟩ := List.mem_filterMap.mp hc
  have hroot : s.ShowsPlain (s.snapshot (.node root)) := ⟨_, _, _, h, rfl⟩
  exact (showsPlain_walk hroot.children x hx).ref href

theorem reads_requireEnd (l : Ref) (v : Value) (vs : List Value) : Reads (requireEnd l v vs) := by
  rw [requireEnd]
  split
  · refine (reads_isPlain l).bind fun b => ?_
    cases b
    · exact reads_throw _
    · exact reads_pure _
  · exact reads_pure _

theorem Sound.list_extendEach (h : s.Sound) (hl : s.IsLinked l)
    (hgiven : ∀ vs, (elements v).run s = (.ok vs, s) → vs = us) (hus : s.Offered us)
    (hrun : (extendEach bindItem l v).run s = (.ok u, s')) : s.Reworked l us s' := by
  obtain ⟨vs, s₁, helements, hrest⟩ := of_run_bind hrun
  obtain rfl := (reads_elements v).of_ok helements
  obtain rfl := hgiven vs helements
  obtain ⟨_, s₂, hall, hcheck⟩ := of_run_bind hrest
  obtain rfl := (reads_requireEnd l v vs).of_ok hcheck
  exact h.list_appendAll hl hus hall

theorem Sound.list_extend (h : s.Sound) (hl : s.IsLinked l)
    (hgiven : ∀ vs, (elements v).run s = (.ok vs, s) → vs = us) (hus : s.Offered us)
    (hview : ∀ mark root, v = .descendents mark (some root) → s.Plain (.node root))
    (hrun : (extend bindItem l v).run s = (.ok u, s')) : s.Reworked l us s' := by
  cases v with
  | descendents mark root =>
    cases root with
    | none => exact h.list_extendEach hl hgiven hus hrun
    | some root =>
      have hroot := hview mark root rfl
      obtain ⟨_, s₁, hget, hwalk⟩ := of_run_bind hrun
      obtain ⟨rfl, rfl⟩ := of_run_get hget
      obtain ⟨_, s₂, hget', hwalk'⟩ := of_run_bind hwalk
      obtain ⟨rfl, rfl⟩ := of_run_get hget'
      have hbelow := hgiven _ (run_bind (run_get _) _)
      refine (h.list_appendBelow hl (fun c hc => ?_) hwalk').imp h fun c hc =>
        ⟨fun hmem => (List.not_mem_nil hmem).elim, fun hmem => ?_⟩
      · cases hroot with
        | single hnode => cases hnode
        | node hfound hform hparts => exact hparts _ ((mem_childrenOf hfound).mp hc)
      · rw [← hbelow] at hmem
        obtain ⟨d, hd, hdc⟩ := List.mem_map.mp hmem
        obtain rfl := Value.node.inj hdc
        exact absurd hc (plain_mapsBelow hroot hd).not_linked
  | _ => exact h.list_extendEach hl hgiven hus hrun

theorem Sound.list_insert (h : s.Sound) (hl : s.IsLinked l) (hv : s.Loose v)
    (hrun : (ListNode.insert bindItem l index v).run s = (.ok u, s')) : s.Reworked l [v] s' := by
  obtain ⟨n, hn, hform⟩ := hl
  obtain ⟨w, s₁, haccept, hrest⟩ := of_run_bind hrun
  obtain ⟨u', s₂, hcountable, hwrite⟩ := of_run_bind hrest
  obtain rfl := (reads_requireCountable index).of_ok hcountable
  obtain ⟨n₁, vs₁, hn₁, hbody₁, hset⟩ := of_run_items_bind hwrite
  obtain ⟨hkept, hreworked⟩ := (h.reworking hn hform).store h (Kept.refl s) hn hform hv
    (fun w hw => hw) (of_run_acceptItem h.ordinary ⟨n, hn, hform⟩ haccept)
  have hvalues : n.values = vs₁ := by
    have hbody := hkept.body_eq hn hn₁
    rw [Node.values, ← hbody, hbody₁]
  rw [of_run_change hset]
  refine hreworked ?_
  rw [hvalues]
  conv_rhs => rw [← List.take_append_drop (insertPlace vs₁.length index) vs₁]
  exact List.perm_middle

theorem Sound.list_set (h : s.Sound) (hl : s.IsLinked l) (hv : s.Loose v)
    (hrun : (ListNode.set bindItem l index v).run s = (.ok u, s')) : s.Reworked l [v] s' := by
  obtain ⟨old, s₀, hget, hrest⟩ := of_run_bind hrun
  obtain ⟨n, i, vs, hn, hbody, hplace, hold, rfl⟩ := of_run_get! hget
  have hform := hl.form hn
  obtain ⟨u', s₁, hrelease, hrest⟩ := of_run_bind hrest
  obtain ⟨hreleased, hrelinked⟩ := (h.taking_item hn hform hbody hold).release
    (fun c hc => hc ▸ holds_item hn hform hbody (List.mem_of_getElem? hold)) hrelease
  obtain ⟨w, s₂, haccept, hrest⟩ := of_run_bind hrest
  obtain ⟨hkept₂, hreworked⟩ := hreleased.store h hrelinked.kept hn hform hv
    (fun w hw => mem_values_of_eraseIdx hbody hw)
    (of_run_acceptItem hreleased.ordinary hreleased.target haccept)
  obtain ⟨j, s₃, hplace', hwrite⟩ := of_run_bind hrest
  obtain ⟨n₂, vs₂, hn₂, hbody₂, hplace₂, rfl⟩ := of_run_place hplace'
  obtain ⟨n₃, vs₃, hn₃, hbody₃, hset⟩ := of_run_items_bind hwrite
  obtain rfl := hkept₂.items_eq hn hbody hn₂ hbody₂
  obtain rfl := hkept₂.items_eq hn hbody hn₃ hbody₃
  obtain rfl := Option.some.inj (hplace.symm.trans hplace₂)
  rw [of_run_change hset]
  exact hreworked (List.set_perm_cons_eraseIdx (List.getElem?_eq_some_iff.mp hold).1 w)

theorem Sound.list_delete (h : s.Sound) (hl : s.IsLinked l)
    (hrun : (ListNode.delete l index).run s = (.ok u, s')) : s.Reworked l [] s' := by
  obtain ⟨old, s₀, hget, hrest⟩ := of_run_bind hrun
  obtain ⟨n, i, vs, hn, hbody, hplace, hold, rfl⟩ := of_run_get! hget
  have hform := hl.form hn
  obtain ⟨u', s₁, hrelease, hrest⟩ := of_run_bind hrest
  obtain ⟨hreleased, hrelinked⟩ := (h.taking_item hn hform hbody hold).release
    (fun c hc => hc ▸ holds_item hn hform hbody (List.mem_of_getElem? hold)) hrelease
  have hkept := hrelinked.kept
  obtain ⟨n₁, vs₁, hn₁, hbody₁, hrest⟩ := of_run_items_bind hrest
  obtain ⟨j, s₂, hplace', hset⟩ := of_run_bind hrest
  obtain ⟨n₂, vs₂, hn₂, hbody₂, hplace₂, rfl⟩ := of_run_place hplace'
  obtain rfl := hkept.items_eq hn hbody hn₁ hbody₁
  obtain rfl := hkept.items_eq hn hbody hn₂ hbody₂
  obtain rfl := Option.some.inj (hplace.symm.trans hplace₂)
  rw [of_run_change hset]
  exact hreleased.written hkept hn hform (List.Perm.refl _)
    (fun w hw => Or.inl (mem_values_of_eraseIdx hbody hw)) (List.nil_subset _)

theorem Sound.list_pop (h : s.Sound) (hl : s.IsLinked l)
    (hrun : (ListNode.pop l index).run s = (.ok v, s')) : s.Reworked l [] s' := by
  obtain ⟨u, s₀, hcountable, htake⟩ := of_run_bind hrun
  obtain rfl := (reads_requireCountable index).of_ok hcountable
  obtain ⟨old, s₁, hget, hrest⟩ := of_run_bind htake
  obtain ⟨n, i, vs, hn, hbody, hplace, hold, rfl⟩ := of_run_get! hget
  have hform := hl.form hn
  obtain ⟨n₁, vs₁, hn₁, hbody₁, hwrite⟩ := of_run_items_bind hrest
  obtain ⟨j, s₂, hplace', hwrite'⟩ := of_run_bind hwrite
  obtain ⟨n₂, vs₂, hn₂, hbody₂, hplace₂, rfl⟩ := of_run_place hplace'
  obtain rfl := Option.some.inj (hn.symm.trans hn₁)
  obtain rfl := Option.some.inj (hn.symm.trans hn₂)
  obtain rfl := Body.list.inj (hbody.symm.trans hbody₁)
  obtain rfl := Body.list.inj (hbody.symm.trans hbody₂)
  obtain rfl := Option.some.inj (hplace.symm.trans hplace₂)
  obtain ⟨u', s₃, hset, hout⟩ := of_run_bind hwrite'
  obtain rfl := of_run_change hset
  obtain ⟨u'', s₄, hrelease, hpure⟩ := of_run_bind hout
  obtain ⟨-, rfl⟩ := of_run_pure hpure
  obtain ⟨hreleased, hrelinked⟩ := ((h.taking_item hn hform hbody hold).modify_body _).release
    (fun c hc => hc ▸ holds_item hn hform hbody (List.mem_of_getElem? hold)) hrelease
  exact hreleased.unwritten hrelinked.kept hn hform (List.Perm.refl _)
    fun w hw => mem_values_of_eraseIdx hbody hw

theorem Sound.list_remove (h : s.Sound) (hl : s.IsLinked l)
    (hrun : (ListNode.remove l v).run s = (.ok u, s')) : s.Reworked l [] s' := by
  obtain ⟨i, s₁, hindex, hdelete⟩ := of_run_bind hrun
  obtain rfl := (reads_indexOf l v).of_ok (of_run_named hindex)
  exact h.list_delete hl hdelete

theorem Sound.list_reverse (h : s.Sound) (hl : s.IsLinked l)
    (hrun : (ListNode.reverse l).run s = (.ok u, s')) : s.Reworked l [] s' := by
  obtain ⟨n, vs, hn, hbody, hset⟩ := of_run_items_bind hrun
  have hform := hl.form hn
  rw [of_run_change hset]
  refine (h.reworking hn hform).written (Kept.refl s) hn hform ?_ (fun w hw => Or.inl hw)
    (List.nil_subset _)
  rw [Node.values, Node.values, hbody]
  exact vs.reverse_perm

theorem Sound.list_clear (h : s.Sound) (hl : s.IsLinked l)
    (hrun : (ListNode.clear l).run s = (.ok u, s')) : s.Dropped l s' := by
  obtain ⟨n, hn, hform⟩ := hl
  rw [of_run_change hrun]
  exact h.dropped hn hform (List.nil_sublist _).subperm

theorem Reworking.releaseAll (h : s.Reworking l (us ++ ws) s₁) (hus : ∀ v ∈ us, s.Holds l v)
    (hrun : (ListNode.releaseAll l us).run s₁ = (.ok u, s₂)) :
    s.Reworking l ws s₂ ∧ Relinked s₁ s₂ := by
  induction us generalizing s₁ with
  | nil =>
    obtain ⟨-, rfl⟩ := of_run_pure hrun
    exact ⟨h, Relinked.refl _⟩
  | cons v us ih =>
    obtain ⟨u', s₃, hrelease, hrest⟩ := of_run_bind hrun
    obtain ⟨hreleased, hrelinked⟩ := Reworking.release h (fun c hc => hc ▸ hus v (by simp)) hrelease
    obtain ⟨hall, hrelinked'⟩ := ih hreleased (fun v hv => hus v (by simp [hv])) hrest
    exact ⟨hall, hrelinked.trans hrelinked'⟩

theorem Reworking.adoptAll (h : s.Reworking l ws s₁) (hus : s₁.Offered us)
    (hown : ∀ u ∈ us, ∀ c, s₁.IsLinked c → u = .node c → .node c ∉ ws)
    (hrun : (acceptItems bindItem l us).run s₁ = (.ok vs, s₂)) :
    s.Reworking l (vs ++ ws) s₂ ∧ Kept s₁ s₂ ∧
      (∀ c, .node c ∈ vs → .node c ∈ us ∨ s₁.nodes.size ≤ c) ∧
      ∀ c, s₁.IsLinked c → .node c ∈ us → .node c ∈ vs := by
  induction us generalizing s₁ ws vs with
  | nil =>
    obtain ⟨rfl, rfl⟩ := of_run_pure hrun
    exact ⟨h, Kept.refl _, fun _ hc => Or.inl hc, fun _ _ hc => hc⟩
  | cons v us ih =>
    obtain ⟨w, s₃, haccept, hrest⟩ := of_run_bind hrun
    obtain ⟨vs', s₄, hothers, hpure⟩ := of_run_bind hrest
    obtain ⟨rfl, rfl⟩ := of_run_pure hpure
    obtain ⟨hfirst, honce⟩ := List.pairwise_cons.mp hus.once
    have hloose : ∀ u ∈ us, s₁.Loose u := fun u hu => hus.loose u (by simp [hu])
    have haccept := of_run_acceptItem h.ordinary h.target haccept
    obtain ⟨hjoined, hkept, hmade⟩ := h.adopt (hus.loose v (by simp)) (hown v (by simp)) haccept
    have hown' : ∀ u ∈ us, ∀ c, s₃.IsLinked c → u = .node c → .node c ∉ w :: ws := by
      intro u hu c hc huc hmem
      have hcloose := hloose u hu
      rw [huc] at hcloose
      have hlinked := hkept.altered.linked_before hcloose hc
      rcases List.mem_cons.mp hmem with hw | hws
      · rcases hmade c hw.symm with hvc | hfresh
        · exact hfirst u hu c hlinked hvc huc
        · exact absurd hlinked.lt (Nat.not_lt.mpr hfresh)
      · exact hown u (by simp [hu]) c hlinked huc hws
    obtain ⟨hall, hkept', hmade', hheld⟩ := ih hjoined (hkept.offered ⟨hloose, honce⟩) hown' hothers
    refine ⟨hall.perm List.perm_middle.symm, hkept.trans hkept', fun c hc => ?_, fun c hc hmem => ?_⟩
    · rcases List.mem_cons.mp hc with hw | hlater
      · exact (hmade c hw.symm).imp_left fun hvc => by simp [hvc]
      · exact (hmade' c hlater).imp (fun hu => by simp [hu]) (Nat.le_trans hkept.size)
    · rcases List.mem_cons.mp hmem with rfl | hlater
      · rw [(linked_of_accept h.ordinary h.target hc haccept).1]
        exact List.mem_cons_self
      · exact List.mem_cons_of_mem w (hheld c (hkept.isLinked hc) hlater)

theorem Sound.taking_items (h : s.Sound) (hn : s.get? l = some n) (hform : n.form = .linked)
    (hbody : n.body = .list vs) {slice : Slice} {t : Span} (ht : slice.span? vs.length = some t) :
    s.Reworking l (t.select vs ++ t.reject vs) s ∧
      ∀ v ∈ t.select vs ++ t.reject vs, v ∈ n.values := by
  have hperm : (t.select vs ++ t.reject vs).Perm n.values := by
    rw [Node.values, hbody]
    exact Span.perm_select_reject (Slice.within ht).nodup vs
  exact ⟨(h.reworking hn hform).perm hperm, fun v hv => hperm.subset hv⟩

theorem Sound.list_deleteSlice (h : s.Sound) (hl : s.IsLinked l) {slice : Slice}
    (hrun : (deleteSlice l slice).run s = (.ok u, s')) : s.Reworked l [] s' := by
  obtain ⟨t, s₀, hspan, hdelete⟩ := of_run_bind hrun
  obtain ⟨n, vs, hn, hbody, ht, rfl⟩ := of_run_span hspan
  have hform := hl.form hn
  obtain ⟨n₁, vs₁, hn₁, hbody₁, hrest⟩ := of_run_items_bind hdelete
  obtain rfl := Option.some.inj (hn.symm.trans hn₁)
  obtain rfl := Body.list.inj (hbody.symm.trans hbody₁)
  obtain ⟨u', s₁, hrelease, hwrite⟩ := of_run_bind hrest
  obtain ⟨n₂, vs₂, hn₂, hbody₂, hset⟩ := of_run_items_bind hwrite
  obtain ⟨htaking, hvalues⟩ := h.taking_items hn hform hbody ht
  obtain ⟨hreleased, hrelinked⟩ := htaking.releaseAll
    (fun v hv => ⟨n, hn, hform, hvalues v (List.mem_append_left _ hv)⟩) hrelease
  have hkept := hrelinked.kept
  obtain rfl := hkept.items_eq hn hbody hn₂ hbody₂
  rw [of_run_change hset]
  exact hreleased.written hkept hn hform (List.Perm.refl _)
    (fun w hw => Or.inl (hvalues w (List.mem_append_right _ hw))) (List.nil_subset _)

/-- What a value looks like does not depend on links. -/
theorem Relinked.snapshotWithin_eq (h : Relinked s s') (fuel : Nat) (path : List Ref) (v : Value) :
    s'.snapshotWithin fuel path v = s.snapshotWithin fuel path v := by
  induction fuel generalizing path v with
  | zero => cases v <;> rfl
  | succ fuel ih =>
    cases v with
    | scalar _ => rfl
    | nan _ => rfl
    | member m => simp only [snapshotWithin, literal?, h.enums, ih]
    | pair key v => simp only [snapshotWithin, ih]
    | descendents mark root => cases root <;> simp only [snapshotWithin, ih]
    | node r =>
      cases hn : s.get? r with
      | none =>
        have hn' : s'.get? r = none := by
          rw [get?, Array.getElem?_eq_none_iff, h.size]
          exact le_of_get?_none hn
        simp only [snapshotWithin, hn, hn']
      | some n =>
        obtain ⟨q, hn', -⟩ := h.old r n hn
        simp only [snapshotWithin, hn, hn', Node.isMap]
        have hinside : s'.snapshotWithin fuel (r :: path) = s.snapshotWithin fuel (r :: path) :=
          funext (ih (r :: path))
        cases n.body <;> simp only [hinside]

theorem Relinked.elements (h : Relinked s s') (hrun : (StoreM.elements v).run s' = (.ok vs, s')) :
    (StoreM.elements v).run s = (.ok vs, s) := by
  match v with
  | .scalar (.str _) =>
    obtain ⟨rfl, -⟩ := of_run_pure hrun
    rfl
  | .scalar .null | .scalar (.bool _) | .scalar (.int _) | .scalar (.float _) =>
    exact (not_run_throw hrun).elim
  | .nan _ | .member _ => exact (not_run_throw hrun).elim
  | .pair _ _ =>
    obtain ⟨rfl, -⟩ := of_run_pure hrun
    rfl
  | .descendents _ none =>
    obtain ⟨rfl, -⟩ := of_run_pure hrun
    rfl
  | .descendents _ (some r) =>
    obtain ⟨_, s₁, hget, hpure⟩ := of_run_bind hrun
    obtain ⟨rfl, rfl⟩ := of_run_get hget
    obtain ⟨rfl, -⟩ := of_run_pure hpure
    have hbelow : s₁.mapsBelow r = s.mapsBelow r := by
      simp only [mapsBelow, snapshot, h.size, h.snapshotWithin_eq]
    rw [hbelow]
    exact run_bind (run_get s) _
  | .node r =>
    obtain ⟨n, hn, hbody⟩ := of_run_node_bind hrun
    cases hs : s.get? r with
    | none =>
      have hlt := get?_lt hn
      rw [h.size] at hlt
      exact absurd hlt (Nat.not_lt.mpr (le_of_get?_none hs))
    | some n₀ =>
      obtain ⟨q, hq, -⟩ := h.old r n₀ hs
      obtain rfl := Option.some.inj (hq.symm.trans hn)
      rw [StoreM.elements, run_bind (run_node hs)]
      cases hb : n₀.body <;> simp only [hb] at hbody ⊢
      all_goals
        obtain ⟨rfl, -⟩ := of_run_pure hbody
        rfl

theorem Sound.list_setSlice (h : s.Sound) (hl : s.IsLinked l) {slice : Slice}
    (hgiven : ∀ vs, (StoreM.elements v).run s = (.ok vs, s) → vs = us) (hus : s.Offered us)
    (hrun : (setSlice bindItem l slice v).run s = (.ok u, s')) : s.Reworked l us s' := by
  obtain ⟨t, s₀, hspan, hrest⟩ := of_run_bind hrun
  obtain ⟨n, xs, hn, hbody, ht, rfl⟩ := of_run_span hspan
  have hform := hl.form hn
  obtain ⟨n₁, xs₁, hn₁, hbody₁, hrelease⟩ := of_run_items_bind hrest
  obtain rfl := Option.some.inj (hn.symm.trans hn₁)
  obtain rfl := Body.list.inj (hbody.symm.trans hbody₁)
  obtain ⟨u', s₁, hreleaseAll, hrest₁⟩ := of_run_bind hrelease
  obtain ⟨htaking, hvalues⟩ := h.taking_items hn hform hbody ht
  obtain ⟨hreleased, hrelinked⟩ := htaking.releaseAll
    (fun v hv => ⟨n, hn, hform, hvalues v (List.mem_append_left _ hv)⟩) hreleaseAll
  obtain ⟨vs, s₂, helements, hrest₂⟩ := of_run_bind hrest₁
  obtain rfl := (reads_elements v).of_ok helements
  obtain rfl := hgiven vs (hrelinked.elements helements)
  obtain ⟨new, s₃, haccept, hrest₃⟩ := of_run_bind hrest₂
  have hkept := hrelinked.kept
  have hown : ∀ v ∈ vs, ∀ c, s₂.IsLinked c → v = .node c → .node c ∉ t.reject xs :=
    fun v hv c _ hvc hmem =>
      h.not_mem (hus.loose v hv) hn hform hvc (hvalues _ (List.mem_append_right _ hmem))
  obtain ⟨hjoined, hkept', hmade, hheld⟩ := hreleased.adoptAll (hkept.offered hus) hown haccept
  have hkept₃ := hkept.trans hkept'
  obtain ⟨t₃, s₄, hspan₃, hrest₄⟩ := of_run_bind hrest₃
  obtain ⟨n₃, xs₃, hn₃, hbody₃, ht₃, rfl⟩ := of_run_span hspan₃
  obtain rfl := hkept₃.items_eq hn hbody hn₃ hbody₃
  obtain rfl := Option.some.inj (ht.symm.trans ht₃)
  obtain ⟨n₄, xs₄, hn₄, hbody₄, hrest₅⟩ := of_run_items_bind hrest₄
  obtain rfl := hkept₃.items_eq hn hbody hn₄ hbody₄
  cases hreplace : t.replace? xs₄ new with
  | none =>
    rw [hreplace] at hrest₅
    exact (not_run_throw hrest₅).elim
  | some ys =>
    rw [hreplace] at hrest₅
    rw [of_run_change hrest₅]
    have hys : (Node.values { n with body := .list ys }).Perm (new ++ t.reject xs₄) :=
      Span.perm_replace (Slice.within ht) hreplace
    have hwritten : s₀.Reworked l new (s₄.modify l fun n => { n with body := .list ys }) := by
      refine hjoined.written hkept₃ hn hform hys (fun w hw => ?_) (List.subset_append_left _ _)
      rcases List.mem_append.mp hw with hnew | hold
      · exact Or.inr hnew
      · exact Or.inl (hvalues w (List.mem_append_right _ hold))
    refine hwritten.imp h fun c hc => ⟨fun hmem => (hmade c hmem).resolve_right fun hfresh => ?_,
      hheld c (hkept.isLinked hc)⟩
    exact absurd (Nat.lt_of_lt_of_le hc.lt hkept.size) (Nat.not_lt.mpr hfresh)

end Store
end Exemplar
