import Exemplar.Proofs.SparedNodes
import Exemplar.Store.Way

/-! What a change to one linked container leaves of the others, in any store. The content of the others
is as it was, and so are the links, except those of the nodes that the change touches. Such changes are
composed, and what they touch is seen from the start. -/
namespace Exemplar
open StoreM Value

namespace Store

/-- All containers are still there as they were, but for the content of one of them and for the links
of some linked ones. -/
structure Framed (m : Ref) (touched : Ref → Prop) (s s' : Store) : Prop where
  size : s.nodes.size ≤ s'.nodes.size
  old : ∀ r n, s.get? r = some n → ∃ b q, s'.get? r = some { n with body := b, parent := q } ∧
    (r ≠ m → b = n.body) ∧ (¬ touched r ∨ n.form = .plain → q = n.parent)

/-- An operation was given up, because it did not end. -/
def Broken (m : Ref) (touched : Ref → Prop) (s : Store) (f : StoreFault) (s' : Store) : Prop :=
  f = .endless ∧ Framed m touched s s'

structure Ready (s : Store) (r : Ref) (isMap : Bool) : Prop where
  intact : s.Intact
  target : ∃ n, s.get? r = some n ∧ n.form = .linked ∧ n.isMap = isMap

structure Released (s : Store) (vs : List Value) (s' : Store) : Prop where
  relinked : Relinked s s'
  spared : Spared (fun c => .node c ∈ vs) s s'
  intact : s'.Intact
  parents : ∀ c, s.IsLinked c → .node c ∈ vs → s'.parent? c = none

variable {s s₁ s₂ : Store} {m l r c : Ref} {n : Node} {v w : Value} {vs ws : List Value} {b : Body}
  {k : Bool} {f : StoreFault} {touched touched' : Ref → Prop} {es : Assoc Scalar Value}

theorem Spared.framed (h : Spared touched s s₁) (m : Ref) : Framed m touched s s₁ where
  size := h.size
  old r n hn := by
    obtain ⟨q, hq, hsame⟩ := h.old r n hn
    exact ⟨n.body, q, hq, fun _ => rfl, hsame⟩

theorem Framed.refl (m : Ref) (touched : Ref → Prop) (s : Store) : Framed m touched s s :=
  (Spared.refl touched s).framed m

theorem Framed.trans (h : Framed m touched s s₁) (h' : Framed m touched' s₁ s₂)
    (hsub : ∀ c, c < s.nodes.size → touched' c → touched c) : Framed m touched s s₂ where
  size := Nat.le_trans h.size h'.size
  old r n hn := by
    obtain ⟨b, q, hq, hbody, hsame⟩ := h.old r n hn
    obtain ⟨b', q', hq', hbody', hsame'⟩ := h'.old r _ hq
    refine ⟨b', q', hq', fun hr => (hbody' hr).trans (hbody hr), fun hkept => ?_⟩
    rw [← hsame hkept]
    exact hsame' (hkept.imp_left fun hnot ht => hnot (hsub r (get?_lt hn) ht))

theorem Framed.imp (h : Framed m touched s s₁)
    (hsub : ∀ c, c < s.nodes.size → touched c → touched' c) : Framed m touched' s s₁ :=
  (Framed.refl m touched' s).trans h hsub

/-- The content of the container itself may be changed. -/
theorem Framed.body (h : Framed m touched s s₁) (b : Body) :
    Framed m touched s (s₁.modify m fun n => { n with body := b }) where
  size := by
    rw [size_modify]
    exact h.size
  old r n hn := by
    obtain ⟨b', q, hq, hbody, hsame⟩ := h.old r n hn
    by_cases hrm : r = m
    · subst hrm
      exact ⟨b, q, get?_modify_self hq _, fun hne => absurd rfl hne, hsame⟩
    · exact ⟨b', q, (get?_modify_ne hrm _).trans hq, hbody, hsame⟩

/-- What is shown by a value that was there before was shown by it from the start, unless a plain
container was changed. -/
theorem Framed.offers (h : Framed m touched s s₁) (hs : s.Intact) (hm : s.IsLinked m)
    (hv : s.Knows v) (hc : s₁.Offers c v) : s.Offers c v := by
  induction hc with
  | node hlinked =>
    obtain ⟨n, hn⟩ := hv.found
    obtain ⟨b, q, hq, -⟩ := h.old c n hn
    have hform := hlinked.form hq
    exact .node ⟨n, hn, hform⟩
  | pair _ ih => exact .pair (ih hv)
  | @inside r n₁ v hfound hplain hheld _ ih =>
    obtain ⟨n, hn⟩ := hv.found
    obtain ⟨b, q, hq, hbody, -⟩ := h.old r n hn
    obtain rfl := Option.some.inj (hq.symm.trans hfound)
    have hplain : n.form = .plain := hplain
    have hrm : r ≠ m := by
      rintro rfl
      cases hplain.symm.trans (hm.form hn)
    have hvalues : Node.values { n with body := b, parent := q } = n.values := by
      rw [Node.values, Node.values, hbody hrm]
    rw [hvalues] at hheld
    exact .inside hn hplain hheld (ih (hs.closed r n hn v hheld))

theorem Ready.linked (h : s.Ready r k) : s.IsLinked r := by
  obtain ⟨n, hn, hform, -⟩ := h.target
  exact ⟨n, hn, hform⟩

theorem Ready.entries (h : s.Ready m true) : ∃ n es, s.get? m = some n ∧ n.form = .linked ∧
    n.body = .map es ∧ ∀ e ∈ es, s.Knows e.2 := by
  obtain ⟨n, hn, hform, hmap⟩ := h.target
  cases hbody : n.body with
  | map es =>
    refine ⟨n, es, hn, hform, hbody, fun e he => h.intact.closed m n hn e.2 ?_⟩
    rw [Node.values, hbody]
    exact List.mem_map_of_mem he
  | list vs =>
    rw [Node.isMap, hbody] at hmap
    cases hmap

theorem Intact.items (h : s.Intact) (hn : s.get? l = some n) (hbody : n.body = .list vs) :
    ∀ v ∈ vs, s.Knows v := by
  have hvalues := h.closed l n hn
  rwa [Node.values, hbody] at hvalues

theorem Ready.items (h : s.Ready l false) : ∃ n vs, s.get? l = some n ∧ n.form = .linked ∧
    n.body = .list vs ∧ ∀ v ∈ vs, s.Knows v := by
  obtain ⟨n, hn, hform, hmap⟩ := h.target
  cases hbody : n.body with
  | list vs => exact ⟨n, vs, hn, hform, hbody, h.intact.items hn hbody⟩
  | map es =>
    rw [Node.isMap, hbody] at hmap
    cases hmap

theorem Ready.run_named (h : s.Ready r k) {α : Type} (name : String) (a : StoreM α) :
    (named r name a).run s = a.run s := by
  obtain ⟨n, hn, -, hset⟩ := h.linked.found h.intact.ordinary
  exact StoreM.run_named hn hset name a

theorem Ready.ends_named (h : s.Ready r k) {α : Type} {a : StoreM α} {P : α → Store → Prop}
    {E : StoreFault → Store → Prop} {name : String} (ha : Ends a s P E) :
    Ends (named r name a) s P E := by
  rw [Ends, h.run_named]
  exact ha

theorem Ready.run_isPlain (h : s.Ready r k) : (isPlain r).run s = (.ok false, s) := by
  obtain ⟨n, hn, hform, -⟩ := h.target
  rw [StoreM.run_isPlain hn, hform]
  rfl

theorem Ready.after (h : s.Ready r k) {touched : Ref → Prop} (hspared : Spared touched s s₁)
    (hintact : s₁.Intact) : s₁.Ready r k := by
  obtain ⟨n, hn, hform, hmap⟩ := h.target
  obtain ⟨n₁, hn₁, hform₁, hbody₁⟩ := hspared.linked hn hform
  refine ⟨hintact, n₁, hn₁, hform₁, ?_⟩
  rw [Node.isMap, hbody₁]
  exact hmap

theorem Ready.write (h : s.Ready r k) (hmap : Node.isMap { n with body := b } = k)
    (hb : ∀ v ∈ Node.values { n with body := b }, s.Knows v) :
    (s.modify r fun n => { n with body := b }).Ready r k := by
  obtain ⟨n', hn', hform, -⟩ := h.target
  exact ⟨h.intact.body hb r, _, get?_modify_self hn' _, hform, hmap⟩

theorem Released.nil (h : s.Intact) : Released s [] s :=
  ⟨Relinked.refl s, Spared.refl _ s, h, fun _ _ hc => (List.not_mem_nil hc).elim⟩

theorem Released.append (h : Released s vs s₁) (h' : Released s₁ ws s₂) :
    Released s (vs ++ ws) s₂ where
  relinked := h.relinked.trans h'.relinked
  spared := by
    refine (h.spared.imp fun c _ hc => ?_).trans h'.spared fun c _ hc => ?_
    · exact List.mem_append_left ws hc
    · exact List.mem_append_right vs hc
  intact := h'.intact
  parents c hc hmem := by
    have hc₁ := h.relinked.kept.isLinked hc
    by_cases hlater : .node c ∈ ws
    · exact h'.parents c hc₁ hlater
    · rw [h'.spared.parent_eq hc₁.lt hlater]
      exact h.parents c hc ((List.mem_append.mp hmem).resolve_right hlater)

/-- Releasing never fails. -/
theorem Ready.run_releaseFrom (h : s.Ready r k) (hv : s.Knows v) :
    ∃ s₁, (releaseFrom r v).run s = (.ok (), s₁) ∧ Released s [v] s₁ := by
  have hrelease : (releaseFrom r v).run s = (release v).run s := by
    rw [releaseFrom, run_bind h.run_isPlain]
    rfl
  rw [hrelease]
  have hother (hnone : ∀ c, v = .node c → ¬ s.IsLinked c) : Released s [v] s :=
    ⟨Relinked.refl s, Spared.refl _ s, h.intact,
      fun c hc hmem => absurd hc (hnone c (List.mem_singleton.mp hmem).symm)⟩
  cases v with
  | node c =>
    obtain ⟨n, hn⟩ := hv.found
    by_cases hform : n.form = .plain
    · refine ⟨s, ?_, hother ?_⟩
      · change (link c none).run s = _
        rw [link, run_bind (run_node hn), hform]
        rfl
      · rintro d ⟨⟩ hlinked
        exact absurd (hform.symm.trans (hlinked.form hn)) (by simp)
    · have hlinked := h.intact.ordinary.isLinked hn hform
      refine ⟨_, run_link_ordinary h.intact.ordinary hlinked none, ?_⟩
      refine ⟨relinked_link h.intact.ordinary hlinked none, ?_, h.intact.link c none, ?_⟩
      · refine (spared_link h.intact.ordinary hlinked none).imp ?_
        rintro d - rfl
        exact List.mem_singleton.mpr rfl
      · intro d _ hmem
        cases List.mem_singleton.mp hmem
        rw [parent?, get?_modify_self hn]
        rfl
  | _ => exact ⟨s, rfl, hother (by simp)⟩

theorem Ready.run_releaseAll (h : s.Ready l k) (hvs : ∀ v ∈ vs, s.Knows v) :
    ∃ s₁, (ListNode.releaseAll l vs).run s = (.ok (), s₁) ∧ Released s vs s₁ := by
  induction vs generalizing s with
  | nil => exact ⟨s, rfl, Released.nil h.intact⟩
  | cons v vs ih =>
    obtain ⟨s₁, hrun, hfirst⟩ := h.run_releaseFrom (hvs v (by simp))
    have hknown : ∀ w ∈ vs, s₁.Knows w := fun w hw => (hvs w (by simp [hw])).mono hfirst.spared.size
    obtain ⟨s₂, hrest, hothers⟩ := ih (h.after hfirst.spared hfirst.intact) hknown
    refine ⟨s₂, ?_, hfirst.append hothers⟩
    rw [ListNode.releaseAll, run_bind hrun, hrest]

/-- Making a value fit to be held only fails if it does not end. -/
theorem Ready.ends_accept (h : s.Ready r k) (hv : s.Knows v) :
    Ends (accept r v) s (Fitted s v) (Stopped (s.Offers · v) s) :=
  ends_bind h.run_isPlain (ends_bind (run_get s) (ends_adopt _ h.intact hv _))

end Store
end Exemplar
