import Exemplar.Proofs.RunOutcomes

/-! Runs that succeed, taken apart: what the success of an operation says of the store it started
from, of what it gives and of the store behind it. -/
namespace Exemplar.StoreM

variable {α β : Type} {s s' : Store} {r : Ref}

theorem of_run_bind {a : StoreM α} {f : α → StoreM β} {y : β} (h : (a >>= f).run s = (.ok y, s')) :
    ∃ x s₁, a.run s = (.ok x, s₁) ∧ (f x).run s₁ = (.ok y, s') := by
  change ((ExceptT.run a).bind (ExceptT.bindCont f)) s = _ at h
  simp only [StateT.bind] at h
  rcases ha : (ExceptT.run a) s with ⟨_ | x, s₁⟩
  · rw [ha] at h
    cases h
  · rw [ha] at h
    exact ⟨x, s₁, ha, h⟩

theorem of_run_pure {x y : α} (h : (pure x : StoreM α).run s = (.ok y, s')) : y = x ∧ s' = s := by
  cases h
  exact ⟨rfl, rfl⟩

theorem not_run_throw {f : StoreFault} {y : α} (h : (throw f : StoreM α).run s = (.ok y, s')) :
    False := by
  cases h

theorem of_run_get {x : Store} (h : (get : StoreM Store).run s = (.ok x, s')) :
    x = s ∧ s' = s := by
  cases h
  exact ⟨rfl, rfl⟩

theorem of_run_add {n : Node} {c : Ref} (h : (add n).run s = (.ok c, s')) :
    c = s.nodes.size ∧ s' = (s.add n).2 := by
  cases h
  exact ⟨rfl, rfl⟩

theorem of_run_change {f : Node → Node} {u : Unit} (h : (change r f).run s = (.ok u, s')) :
    s' = s.modify r f := by
  cases h
  rfl

/-- What is read from a node that is there. -/
theorem of_run_node_bind {f : Node → StoreM β} {y : β} (h : (node r >>= f).run s = (.ok y, s')) :
    ∃ n, s.get? r = some n ∧ (f n).run s = (.ok y, s') := by
  cases hn : s.get? r with
  | some n =>
    rw [run_bind (run_node hn)] at h
    exact ⟨n, rfl, h⟩
  | none =>
    have hfails : (node r).run s = (.error .wrongKind, s) := by
      rw [node, run_bind (run_get s), hn]
      rfl
    obtain ⟨n, s₁, hnode, -⟩ := of_run_bind h
    rw [hfails] at hnode
    cases hnode

theorem of_run_entries_bind {f : Assoc Scalar Value → StoreM β} {y : β}
    (h : (entries r >>= f).run s = (.ok y, s')) :
    ∃ n es, s.get? r = some n ∧ n.body = .map es ∧ (f es).run s = (.ok y, s') := by
  obtain ⟨es, s₁, hentries, hrest⟩ := of_run_bind h
  obtain ⟨n, hn, hbody⟩ := of_run_node_bind hentries
  cases hb : n.body with
  | map fs =>
    rw [hb] at hbody
    obtain ⟨rfl, rfl⟩ := of_run_pure hbody
    exact ⟨n, es, hn, hb, hrest⟩
  | list vs =>
    rw [hb] at hbody
    exact (not_run_throw hbody).elim

theorem of_run_items_bind {f : List Value → StoreM β} {y : β}
    (h : (items r >>= f).run s = (.ok y, s')) :
    ∃ n vs, s.get? r = some n ∧ n.body = .list vs ∧ (f vs).run s = (.ok y, s') := by
  obtain ⟨vs, s₁, hitems, hrest⟩ := of_run_bind h
  obtain ⟨n, hn, hbody⟩ := of_run_node_bind hitems
  cases hb : n.body with
  | list ws =>
    rw [hb] at hbody
    obtain ⟨rfl, rfl⟩ := of_run_pure hbody
    exact ⟨n, vs, hn, hb, hrest⟩
  | map es =>
    rw [hb] at hbody
    exact (not_run_throw hbody).elim

theorem of_run_named {name : String} {a : StoreM α} {x : α}
    (h : (named r name a).run s = (.ok x, s')) : a.run s = (.ok x, s') := by
  obtain ⟨n, hn, hrest⟩ := of_run_node_bind h
  cases hset : Assoc.has n.attributes name with
  | true =>
    rw [hset] at hrest
    obtain ⟨_, _, hthrow, -⟩ := of_run_bind hrest
    exact (not_run_throw hthrow).elim
  | false =>
    rw [hset] at hrest
    exact hrest

end Exemplar.StoreM
