import Exemplar.Proofs.DetachedNodes
import Exemplar.Proofs.Nesting

/-! Ways up along the links. Where no container contains itself, a way leads through the containers that
hold one another and ends at a node without a parent, or at one that was left in a container when that
was cleared or lost its last entry. Only there a way can come back to where it began. -/
namespace Exemplar
open StoreM Relation

/-- What does not release what it takes out stores nothing. -/
theorem MapOperation.stored_of_keeps {s : Store} {m : Ref} {op : MapOperation}
    (h : op.releases = false) : op.stored s m = [] := by
  cases op <;> first | rfl | cases h

theorem ListOperation.stored_of_keeps {s : Store} {op : ListOperation} (h : op.releases = false) :
    op.stored s = [] := by
  cases op <;> first | rfl | cases h

namespace Store

variable {s s' : Store} {m c r q : Ref} {vs : List Value} {releases : Bool}
  {bindItem : ListNode.BindItem}

def Gives (s : Store) (c : Ref) (q : Option Ref) : Prop := (askParent c).run s = (.ok q, s)

theorem Sound.gives (h : s.Sound) (hc : s.IsLinked c) : s.Gives c (s.parent? c) := by
  obtain ⟨n, hn, -, hset⟩ := hc.found h.ordinary
  rw [Gives, run_askParent hn hset, parent?, hn]
  rfl

theorem Sound.gives_of_heldBy (h : s.Sound) (hc : s.HeldBy c r) : s.Gives c (some r) := by
  obtain ⟨n, hn, hform, hmem⟩ := hc
  obtain ⟨hlinked, hparent⟩ := (h.settled r n hn hform).rest _ hmem
  exact hparent ▸ h.gives hlinked

/-- On a way up each node gives the next one as its parent, and the last one gives none. -/
structure Upwards (s : Store) (way : List Ref) : Prop where
  chain : way.IsChain fun a b => s.Gives a (some b)
  ends : ∀ r ∈ way.getLast?, s.Gives r none

theorem Upwards.head {way : List Ref} (h : s.Upwards (c :: way)) : s.Gives c way.head? := by
  cases way with
  | nil => exact h.ends c rfl
  | cons b way => exact h.chain.rel

theorem Upwards.tail {way : List Ref} (h : s.Upwards (c :: way)) : s.Upwards way where
  chain := h.chain.tail
  ends r hr := by
    cases way with
    | nil => cases hr
    | cons b way => exact h.ends r hr

/-- The nearest struct is the first one on the way. -/
theorem Upwards.askTypedFrom {way : List Ref} {steps : Nat} (h : s.Upwards way)
    (hsteps : way.length ≤ steps) :
    (StoreM.askTypedFrom steps way.head?).run s = (.ok (way.find? s.isStruct), s) := by
  induction way generalizing steps with
  | nil => cases steps <;> rfl
  | cons a way ih =>
    obtain ⟨more, rfl⟩ := Nat.exists_eq_add_of_lt hsteps
    rw [List.head?_cons, StoreM.askTypedFrom, run_bind (run_get s), List.find?_cons]
    cases s.isStruct a with
    | true => rfl
    | false =>
      refine (run_bind h.head _).trans (ih h.tail ?_)
      exact Nat.le_add_right way.length more

theorem Upwards.askTypedParent {way : List Ref} (h : s.Upwards (c :: way))
    (hlength : way.length < s.nodes.size) :
    (StoreM.askTypedParent c).run s = (.ok (way.find? s.isStruct), s) := by
  rw [StoreM.askTypedParent, run_bind (run_get s), run_bind h.head]
  exact h.tail.askTypedFrom (Nat.le_succ_of_le (Nat.le_of_lt hlength))

/-- Where the ways from some nodes lead to such nodes again, and none of them is a struct, no number of
steps is enough to find one. -/
theorem askTypedFrom_endless {ring : Ref → Prop}
    (hring : ∀ r, ring r → s.isStruct r = false ∧ ∃ q, ring q ∧ s.Gives r (some q)) (hr : ring r)
    (steps : Nat) : (StoreM.askTypedFrom steps (some r)).run s = (.error .endless, s) := by
  induction steps generalizing r with
  | zero => rfl
  | succ steps ih =>
    obtain ⟨hno, q, hq, hgives⟩ := hring r hr
    rw [StoreM.askTypedFrom, run_bind (run_get s), hno]
    exact (run_bind hgives _).trans (ih hq)

theorem askTypedParent_endless {ring : Ref → Prop}
    (hring : ∀ r, ring r → s.isStruct r = false ∧ ∃ q, ring q ∧ s.Gives r (some q)) (hr : ring r) :
    (StoreM.askTypedParent r).run s = (.error .endless, s) := by
  obtain ⟨-, q, hq, hgives⟩ := hring r hr
  rw [StoreM.askTypedParent, run_bind (run_get s), run_bind hgives]
  exact askTypedFrom_endless hring hq _

/-- A node was left in a container that was cleared or lost its last entry, and has not been stored
since. -/
def Stale (bindItem : ListNode.BindItem) (r q : Ref) (s : Store) : Prop :=
  ∃ s₁ s₂, ReflTransGen (NestedStep bindItem) Store.empty s₁ ∧ TakenOut bindItem q r s₁ s₂ false ∧
    ReflTransGen (StepWithout bindItem r) s₂ s

theorem Stale.step (h : Stale bindItem r q s) (hstep : StepWithout bindItem r s s') :
    Stale bindItem r q s' := by
  obtain ⟨s₁, s₂, hbefore, htaken, hlater⟩ := h
  exact ⟨s₁, s₂, hbefore, htaken, hlater.tail hstep⟩

theorem Stale.gives (h : Stale bindItem r q s) : s.Gives r (some q) := by
  obtain ⟨s₁, s₂, hbefore, htaken, hlater⟩ := h
  obtain ⟨hsound, hdetached⟩ := (orderly_empty.steps hbefore).toSound.detached_later htaken hlater
  have hgives := hsound.gives hdetached.linked
  rwa [hdetached.parent] at hgives

/-- Every node that no container holds has no link, or one that was left. -/
def Traced (bindItem : ListNode.BindItem) (s : Store) : Prop :=
  ∀ r, s.IsLinked r → s.Free r → s.parent? r = none ∨ ∃ q, Stale bindItem r q s

theorem traced_empty : Traced bindItem Store.empty := by
  rintro r ⟨n, hn, -⟩
  cases hn

theorem Traced.supplied (h : Traced bindItem s) (hs : Supplied s s') : Traced bindItem s' := by
  rintro r ⟨n, hn, hform⟩ hfree
  rcases hs.new r n hn with hold | hplain | ⟨-, -, hparent, -⟩
  · have hsame : s'.parent? r = s.parent? r := by rw [parent?, parent?, hn, hold]
    rw [hsame]
    refine (h r ⟨n, hold, hform⟩ fun m hm => hfree m (hs.holds.mpr hm)).imp_right ?_
    rintro ⟨q, hq⟩
    exact ⟨q, hq.step (.supply hs)⟩
  · cases hform.symm.trans hplain
  · left
    rw [parent?, hn]
    exact hparent

/-- After an operation on a container only what it took out without releasing it has become stale. -/
theorem Traced.after (h : Traced bindItem s) (hs : s.Orderly) (hafter : s.After m vs releases s')
    (hstored : releases = false → vs = [])
    (htaken : ∀ r, s.Holds m (.node r) → ¬ s'.Holds m (.node r) → releases = false →
      Stale bindItem r m s')
    (hother : ∀ r, .node r ∉ vs → StepWithout bindItem r s s') : Traced bindItem s' := by
  intro r hr hfree
  by_cases hold : s.IsLinked r ∧ .node r ∉ vs
  · obtain ⟨hlinked, hnot⟩ := hold
    by_cases hheld : s.Holds m (.node r)
    · cases releases with
      | true => exact .inl ((hafter.parted r hlinked hnot (hfree m)).lost hheld)
      | false => exact .inr ⟨m, htaken r hheld (hfree m) rfl⟩
    · have hsame : s'.parent? r = s.parent? r := by
        cases releases with
        | true => exact (hafter.parted r hlinked hnot (hfree m)).same hheld
        | false => exact hafter.parents r
      have hbefore : s.Free r := by
        intro r' hr'
        by_cases hrm : r' = m
        · exact hheld (hrm ▸ hr')
        · exact hfree r' (hafter.sited.beside r' _ hrm hr')
      rw [hsame]
      refine (h r hlinked hbefore).imp_right ?_
      rintro ⟨q, hq⟩
      exact ⟨q, hq.step (hother r hnot)⟩
  · left
    cases releases with
    | true =>
      exact hafter.loose hs.tidy r hr hfree fun hlinked =>
        by_contra fun hnot => hold ⟨hlinked, hnot⟩
    | false =>
      refine absurd ⟨hafter.linkedBefore r (hafter.count ▸ hr.lt) hr, ?_⟩ hold
      rw [hstored rfl]
      exact List.not_mem_nil

theorem Traced.step (h : Traced bindItem s)
    (hsteps : ReflTransGen (NestedStep bindItem) Store.empty s) (hstep : NestedStep bindItem s s') :
    Traced bindItem s' := by
  have hs := orderly_empty.steps hsteps
  cases hstep with
  | supply hsupplied _ => exact h.supplied hsupplied
  | map hm hop _ hrun =>
    refine h.after hs (hs.toSound.map_run hm hop hrun) MapOperation.stored_of_keeps
      (fun r hheld hgone hkeeps => ?_) fun r hnot => .map hm hop hnot hrun
    exact ⟨s, s', hsteps, hkeeps ▸ .map hheld hgone hop hrun, .refl⟩
  | list hl hop _ hrun =>
    refine h.after hs (hs.toSound.list_run hl hop hrun) ListOperation.stored_of_keeps
      (fun r hheld hgone hkeeps => ?_) fun r hnot => .list hl hop hnot hrun
    exact ⟨s, s', hsteps, hkeeps ▸ .list hheld hgone hop hrun, .refl⟩

theorem traced_steps (hsteps : ReflTransGen (NestedStep bindItem) Store.empty s) :
    Traced bindItem s := by
  induction hsteps with
  | refl => exact traced_empty
  | tail hsteps hstep ih => exact ih.step hsteps hstep

/-- After every run that begins with nothing and stores nothing into what it contains, the way up from
a node ends at one that no container holds. If this one has no parent, the nearest struct is the first
one on the way. Otherwise it was left in a container that was cleared or lost its last entry, has not
been stored since, and gives that container as its parent for ever. -/
theorem askTypedParent_of_nested (hsteps : ReflTransGen (NestedStep bindItem) Store.empty s)
    (hc : s.IsLinked c) :
    ∃ way r, (c :: way).IsChain (fun a b => s.Gives a (some b)) ∧ r ∈ (c :: way).getLast? ∧ s.Free r ∧
      (s.Gives r none ∧ (askTypedParent c).run s = (.ok (way.find? s.isStruct), s) ∨
        ∃ q, s.Gives r (some q) ∧ Stale bindItem r q s) := by
  have hs := orderly_empty.steps hsteps
  obtain ⟨way, r, hway, hlast, hr, hfree⟩ := hs.way hc
  have hchain : (c :: way).IsChain fun a b => s.Gives a (some b) :=
    hway.imp fun _ _ => hs.toSound.gives_of_heldBy
  refine ⟨way, r, hchain, hlast, hfree, ?_⟩
  rcases traced_steps hsteps r hr hfree with hnone | ⟨q, hq⟩
  · left
    have hends : s.Gives r none := hnone ▸ hs.toSound.gives hr
    have hup : s.Upwards (c :: way) := by
      refine ⟨hchain, fun r' hr' => ?_⟩
      obtain rfl := Option.some.inj (hlast.symm.trans hr')
      exact hends
    exact ⟨hends, hup.askTypedParent (hs.length_way hc hway)⟩
  · exact .inr ⟨q, hq.gives, hq⟩

/-- A map is stored in another one, which is cleared and then stored in the first. Each of the two
gives the other one as its parent. -/
theorem askTypedParent_of_nested_clear :
    let empty : Node := { body := .map [], form := .linked }
    let held : Store := { nodes := #[{ empty with body := .map [(.str "x", .node 1)] },
      { empty with parent := some 0 }] }
    let cleared : Store := { nodes := #[empty, { empty with parent := some 0 }] }
    let circle : Store := { nodes := #[{ empty with parent := some 1 },
      { body := .map [(.str "y", .node 0)], form := .linked, parent := some 0 }] }
    (MapOperation.run 0 .clear).run held = (.ok .null, cleared) ∧
      (MapOperation.run 1 (.set (.str "y") (.node 0))).run cleared = (.ok .null, circle) ∧
      (∃ way r, (0 :: way).IsChain (fun a b => circle.Gives a (some b)) ∧ r ∈ (0 :: way).getLast? ∧
        circle.Free r ∧
        (circle.Gives r none ∧
            (askTypedParent 0).run circle = (.ok (way.find? circle.isStruct), circle) ∨
          ∃ q, circle.Gives r (some q) ∧ Stale (fun _ v => pure v) r q circle)) ∧
      (askTypedParent 1).run held = (.ok none, held) ∧
      circle.Gives 0 (some 1) ∧ circle.Gives 1 (some 0) ∧
      (askTypedParent 0).run circle = (.error .endless, circle) := by
  intro empty held cleared circle
  let apart : Store := { nodes := #[empty, empty] }
  have hsupplied : Supplied Store.empty apart := by
    refine ⟨fun r n hn _ => (nomatch hn), fun r n hn => ?_⟩
    match r, hn with
    | 0, hn | 1, hn => cases hn; exact Or.inr (Or.inr ⟨rfl, rfl, rfl, rfl, rfl⟩)
  have htidy : apart.Tidy := by
    intro r n es hn hform _
    match r, hn with
    | 0, hn | 1, hn => cases hn; cases hform
  have hempty {s : Store} {c : Ref} (h : ∀ r n, s.get? r = some n → n.values = []) : s.Free c := by
    rintro r ⟨n, hn, -, hmem⟩
    rw [h r n hn] at hmem
    cases hmem
  have hapart : ∀ r n, apart.get? r = some n → n.values = [] := by
    intro r n hn
    match r, hn with
    | 0, hn | 1, hn => cases hn; rfl
  have hcleared : ∀ r n, cleared.get? r = some n → n.values = [] := by
    intro r n hn
    match r, hn with
    | 0, hn | 1, hn => cases hn; rfl
  -- where nothing is held, a node stands in no other one
  have houtside {s : Store} {m c : Ref} (h : ∀ r n, s.get? r = some n → n.values = []) (hmc : m ≠ c) :
      ∀ d, .node d ∈ [Value.node c] → ¬ s.Inside m d := by
    intro d hd hin
    obtain rfl := Value.node.inj (List.mem_singleton.mp hd)
    obtain heq | ⟨e, he, -⟩ := hin.cases_head
    · exact hmc heq
    · exact hempty h e he
  have hstored {s : Store} {m c : Ref} {k : String} (hc : s.IsLinked c)
      (h : ∀ r n, s.get? r = some n → n.values = []) : s.FairToMap m (.set (.str k) (.node c)) := by
    refine ⟨rfl, ⟨fun v hv => ?_, List.pairwise_singleton _ _⟩, fun _ _ h => (nomatch h)⟩
    obtain rfl := List.mem_singleton.mp hv
    exact Or.inr ⟨c, rfl, hc, hempty h⟩
  have hfirst : (MapOperation.run 0 (.set (.str "x") (.node 1))).run apart = (.ok .null, held) := rfl
  have hclear : (MapOperation.run 0 .clear).run held = (.ok .null, cleared) := rfl
  have hsecond : (MapOperation.run 1 (.set (.str "y") (.node 0))).run cleared = (.ok .null, circle) :=
    rfl
  have hclears : held.FairToMap 0 .clear := ⟨rfl, ⟨nofun, .nil⟩, nofun⟩
  have hsteps : ReflTransGen (NestedStep fun _ v => pure v) Store.empty circle :=
    (((ReflTransGen.refl.tail (.supply hsupplied htidy)).tail
      (.map ⟨empty, rfl, rfl⟩ (hstored ⟨empty, rfl, rfl⟩ hapart) (houtside hapart (by decide))
        hfirst)).tail
      (.map ⟨_, rfl, rfl⟩ hclears nofun hclear)).tail
      (.map ⟨_, rfl, rfl⟩ (hstored ⟨empty, rfl, rfl⟩ hcleared) (houtside hcleared (by decide)) hsecond)
  have hring : ∀ r, r < 2 → circle.isStruct r = false ∧ ∃ q, q < 2 ∧ circle.Gives r (some q) := by
    intro r hr
    match r, hr with
    | 0, _ => exact ⟨rfl, 1, by decide, rfl⟩
    | 1, _ => exact ⟨rfl, 0, by decide, rfl⟩
  exact ⟨hclear, hsecond, askTypedParent_of_nested hsteps ⟨_, rfl, rfl⟩, rfl, rfl, rfl,
    askTypedParent_endless hring (by decide)⟩

end Store
end Exemplar
