import Exemplar.Proofs.ParentLinks

/-! Nodes that an operation takes out of their container. They have no parent until they are stored
again, whatever happens in between. Only clearing a container and taking the last entry of a map leave
the link: the nodes that go that way keep a parent that does not hold them. -/
namespace Exemplar
open StoreM

namespace Store

variable {s s' s'' : Store} {r c : Ref} {n : Node} {q : Option Ref} {vs : List Value} {releases : Bool}
  {bindItem : ListNode.BindItem}

/-- An operation takes a node out of a container, and may release what it takes out. -/
inductive TakenOut (bindItem : ListNode.BindItem) (r c : Ref) (s s' : Store) : (releases : Bool) → Prop
  | map {op : MapOperation} {v : Value} (held : s.Holds r (.node c)) (gone : ¬ s'.Holds r (.node c))
    (fair : s.FairToMap r op) (run : (op.run r).run s = (.ok v, s')) :
    TakenOut bindItem r c s s' op.releases
  | list {op : ListOperation} {v : Value} (held : s.Holds r (.node c)) (gone : ¬ s'.Holds r (.node c))
    (fair : s.FairToList op) (run : (op.run bindItem r).run s = (.ok v, s')) :
    TakenOut bindItem r c s s' op.releases

inductive StepWithout (bindItem : ListNode.BindItem) (c : Ref) (s s' : Store) : Prop
  | supply (supplied : Supplied s s')
  | map {m : Ref} {op : MapOperation} {v : Value} (linked : s.IsLinked m) (fair : s.FairToMap m op)
    (other : .node c ∉ op.stored s m) (run : (op.run m).run s = (.ok v, s'))
  | list {l : Ref} {op : ListOperation} {v : Value} (linked : s.IsLinked l) (fair : s.FairToList op)
    (other : .node c ∉ op.stored s) (run : (op.run bindItem l).run s = (.ok v, s'))

/-- A node that no container holds, with what it gives as its parent. -/
structure Detached (s : Store) (c : Ref) (q : Option Ref) : Prop where
  linked : s.IsLinked c
  free : s.Free c
  parent : s.parent? c = q

theorem Sound.detached_of_after (h : s.Sound) (hvs : s.Offered vs)
    (hafter : s.After r vs releases s') (hheld : s.Holds r (.node c))
    (hgone : ¬ s'.Holds r (.node c)) : s'.Detached c (if releases then none else some r) := by
  obtain ⟨n, hn, hform, hmem⟩ := hheld
  obtain ⟨hc, hparent⟩ := (h.settled r n hn hform).rest _ hmem
  -- what is held cannot be stored once more
  have hother : .node c ∉ vs := fun hstored =>
    h.not_mem (hvs.loose _ hstored) hn hform rfl hmem
  have hlink : s'.parent? c = if releases then none else some r := by
    cases releases with
    | true => exact (hafter.parted c hc hother hgone).lost ⟨n, hn, hform, hmem⟩
    | false => exact (hafter.parents c).trans hparent
  refine ⟨hafter.changed.linked c hc, ?_, hlink⟩
  rintro r' ⟨n', hn', hform', hmem'⟩
  have hparent' := ((hafter.changed.sound.settled r' n' hn' hform').rest _ hmem').2
  rw [hlink] at hparent'
  cases releases with
  | true => cases hparent'
  | false =>
    obtain rfl := Option.some.inj hparent'
    exact hgone ⟨n', hn', hform', hmem'⟩

theorem Sound.detached_of_takenOut (h : s.Sound) (htaken : TakenOut bindItem r c s s' releases) :
    s'.Sound ∧ s'.Detached c (if releases then none else some r) := by
  cases htaken with
  | map hheld hgone hop hrun =>
    have hafter := h.map_run hheld.isLinked hop hrun
    exact ⟨hafter.changed.sound, h.detached_of_after hop.stored hafter hheld hgone⟩
  | list hheld hgone hop hrun =>
    have hafter := h.list_run hheld.isLinked hop hrun
    exact ⟨hafter.changed.sound, h.detached_of_after hop.stored hafter hheld hgone⟩

theorem Detached.after (h : s.Detached c q) (hafter : s.After r vs releases s')
    (hother : .node c ∉ vs) : s'.Detached c q := by
  have hfree : s'.Free c := fun r' hheld =>
    (hafter.changed.held r' c h.linked.lt hheld).elim hother fun ⟨r₀, hheld₀⟩ => h.free r₀ hheld₀
  refine ⟨hafter.changed.linked c h.linked, hfree, Eq.trans ?_ h.parent⟩
  cases releases with
  | true => exact (hafter.parted c h.linked hother (hfree r)).same (h.free r)
  | false => exact hafter.parents c

theorem Detached.supplied (h : s.Detached c q) (hs : Supplied s s') : s'.Detached c q := by
  obtain ⟨n, hn, hform⟩ := h.linked
  have hsame := hs.linked c n hn hform
  refine ⟨⟨n, hsame, hform⟩, fun r hr => h.free r (hs.holds.mp hr), ?_⟩
  rw [parent?, hsame, ← h.parent, parent?, hn]

theorem Detached.step (h : s.Detached c q) (hsound : s.Sound)
    (hstep : StepWithout bindItem c s s') : s'.Sound ∧ s'.Detached c q := by
  cases hstep with
  | supply hs => exact ⟨hsound.supplied hs, h.supplied hs⟩
  | map hm hop hother hrun =>
    have hafter := hsound.map_run hm hop hrun
    exact ⟨hafter.changed.sound, h.after hafter hother⟩
  | list hl hop hother hrun =>
    have hafter := hsound.list_run hl hop hrun
    exact ⟨hafter.changed.sound, h.after hafter hother⟩

theorem Sound.detached_later (h : s.Sound) (htaken : TakenOut bindItem r c s s' releases)
    (hlater : Relation.ReflTransGen (StepWithout bindItem c) s' s'') :
    s''.Sound ∧ s''.Detached c (if releases then none else some r) := by
  induction hlater with
  | refl => exact h.detached_of_takenOut htaken
  | tail _ hstep ih => exact ih.2.step ih.1 hstep

/-- After every run that begins with nothing, a node that is taken out of its container has no parent
until it is stored again; but if the container was cleared, or its last entry taken, the node still
gives the container as its parent. -/
theorem askParent_of_takenOut (hsteps : Relation.ReflTransGen (Step bindItem) Store.empty s)
    (htaken : TakenOut bindItem r c s s' releases)
    (hlater : Relation.ReflTransGen (StepWithout bindItem c) s' s'') :
    (askParent c).run s'' = (.ok (if releases then none else some r), s'') := by
  obtain ⟨hsound, hc⟩ := (sound_empty.steps hsteps).detached_later htaken hlater
  obtain ⟨n, hn, -, hset⟩ := hc.linked.found hsound.ordinary
  have hparent := hc.parent
  rw [parent?, hn] at hparent
  rw [run_askParent hn hset]
  exact congrArg (fun q => (Except.ok q, s'')) hparent

/-- A map is stored in another one, which is cleared or loses the entry. -/
theorem askParent_of_takenOut_clear :
    let empty : Node := { body := .map [], form := .linked }
    let s : Store := { nodes := #[{ empty with body := .map [(.str "x", .node 1)] },
      { empty with parent := some 0 }] }
    let cleared : Store := { nodes := #[empty, { empty with parent := some 0 }] }
    let deleted : Store := { nodes := #[empty, empty] }
    Relation.ReflTransGen (Step fun _ v => pure v) Store.empty s ∧
      (MapOperation.run 0 .clear).run s = (.ok .null, cleared) ∧
      (askParent 1).run cleared = (.ok (some 0), cleared) ∧
      (MapOperation.run 0 (.delete (.str "x"))).run s = (.ok .null, deleted) ∧
      (askParent 1).run deleted = (.ok none, deleted) := by
  intro empty s cleared deleted
  have hsupplied : Supplied Store.empty deleted := by
    refine ⟨fun r n hn _ => (nomatch hn), fun r n hn => ?_⟩
    match r, hn with
    | 0, hn | 1, hn => cases hn; exact Or.inr (Or.inr ⟨rfl, rfl, rfl, rfl, rfl⟩)
  have hgone {s' : Store} (hempty : s'.get? 0 = some empty) : ¬ s'.Holds 0 (.node 1) := by
    rintro ⟨n, hn, -, hmem⟩
    obtain rfl := Option.some.inj (hempty.symm.trans hn)
    cases hmem
  have hfree : deleted.Free 1 := by
    rintro r ⟨n, hn, -, hmem⟩
    match r, hn with
    | 0, hn | 1, hn => cases hn; cases hmem
  have hstored : deleted.FairToMap 0 (.set (.str "x") (.node 1)) := by
    refine ⟨rfl, ⟨fun v hv => ?_, List.pairwise_singleton _ _⟩, fun _ _ h => (nomatch h)⟩
    obtain rfl := List.mem_singleton.mp hv
    exact Or.inr ⟨1, rfl, ⟨empty, rfl, rfl⟩, hfree⟩
  have hsteps : Relation.ReflTransGen (Step fun _ v => pure v) Store.empty s :=
    (Relation.ReflTransGen.refl.tail (.supply hsupplied)).tail
      (.map (m := 0) (v := .null) ⟨empty, rfl, rfl⟩ hstored rfl)
  have hheld : s.Holds 0 (.node 1) := ⟨_, rfl, rfl, List.mem_singleton_self _⟩
  have hcleared : (MapOperation.run 0 .clear).run s = (.ok .null, cleared) := rfl
  have hdeleted : (MapOperation.run 0 (.delete (.str "x"))).run s = (.ok .null, deleted) := rfl
  have hclears : s.FairToMap 0 .clear := ⟨rfl, ⟨nofun, .nil⟩, nofun⟩
  have hdeletes : s.FairToMap 0 (.delete (.str "x")) := ⟨rfl, ⟨nofun, .nil⟩, nofun⟩
  have hclear : TakenOut (fun _ v => pure v) 0 1 s cleared false :=
    .map hheld (hgone rfl) hclears hcleared
  have hdelete : TakenOut (fun _ v => pure v) 0 1 s deleted true :=
    .map hheld (hgone rfl) hdeletes hdeleted
  exact ⟨hsteps, hcleared, askParent_of_takenOut hsteps hclear .refl, hdeleted,
    askParent_of_takenOut hsteps hdelete .refl⟩

end Store
end Exemplar
