import Exemplar.Proofs.ListChanges
import Exemplar.Proofs.MapChanges
import Mathlib.Logic.Relation

/-! Runs of operations on linked maps and lists. As long as what is stored is plain data or stands
in no other place, every node that a container holds is linked to it and stands there only. -/
namespace Exemplar
open StoreM

def MapOperation.changes : MapOperation → Bool
  | .set _ _ | .put _ _ | .delete _ | .pop _ _ | .remove _ | .update _ | .setDefault _ _
  | .autocreate _ _ | .popLast | .clear => true
  | .read _ | .readOr _ _ | .contains _ | .size | .copy => false

/-- Whether an operation changes a list. Sorting is left out: it compares items and may stop. -/
def ListOperation.changes : ListOperation → Bool
  | .set _ _ | .setSlice _ _ | .put _ _ | .putSlice _ _ | .delete _ | .deleteSlice _ | .pop _
  | .append _ | .insert _ _ | .extend _ | .grow _ | .remove _ | .reverse | .clear => true
  | _ => false

def MapOperation.releases : MapOperation → Bool
  | .popLast | .clear => false
  | _ => true

def ListOperation.releases : ListOperation → Bool
  | .clear => false
  | _ => true

def MapOperation.stored (s : Store) (m : Ref) : MapOperation → List Value
  | .set _ v | .put _ v => [v]
  | .setDefault key v | .autocreate key (.value v) =>
    if (s.held? (.node m) key).isSome then [] else [v]
  | .update source =>
    match ((contentOf source).run s).1 with
    | .ok es => es.map Prod.snd
    | .error _ => []
  | _ => []

def ListOperation.stored (s : Store) : ListOperation → List Value
  | .set _ v | .put _ v | .append v | .insert _ v => [v]
  | .setSlice _ source | .putSlice _ source | .extend source | .grow source =>
    match ((elements source).run s).1 with
    | .ok vs => vs
    | .error _ => []
  | _ => []

theorem ListOperation.elements_stored (s : Store) (source : Value) (vs : List Value)
    (h : (elements source).run s = (.ok vs, s)) : vs = ListOperation.stored s (.extend source) := by
  rw [ListOperation.stored, h]

namespace Store
variable {s s' : Store} {m l r c : Ref} {n : Node} {v : Value} {bindItem : ListNode.BindItem}

/-- An operation changes a map and stores only plain data, or nodes that no container holds, each
once. What it may give instead of a popped entry is plain. -/
structure FairToMap (s : Store) (m : Ref) (op : MapOperation) : Prop where
  changes : op.changes = true
  stored : s.Offered (op.stored s m)
  popped : ∀ key d, op = .pop key (some d) → s.Plain d

/-- An operation changes a list and stores only plain data, or nodes that no container holds, each
once. A view whose maps are appended shows plain data. -/
structure FairToList (s : Store) (op : ListOperation) : Prop where
  changes : op.changes = true
  stored : s.Offered (op.stored s)
  shown : ∀ mark root, op = .extend (.descendents mark (some root)) ∨
    op = .grow (.descendents mark (some root)) → s.Plain (.node root)

theorem Offered.single (h : s.Offered [v]) : s.Loose v := h.loose v (by simp)

theorem of_run_silent {a : StoreM Unit} (h : (silent a).run s = (.ok v, s')) :
    a.run s = (.ok (), s') := by
  obtain ⟨u, s₁, ha, hpure⟩ := of_run_bind h
  obtain ⟨-, rfl⟩ := of_run_pure hpure
  exact ha

/-- An operation on a container, which may release what it takes out, has stored values. -/
def After (s : Store) (m : Ref) (vs : List Value) : (releases : Bool) → Store → Prop
  | true, s' => s.Reworked m vs s'
  | false, s' => s.Dropped m s'

theorem After.changed {vs : List Value} {releases : Bool} (h : s.After m vs releases s') :
    s.Changed vs s' := by
  cases releases with
  | true => exact h.toChanged
  | false => exact ⟨h.toAltered.imp fun _ _ hc => (List.not_mem_nil hc).elim, h.sound⟩

theorem Sound.map_run (h : s.Sound) (hm : s.IsLinked m) {op : MapOperation} (hop : s.FairToMap m op)
    (hrun : (op.run m).run s = (.ok v, s')) : s.After m (op.stored s m) op.releases s' := by
  have hstored := hop.stored
  cases op with
  | set key w => exact h.map_set hm hstored.single (of_run_silent hrun)
  | put key w => exact h.map_put hm hstored.single (of_run_silent (of_run_named hrun))
  | delete key => exact h.map_delete hm (of_run_silent hrun)
  | pop key default =>
    refine h.map_pop hm ?_ (of_run_named hrun)
    rintro d rfl
    exact hop.popped key d rfl
  | remove key => exact h.map_remove hm (of_run_named hrun)
  | update source =>
    obtain ⟨es, s₁, hcontent, hset⟩ := of_run_bind (of_run_silent (of_run_named hrun))
    obtain rfl := (reads_contentOf source).of_ok hcontent
    rw [MapOperation.stored, hcontent] at hstored ⊢
    exact h.map_setAll hm hstored hset
  | setDefault key w =>
    refine h.map_setDefault hm (fun habsent => ?_) (of_run_named hrun)
    rw [MapOperation.stored, habsent] at hstored
    exact hstored.single
  | autocreate key seed =>
    have hgiven : s.held? (.node m) key = none → ∀ d, seed = .value d → s.Loose d := by
      rintro habsent d rfl
      rw [MapOperation.stored, habsent] at hstored
      exact hstored.single
    have hcreated := h.map_autocreate hm hgiven (of_run_named hrun)
    cases seed with
    | value d => exact hcreated
    | map => rwa [Seed.given, ite_self] at hcreated
    | list => rwa [Seed.given, ite_self] at hcreated
  | popLast =>
    obtain ⟨e, s₁, hpop, hpure⟩ := of_run_bind (of_run_named hrun)
    obtain ⟨-, rfl⟩ := of_run_pure hpure
    exact h.map_popLast hm hpop
  | clear => exact h.map_clear hm (of_run_silent (of_run_named hrun))
  | read _ | readOr _ _ | contains _ | size | copy => cases hop.changes

theorem Sound.list_run (h : s.Sound) (hl : s.IsLinked l) {op : ListOperation} (hop : s.FairToList op)
    (hrun : (op.run bindItem l).run s = (.ok v, s')) : s.After l (op.stored s) op.releases s' := by
  have hstored := hop.stored
  cases op with
  | set index w => exact h.list_set hl hstored.single (of_run_silent hrun)
  | put index w =>
    obtain ⟨u, s₁, hlinked, hset⟩ := of_run_bind (of_run_silent (of_run_named hrun))
    obtain rfl := (ListNode.reads_requireLinked l).of_ok hlinked
    exact h.list_set hl hstored.single hset
  | setSlice slice source =>
    have hgiven := ListOperation.elements_stored s source
    exact h.list_setSlice hl hgiven hstored (of_run_silent hrun)
  | putSlice slice source =>
    obtain ⟨u, s₁, hlinked, hset⟩ := of_run_bind (of_run_silent (of_run_named hrun))
    obtain rfl := (ListNode.reads_requireLinked l).of_ok hlinked
    exact h.list_setSlice hl (ListOperation.elements_stored _ source) hstored hset
  | delete index => exact h.list_delete hl (of_run_silent hrun)
  | deleteSlice slice => exact h.list_deleteSlice hl (of_run_silent hrun)
  | pop index => exact h.list_pop hl (of_run_named hrun)
  | append w => exact h.list_append hl hstored.single (of_run_silent (of_run_named hrun))
  | insert index w => exact h.list_insert hl hstored.single (of_run_silent (of_run_named hrun))
  | extend source =>
    have hgiven := ListOperation.elements_stored s source
    refine h.list_extend hl hgiven hstored ?_ (of_run_silent (of_run_named hrun))
    rintro mark root rfl
    exact hop.shown mark root (Or.inl rfl)
  | grow source =>
    have hgiven := ListOperation.elements_stored s source
    refine h.list_extend hl hgiven hstored ?_ (of_run_named (of_run_silent hrun))
    rintro mark root rfl
    exact hop.shown mark root (Or.inr rfl)
  | remove w => exact h.list_remove hl (of_run_silent (of_run_named hrun))
  | reverse => exact h.list_reverse hl (of_run_silent (of_run_named hrun))
  | clear => exact h.list_clear hl (of_run_silent (of_run_named hrun))
  | read _ | readOr _ _ | readSlice _ | getSlice _ | indexOf _ _ _ | count _ | contains _ | size
  | sort | copy => cases hop.changes

/-- Plain data may come and change as it likes. New linked containers are empty and stand alone. -/
structure Supplied (s s' : Store) : Prop where
  linked : ∀ r n, s.get? r = some n → n.form = .linked → s'.get? r = some n
  new : ∀ r n, s'.get? r = some n → s.get? r = some n ∨ n.form = .plain ∨
    n.form = .linked ∧ n.attributes = [] ∧ n.parent = none ∧ n.values = [] ∧ s.get? r = none

theorem Sound.supplied (h : s.Sound) (hs : Supplied s s') : s'.Sound where
  ordinary r n hn := by
    rcases hs.new r n hn with hold | hplain | ⟨hform, hset, -⟩
    · exact h.ordinary r n hold
    · exact Or.inl hplain
    · exact Or.inr ⟨hform, hset⟩
  settled r n hn hform := by
    rcases hs.new r n hn with hold | hplain | ⟨-, -, -, hempty, -⟩
    · refine (h.settled r n hold hform).imp ?_
      rintro c - ⟨n', hn', hlinked⟩ hparent
      have hsame := hs.linked c n' hn' hlinked
      refine ⟨⟨n', hsame, hlinked⟩, ?_⟩
      rw [parent?, hsame]
      rwa [parent?, hn'] at hparent
    · rw [hform] at hplain
      cases hplain
    · rw [hempty]
      exact ⟨by simp, List.nodup_nil⟩

theorem Supplied.holds (h : Supplied s s') {v : Value} : s'.Holds r v ↔ s.Holds r v := by
  constructor
  · rintro ⟨n, hn, hform, hmem⟩
    rcases h.new r n hn with hold | hplain | ⟨-, -, -, hempty, -⟩
    · exact ⟨n, hold, hform, hmem⟩
    · cases hform.symm.trans hplain
    · rw [hempty] at hmem
      cases hmem
  · rintro ⟨n, hn, hform, hmem⟩
    exact ⟨n, h.linked r n hn hform, hform, hmem⟩

/-- A step of a run: data is supplied, or a linked container is changed with success. -/
inductive Step (bindItem : ListNode.BindItem) (s s' : Store) : Prop
  | supply (supplied : Supplied s s')
  | map {m : Ref} {op : MapOperation} {v : Value} (linked : s.IsLinked m) (fair : s.FairToMap m op)
    (run : (op.run m).run s = (.ok v, s'))
  | list {l : Ref} {op : ListOperation} {v : Value} (linked : s.IsLinked l) (fair : s.FairToList op)
    (run : (op.run bindItem l).run s = (.ok v, s'))

theorem Sound.step (h : s.Sound) (hstep : Step bindItem s s') : s'.Sound := by
  cases hstep with
  | supply hs => exact h.supplied hs
  | map hm hop hrun => exact (h.map_run hm hop hrun).changed.sound
  | list hl hop hrun => exact (h.list_run hl hop hrun).changed.sound

theorem sound_empty : Store.empty.Sound where
  ordinary r n hn := by cases hn
  settled r n hn := by cases hn

theorem Sound.steps (h : s.Sound) (hsteps : Relation.ReflTransGen (Step bindItem) s s') :
    s'.Sound := by
  induction hsteps with
  | refl => exact h
  | tail _ hstep ih => exact ih.step hstep

/-- In settled values a node is met once. -/
theorem Settled.place_eq {vs : List Value} (h : s.Settled m vs) {i j : Nat}
    (hi : vs[i]? = some (.node c)) (hj : vs[j]? = some (.node c)) : i = j := by
  have hpairwise : vs.Pairwise fun v w => ∀ d, v = .node d → w ≠ .node d := by
    refine (List.pairwise_filterMap.mp h.once).imp ?_
    rintro v w hne d rfl rfl
    exact hne d rfl d rfl rfl
  rw [List.pairwise_iff_getElem] at hpairwise
  obtain ⟨hi, hvi⟩ := List.getElem?_eq_some_iff.mp hi
  obtain ⟨hj, hvj⟩ := List.getElem?_eq_some_iff.mp hj
  rcases Nat.lt_trichotomy i j with hlt | heq | hgt
  · exact absurd hvj (hpairwise i j hi hj hlt c hvi)
  · exact heq
  · exact absurd hvi (hpairwise j i hj hi hgt c hvj)

/-- After every run that begins with nothing, a node that a linked container holds gives this
container as its parent, and stands in no other place. -/
theorem askParent_of_held (hsteps : Relation.ReflTransGen (Step bindItem) Store.empty s)
    (hn : s.get? r = some n) (hform : n.form = .linked) {i : Nat}
    (hi : n.values[i]? = some (.node c)) :
    (askParent c).run s = (.ok (some r), s) ∧
      ∀ r' n' i', s.get? r' = some n' → n'.form = .linked → n'.values[i']? = some (.node c) →
        r' = r ∧ i' = i := by
  have hsound := sound_empty.steps hsteps
  have hsettled := hsound.settled r n hn hform
  obtain ⟨hc, hparent⟩ := hsettled.rest _ (List.mem_of_getElem? hi)
  obtain ⟨k, hk, -, hset⟩ := hc.found hsound.ordinary
  rw [parent?, hk] at hparent
  have hparent : k.parent = some r := hparent
  refine ⟨?_, fun r' n' i' hn' hform' hi' => ?_⟩
  · rw [run_askParent hk hset, hparent]
  · have hsettled' := hsound.settled r' n' hn' hform'
    obtain ⟨-, hparent'⟩ := hsettled'.rest _ (List.mem_of_getElem? hi')
    rw [parent?, hk] at hparent'
    obtain rfl := Option.some.inj (hparent.symm.trans hparent')
    obtain rfl := Option.some.inj (hn.symm.trans hn')
    exact ⟨rfl, hsettled.place_eq hi' hi⟩

/-- A list is stored in a map, and a plain list is appended to it and copied for that. -/
theorem askParent_of_held_copy :
    let text : Node := { body := .list [.scalar (.int 7)], form := .plain }
    let s : Store := { nodes := #[
      { body := .map [(.str "x", .node 1)], form := .linked },
      { body := .list [.node 3], form := .linked, parent := some 0 },
      text,
      { body := .list [.scalar (.int 7)], form := .linked, parent := some 1 }] }
    Relation.ReflTransGen (Step fun _ v => pure v) Store.empty s ∧
      (askParent 3).run s = (.ok (some 1), s) := by
  intro text s
  let map : Node := { body := .map [], form := .linked }
  let list : Node := { body := .list [], form := .linked }
  let s₁ : Store := { nodes := #[map, list, text] }
  let s₂ : Store := { nodes := #[
    { body := .map [(.str "x", .node 1)], form := .linked },
    { body := .list [], form := .linked, parent := some 0 }, text] }
  have hsupplied : Supplied Store.empty s₁ := by
    refine ⟨fun r n hn _ => (nomatch hn), fun r n hn => ?_⟩
    match r, hn with
    | 0, hn => cases hn; exact Or.inr (Or.inr ⟨rfl, rfl, rfl, rfl, rfl⟩)
    | 1, hn => cases hn; exact Or.inr (Or.inr ⟨rfl, rfl, rfl, rfl, rfl⟩)
    | 2, hn => cases hn; exact Or.inr (Or.inl rfl)
  have hfree : s₁.Free 1 := by
    rintro r ⟨n, hn, hform, hmem⟩
    match r, hn with
    | 0, hn => cases hn; cases hmem
    | 1, hn => cases hn; cases hmem
    | 2, hn => cases hn; cases hform
  have hstored : s₁.FairToMap 0 (.set (.str "x") (.node 1)) := by
    refine ⟨rfl, ⟨?_, List.pairwise_singleton _ _⟩, fun _ _ h => (nomatch h)⟩
    intro v hv
    obtain rfl := List.mem_singleton.mp hv
    exact Or.inr ⟨1, rfl, ⟨list, rfl, rfl⟩, hfree⟩
  have happended : s₂.FairToList (.append (.node 2)) := by
    refine ⟨rfl, ⟨?_, List.pairwise_singleton _ _⟩, fun _ _ h => by rcases h with h | h <;> cases h⟩
    intro v hv
    obtain rfl := List.mem_singleton.mp hv
    refine Or.inl (.node (n := text) rfl rfl fun w hw => ?_)
    obtain rfl := List.mem_singleton.mp hw
    exact .single rfl nofun
  have hsteps : Relation.ReflTransGen (Step fun _ v => pure v) Store.empty s :=
    (((Relation.ReflTransGen.refl.tail (.supply hsupplied)).tail
      (.map (m := 0) (v := .null) ⟨map, rfl, rfl⟩ hstored rfl)).tail
      (.list (l := 1) (v := .null) ⟨_, rfl, rfl⟩ happended rfl))
  exact ⟨hsteps, (askParent_of_held hsteps (r := 1) (c := 3) (i := 0) rfl rfl rfl).1⟩

end Store
end Exemplar
