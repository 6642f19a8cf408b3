import Exemplar.Proofs.ParentLinks

/-! A node that stands in two linked containers. Its link says where it was stored last, but what
takes it out of either container cuts the link: the node has no parent then, even where the other
container holds it and it was linked to that one. -/
namespace Exemplar
open StoreM

/-- An operation takes a node out of a map: it drops the entry, or writes another value there. -/
inductive MapOperation.TakesOut (es : Assoc Scalar Value) (c : Ref) : MapOperation → Prop
  | delete {key : Scalar} (found : es.get? key = some (.node c)) : TakesOut es c (.delete key)
  | pop {key : Scalar} {default : Option Value} (found : es.get? key = some (.node c)) :
    TakesOut es c (.pop key default)
  | remove {key : Scalar} (found : es.get? key = some (.node c)) : TakesOut es c (.remove key)
  | set {key : Scalar} {v : Value} (found : es.get? key = some (.node c)) : TakesOut es c (.set key v)
  | put {key : Scalar} {v : Value} (found : es.get? key = some (.node c)) : TakesOut es c (.put key v)

/-- An operation takes a node out of a list: it drops the item, or writes another value there. -/
inductive ListOperation.TakesOut (vs : List Value) (c : Ref) : ListOperation → Prop
  | delete {index : Int} {i : Nat} (place : placeOf vs.length index = some i)
    (found : vs[i]? = some (.node c)) : TakesOut vs c (.delete index)
  | pop {index : Int} {i : Nat} (place : placeOf vs.length index = some i)
    (found : vs[i]? = some (.node c)) : TakesOut vs c (.pop index)
  | set {index : Int} {i : Nat} {v : Value} (place : placeOf vs.length index = some i)
    (found : vs[i]? = some (.node c)) : TakesOut vs c (.set index v)
  | put {index : Int} {i : Nat} {v : Value} (place : placeOf vs.length index = some i)
    (found : vs[i]? = some (.node c)) : TakesOut vs c (.put index v)

/-- What an operation stores is plain data or linked nodes other than a given one. -/
def Store.Apart (s : Store) (c : Ref) (v : Value) : Prop :=
  s.Plain v ∨ ∃ d, v = .node d ∧ d ≠ c ∧ s.IsLinked d

namespace Store

variable {s s' s₁ : Store} {a b c : Ref} {n : Node} {v w : Value} {u : Unit} {body : Body}
  {bindItem : ListNode.BindItem}

/-- A linked container is being changed, and another one holds a node. -/
structure Shared (s : Store) (a b c : Ref) : Prop where
  ordinary : s.Ordinary
  changed : s.IsLinked a
  linked : s.IsLinked c
  other : b ≠ a
  held : s.Holds b (.node c)

theorem Apart.kept (h : s.Apart c v) (hkept : Kept s s₁) : s₁.Apart c v := by
  rcases h with hplain | ⟨d, rfl, hdc, hd⟩
  · exact Or.inl (hplain.imp hkept.altered.plain)
  · exact Or.inr ⟨d, rfl, hdc, hkept.isLinked hd⟩

theorem Shared.kept (h : s.Shared a b c) (hkept : Kept s s₁) (hord : s₁.Ordinary) :
    s₁.Shared a b c :=
  ⟨hord, hkept.isLinked h.changed, hkept.isLinked h.linked, h.other, hkept.still_holds h.held⟩

/-- Taking the node out of the container that is changed cuts its link. -/
theorem Shared.release (h : s.Shared a b c) (hrun : (releaseFrom a (.node c)).run s = (.ok u, s₁)) :
    s₁.Shared a b c ∧ Kept s s₁ ∧ s₁.parent? c = none := by
  obtain rfl := of_run_releaseFrom_linked h.ordinary h.changed h.linked hrun
  have hkept := (relinked_link h.ordinary h.linked none).kept
  refine ⟨h.kept hkept (h.ordinary.link c none), hkept, ?_⟩
  obtain ⟨k, hk, -⟩ := h.linked
  rw [parent?, get?_modify_self hk]
  rfl

/-- What is stored instead leaves the link of the node alone. -/
theorem Shared.accept (h : s.Shared a b c) (hv : s.Apart c v)
    (hrun : (StoreM.accept a v).run s = (.ok w, s₁)) :
    s₁.Shared a b c ∧ Kept s s₁ ∧ s₁.parent? c = s.parent? c := by
  rcases hv with hplain | ⟨d, rfl, hdc, hd⟩
  · have hgrown := (built_of_accept h.ordinary h.changed hplain hrun).toGrown
    refine ⟨h.kept hgrown.kept (hgrown.ordinary h.ordinary), hgrown.kept, ?_⟩
    rw [parent?, parent?, hgrown.old c h.linked.lt]
  · obtain ⟨-, rfl⟩ := linked_of_accept h.ordinary h.changed hd hrun
    have hkept := (relinked_link h.ordinary hd (some a)).kept
    refine ⟨h.kept hkept (h.ordinary.link d (some a)), hkept, ?_⟩
    rw [parent?, parent?, get?_modify_ne hdc.symm]

theorem Shared.write (h : s.Shared a b c) (body : Body) :
    (s.modify a fun n => { n with body }).Shared a b c ∧
      (s.modify a fun n => { n with body }).parent? c = s.parent? c := by
  obtain ⟨hlinked, hparent⟩ := linked_modify (m := a) (f := fun n => { n with body := body })
    (fun _ => rfl) (fun _ _ => rfl) h.linked rfl
  refine ⟨⟨h.ordinary.body a body, ?_, hlinked, h.other, ?_⟩, hparent⟩
  · obtain ⟨n, hn, hform⟩ := h.changed
    exact ⟨_, get?_modify_self hn _, hform⟩
  · obtain ⟨n, hn, hheld⟩ := h.held
    exact ⟨n, (get?_modify_ne h.other _).trans hn, hheld⟩

/-- After the node was taken out, the other container holds a node without a parent. -/
def Strays (s : Store) (a b c : Ref) : Prop := s.Shared a b c ∧ s.parent? c = none

theorem Strays.write (h : s.Strays a b c) (body : Body) :
    (s.modify a fun n => { n with body }).Strays a b c := by
  obtain ⟨hwritten, hparent⟩ := h.1.write body
  exact ⟨hwritten, hparent.trans h.2⟩

theorem Strays.accept (h : s.Strays a b c) (hv : s.Apart c v)
    (hrun : (StoreM.accept a v).run s = (.ok w, s₁)) : s₁.Strays a b c := by
  obtain ⟨haccepted, -, hparent⟩ := h.1.accept hv hrun
  exact ⟨haccepted, hparent.trans h.2⟩

section
open MapNode

variable {es : Assoc Scalar Value} {key : Scalar}

theorem Shared.map_set (h : s.Shared a b c) (hn : s.get? a = some n) (hbody : n.body = .map es)
    (hfound : es.get? key = some (.node c)) (hv : s.Apart c v)
    (hrun : (MapNode.set a key v).run s = (.ok u, s')) : s'.Strays a b c := by
  obtain ⟨o, s₀, hget, hrest⟩ := of_run_bind hrun
  obtain ⟨n₁, es₁, hn₁, hbody₁, rfl, rfl⟩ := of_run_get hget
  obtain rfl := Option.some.inj (hn.symm.trans hn₁)
  obtain rfl := Body.map.inj (hbody.symm.trans hbody₁)
  rw [hfound] at hrest
  obtain ⟨u', s₁, hrelease, hstore⟩ := of_run_bind hrest
  obtain ⟨hreleased, hkept, hlost⟩ := h.release hrelease
  obtain ⟨w, s₂, haccept, hwrite⟩ := of_run_bind hstore
  have hstray := Strays.accept ⟨hreleased, hlost⟩ (hv.kept hkept) haccept
  obtain ⟨-, es₂, -, -, rfl⟩ := of_run_writeEntry hwrite
  exact hstray.write _

theorem Shared.map_delete (h : s.Shared a b c) (hn : s.get? a = some n) (hbody : n.body = .map es)
    (hfound : es.get? key = some (.node c))
    (hrun : (MapNode.delete a key).run s = (.ok u, s')) : s'.Strays a b c := by
  obtain ⟨o, s₀, hget, hrest⟩ := of_run_bind hrun
  obtain ⟨n₁, es₁, hn₁, hbody₁, rfl, rfl⟩ := of_run_get hget
  obtain rfl := Option.some.inj (hn.symm.trans hn₁)
  obtain rfl := Body.map.inj (hbody.symm.trans hbody₁)
  rw [hfound] at hrest
  obtain ⟨u', s₁, hrelease, hwrite⟩ := of_run_bind hrest
  obtain ⟨hreleased, -, hlost⟩ := h.release hrelease
  obtain ⟨-, es₂, -, -, hset⟩ := of_run_entries_bind hwrite
  rw [of_run_change hset]
  exact Strays.write ⟨hreleased, hlost⟩ _

theorem Shared.map_pop (h : s.Shared a b c) (hn : s.get? a = some n) (hbody : n.body = .map es)
    (hfound : es.get? key = some (.node c)) {default : Option Value}
    (hrun : (MapNode.pop a key default).run s = (.ok w, s')) : s'.Strays a b c := by
  obtain ⟨o, s₀, hget, hrest⟩ := of_run_bind hrun
  obtain ⟨n₁, es₁, hn₁, hbody₁, rfl, rfl⟩ := of_run_get hget
  obtain rfl := Option.some.inj (hn.symm.trans hn₁)
  obtain rfl := Body.map.inj (hbody.symm.trans hbody₁)
  rw [hfound] at hrest
  obtain ⟨-, es₂, -, -, hwrite⟩ := of_run_entries_bind hrest
  obtain ⟨u', s₁, hset, hout⟩ := of_run_bind hwrite
  obtain rfl := of_run_change hset
  obtain ⟨u'', s₂, hrelease, hpure⟩ := of_run_bind hout
  obtain ⟨-, rfl⟩ := of_run_pure hpure
  obtain ⟨hreleased, -, hlost⟩ := (h.write _).1.release hrelease
  exact ⟨hreleased, hlost⟩

/-- Whatever takes the node out of a map cuts its link. -/
theorem Shared.map_run (h : s.Shared a b c) (hn : s.get? a = some n) (hbody : n.body = .map es)
    {op : MapOperation} (hop : op.TakesOut es c) (hv : ∀ v ∈ op.stored s a, s.Apart c v)
    (hrun : (op.run a).run s = (.ok w, s')) : s'.Strays a b c := by
  cases hop with
  | delete hfound => exact h.map_delete hn hbody hfound (of_run_silent hrun)
  | pop hfound => exact h.map_pop hn hbody hfound (of_run_named hrun)
  | remove hfound =>
    obtain ⟨u, s₁, hlinked, hpop⟩ := of_run_bind (of_run_named hrun)
    obtain rfl := (reads_requireLinked a).of_ok hlinked
    exact h.map_pop hn hbody hfound (of_run_named hpop)
  | set hfound =>
    exact h.map_set hn hbody hfound (hv _ (List.mem_singleton_self _)) (of_run_silent hrun)
  | put hfound =>
    obtain ⟨u, s₁, hlinked, hset⟩ := of_run_bind (of_run_silent (of_run_named hrun))
    obtain rfl := (reads_requireLinked a).of_ok hlinked
    exact h.map_set hn hbody hfound (hv _ (List.mem_singleton_self _)) hset

end

section
open ListNode

variable {vs : List Value} {index : Int} {i : Nat}

/-- The item that an operation finds is the node. -/
theorem item_eq (hn : s.get? a = some n) (hbody : n.body = .list vs)
    (hplace : placeOf vs.length index = some i) (hfound : vs[i]? = some (.node c))
    (hrun : (get! a index).run s = (.ok v, s₁)) : v = .node c ∧ s₁ = s := by
  obtain ⟨n₁, j, vs₁, hn₁, hbody₁, hplace₁, hv, rfl⟩ := of_run_get! hrun
  obtain rfl := Option.some.inj (hn.symm.trans hn₁)
  obtain rfl := Body.list.inj (hbody.symm.trans hbody₁)
  obtain rfl := Option.some.inj (hplace.symm.trans hplace₁)
  exact ⟨Option.some.inj (hv.symm.trans hfound), rfl⟩

theorem Shared.list_set (h : s.Shared a b c) (hn : s.get? a = some n) (hbody : n.body = .list vs)
    (hplace : placeOf vs.length index = some i) (hfound : vs[i]? = some (.node c))
    (hv : s.Apart c v) (hrun : (ListNode.set bindItem a index v).run s = (.ok u, s')) :
    s'.Strays a b c := by
  obtain ⟨old, s₀, hget, hrest⟩ := of_run_bind hrun
  obtain ⟨rfl, rfl⟩ := item_eq hn hbody hplace hfound hget
  obtain ⟨u', s₁, hrelease, hstore⟩ := of_run_bind hrest
  obtain ⟨hreleased, hkept, hlost⟩ := h.release hrelease
  obtain ⟨w, s₂, haccept, hwrite⟩ := of_run_bind hstore
  have hstray := Strays.accept ⟨hreleased, hlost⟩ (hv.kept hkept)
    (of_run_acceptItem hreleased.ordinary hreleased.changed haccept)
  obtain ⟨j, s₃, hplace', hset⟩ := of_run_bind hwrite
  obtain ⟨-, -, -, -, -, rfl⟩ := of_run_place hplace'
  obtain ⟨-, vs₃, -, -, hset⟩ := of_run_items_bind hset
  rw [of_run_change hset]
  exact hstray.write _

theorem Shared.list_delete (h : s.Shared a b c) (hn : s.get? a = some n) (hbody : n.body = .list vs)
    (hplace : placeOf vs.length index = some i) (hfound : vs[i]? = some (.node c))
    (hrun : (ListNode.delete a index).run s = (.ok u, s')) : s'.Strays a b c := by
  obtain ⟨old, s₀, hget, hrest⟩ := of_run_bind hrun
  obtain ⟨rfl, rfl⟩ := item_eq hn hbody hplace hfound hget
  obtain ⟨u', s₁, hrelease, hwrite⟩ := of_run_bind hrest
  obtain ⟨hreleased, -, hlost⟩ := h.release hrelease
  obtain ⟨-, vs₂, -, -, hwrite'⟩ := of_run_items_bind hwrite
  obtain ⟨j, s₂, hplace', hset⟩ := of_run_bind hwrite'
  obtain ⟨-, -, -, -, -, rfl⟩ := of_run_place hplace'
  rw [of_run_change hset]
  exact Strays.write ⟨hreleased, hlost⟩ _

theorem Shared.list_pop (h : s.Shared a b c) (hn : s.get? a = some n) (hbody : n.body = .list vs)
    (hplace : placeOf vs.length index = some i) (hfound : vs[i]? = some (.node c))
    (hrun : (ListNode.pop a index).run s = (.ok w, s')) : s'.Strays a b c := by
  obtain ⟨u, s₀, hcountable, htake⟩ := of_run_bind hrun
  obtain rfl := (reads_requireCountable index).of_ok hcountable
  obtain ⟨old, s₁, hget, hrest⟩ := of_run_bind htake
  obtain ⟨rfl, rfl⟩ := item_eq hn hbody hplace hfound hget
  obtain ⟨-, vs₂, -, -, hwrite⟩ := of_run_items_bind hrest
  obtain ⟨j, s₂, hplace', hwrite'⟩ := of_run_bind hwrite
  obtain ⟨-, -, -, -, -, rfl⟩ := of_run_place hplace'
  obtain ⟨u', s₃, hset, hout⟩ := of_run_bind hwrite'
  obtain rfl := of_run_change hset
  obtain ⟨u'', s₄, hrelease, hpure⟩ := of_run_bind hout
  obtain ⟨-, rfl⟩ := of_run_pure hpure
  obtain ⟨hreleased, -, hlost⟩ := (h.write _).1.release hrelease
  exact ⟨hreleased, hlost⟩

/-- Whatever takes the node out of a list cuts its link. -/
theorem Shared.list_run (h : s.Shared a b c) (hn : s.get? a = some n) (hbody : n.body = .list vs)
    {op : ListOperation} (hop : op.TakesOut vs c) (hv : ∀ v ∈ op.stored s, s.Apart c v)
    (hrun : (op.run bindItem a).run s = (.ok w, s')) : s'.Strays a b c := by
  cases hop with
  | delete hplace hfound => exact h.list_delete hn hbody hplace hfound (of_run_silent hrun)
  | pop hplace hfound => exact h.list_pop hn hbody hplace hfound (of_run_named hrun)
  | set hplace hfound =>
    exact h.list_set hn hbody hplace hfound (hv _ (List.mem_singleton_self _)) (of_run_silent hrun)
  | put hplace hfound =>
    obtain ⟨u, s₁, hlinked, hset⟩ := of_run_bind (of_run_silent (of_run_named hrun))
    obtain rfl := (reads_requireLinked a).of_ok hlinked
    exact h.list_set hn hbody hplace hfound (hv _ (List.mem_singleton_self _)) hset

end

/-- An operation on a container takes a node out of it with success. -/
inductive TakesOut (bindItem : ListNode.BindItem) (a c : Ref) (s s' : Store) : Prop
  | map {n : Node} {es : Assoc Scalar Value} {op : MapOperation} {w : Value}
    (found : s.get? a = some n) (body : n.body = .map es) (takes : op.TakesOut es c)
    (stored : ∀ v ∈ op.stored s a, s.Apart c v) (run : (op.run a).run s = (.ok w, s'))
  | list {n : Node} {vs : List Value} {op : ListOperation} {w : Value}
    (found : s.get? a = some n) (body : n.body = .list vs) (takes : op.TakesOut vs c)
    (stored : ∀ v ∈ op.stored s, s.Apart c v) (run : (op.run bindItem a).run s = (.ok w, s'))

theorem Shared.takesOut (h : s.Shared a b c) (hstep : TakesOut bindItem a c s s') :
    s'.Strays a b c := by
  cases hstep with
  | map hn hbody hop hv hrun => exact h.map_run hn hbody hop hv hrun
  | list hn hbody hop hv hrun => exact h.list_run hn hbody hop hv hrun

/-- However a node is taken out of a container, once or more often, it has no parent then, although
another container still holds it. -/
theorem askParent_none_of_takesOut (h : s.Shared a b c)
    (hsteps : Relation.TransGen (TakesOut bindItem a c) s s') :
    (askParent c).run s' = (.ok none, s') ∧ s'.Holds b (.node c) := by
  have hstray : s'.Strays a b c := by
    induction hsteps with
    | single hstep => exact h.takesOut hstep
    | tail _ hstep ih => exact ih.1.takesOut hstep
  obtain ⟨hshared, hlost⟩ := hstray
  obtain ⟨k, hk, -, hset⟩ := hshared.linked.found hshared.ordinary
  rw [parent?, hk] at hlost
  have hlost : k.parent = none := hlost
  refine ⟨?_, hshared.held⟩
  rw [run_askParent hk hset, hlost]

/-- A map is stored in one map, then in another one, and then dropped from the first. -/
theorem askParent_none_of_takesOut_move :
    let empty : Node := { body := .map [], form := .linked }
    let first : Node := { body := .map [(.str "x", .node 2)], form := .linked }
    let second : Node := { body := .map [(.str "y", .node 2)], form := .linked }
    let s₁ : Store := { nodes := #[first, empty, { empty with parent := some 0 }] }
    let s₂ : Store := { nodes := #[first, second, { empty with parent := some 1 }] }
    let s₃ : Store := { nodes := #[empty, second, empty] }
    (MapOperation.run 0 (.set (.str "x") (.node 2))).run { nodes := #[empty, empty, empty] } =
        (.ok .null, s₁) ∧
      (MapOperation.run 1 (.set (.str "y") (.node 2))).run s₁ = (.ok .null, s₂) ∧
      (askParent 2).run s₂ = (.ok (some 1), s₂) ∧
      (MapOperation.run 0 (.delete (.str "x"))).run s₂ = (.ok .null, s₃) ∧
      (askParent 2).run s₃ = (.ok none, s₃) ∧ s₃.Holds 1 (.node 2) := by
  intro empty first second s₁ s₂ s₃
  have hshared : s₂.Shared 0 1 2 := by
    refine ⟨?_, ⟨_, rfl, rfl⟩, ⟨_, rfl, rfl⟩, by decide, ⟨_, rfl, rfl, List.mem_singleton_self _⟩⟩
    intro r n hn
    match r, hn with
    | 0, hn | 1, hn | 2, hn =>
      cases hn
      exact Or.inr ⟨rfl, rfl⟩
  have hdrop : (MapOperation.run 0 (.delete (.str "x"))).run s₂ = (.ok .null, s₃) := rfl
  have hstep : TakesOut (fun _ v => pure v) 0 2 s₂ s₃ := .map rfl rfl (.delete rfl) nofun hdrop
  exact ⟨rfl, rfl, rfl, hdrop, askParent_none_of_takesOut hshared (.single hstep)⟩

end Store
end Exemplar
