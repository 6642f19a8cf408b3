import Exemplar.Proofs.CreatedEntries
import Exemplar.Proofs.FilledLists

/-! Lists that are made by reading a property. Reading an unset property of a list type creates a
list of it, later reads give the same list, and what stores plain data into it makes it the list
that is bound, also when an addition is written back to the property. -/
namespace Exemplar

namespace ModelM

variable {α β : Type} {s s' : Store}

theorem run_bind {a : ModelM α} {x : α} (h : a.run s = (.ok x, s')) (f : α → ModelM β) :
    (a >>= f).run s = (f x).run s' := by
  change ((ExceptT.run a).bind (ExceptT.bindCont f)) s = _
  change (ExceptT.run a) s = _ at h
  simp only [StateT.bind, h]
  rfl

theorem run_lift_eq (a : StoreM α) (s : Store) :
    (StoreM.lift a).run s = ((a.run s).1.mapError ModelFault.store, (a.run s).2) := rfl

theorem run_lift {a : StoreM α} {x : α} (h : a.run s = (.ok x, s')) :
    (StoreM.lift a).run s = (.ok x, s') := by
  rw [run_lift_eq, h]
  rfl

end ModelM

/-- A step in filling the list of a property: an operation on the list that was read before, one on
the list that is read for it, or an addition that is written back to the property. -/
inductive FillStep where
  | held (op : ListOperation)
  | anew (op : ListOperation)
  | augment (source : Value)

def FillStep.operation : FillStep → ListOperation
  | .held op => op
  | .anew op => op
  | .augment source => .grow source

def entryProperty (f : Field) : Property := ⟨f.property, f.type, .entry f⟩

namespace Workshop

def readList (w : Workshop) (d : Definition) (p : Property) (m : Ref) : ModelM Ref := do
  match ← (w.readProperty d p (.node m) : ModelM Value) with
  | .node l => return l
  | _ => throw (.store .wrongKind)

def fill (w : Workshop) (d : Definition) (p : Property) (m l : Ref) : FillStep → ModelM Unit
  | .held op => do
    let _ ← (op.run w.bindItem l : ModelM Value)
  | .anew op => do
    let l ← w.readList d p m
    let _ ← (op.run w.bindItem l : ModelM Value)
  | .augment source => do
    let l ← w.readList d p m
    let _ ← ((ListOperation.grow source).run w.bindItem l : ModelM Value)
    w.writeProperty p (.node m) (.node l)

def fillAll (w : Workshop) (d : Definition) (p : Property) (m l : Ref) : List FillStep → ModelM Unit
  | [] => return
  | step :: steps => do
    w.fill d p m l step
    fillAll w d p m l steps

section

open Store Snapshot StoreM

variable {w : Workshop} {t : Target} {l m : Ref} {n : Node} {s s' : Store} {d : Definition}
  {js js' : List Json} {es : Assoc Scalar Value} {k : Scalar} {v : Value} {f : Field}

/-- A list that was filled looks like a list that was bound. -/
theorem Filled.shows (h : w.Filled t l n s js) :
    ∃ vs ys, s.get? l = some { n with body := .list vs } ∧ s.ShowsItems l vs ys ∧
      itemsJson? ys = some js ∧ w.MarkedItems (t.inside w.registry) ys := by
  obtain ⟨vs, h⟩ := h
  have hall {vs : List Value} {js : List Json}
      (hvs : List.Forall₂ (w.Appears (t.inside w.registry) s l) vs js)
      (hheld : ∀ v ∈ vs, s.Held l v) : ∃ ys, s.ShowsItems l vs ys ∧ itemsJson? ys = some js ∧
        w.MarkedItems (t.inside w.registry) ys := by
    induction hvs with
    | nil => exact ⟨[], rfl, rfl, trivial⟩
    | @cons v j vs js hv _ ih =>
      obtain ⟨y, hy, hmarked, hshows⟩ := hv
      obtain ⟨hfirst, hrest⟩ := List.forall_mem_cons.mp hheld
      obtain ⟨ys, hys, hjs, hall⟩ := ih hrest
      exact ⟨y :: ys, ⟨v, vs, rfl, hshows, hfirst, hys⟩, itemsJson?_cons.mpr ⟨j, js, rfl, hy, hjs⟩,
        hmarked, hall⟩
  obtain ⟨ys, hys⟩ := hall h.shown h.held
  exact ⟨vs, ys, h.found, hys⟩

theorem OnlyFilled.keepsPlain (h : OnlyFilled m s s') (hm : s.get? m = some n)
    (hlinks : n.form.Links) : s.KeepsPlain s' := by
  intro r q hr hplain
  have hne : r ≠ m := by
    rintro rfl
    obtain rfl := Option.some.inj (hm.symm.trans hr)
    rw [hplain] at hlinks
    exact hlinks
  rw [h.unchanged r (get?_lt hr) hne, hr]

def madeList (w : Workshop) (l : Definition) (holder : Option Ref) : Node :=
  ⟨.list [], (w.listMark (listTarget l)).form, (w.listMark (listTarget l)).type, holder, []⟩

theorem boundTo_madeList {l : Definition} (hl : w.registry.get? l.name = some l)
    (holder : Option Ref) : w.BoundTo (listTarget l) (w.madeList l holder) :=
  ⟨⟨l, l.depth, rfl, hl, rfl⟩, rfl⟩

theorem creates_madeList {l : Definition} (hl : w.registry.get? l.name = some l)
    (hkind : l.kind = .list) : w.Creates (some l.ref) (w.madeList l none) := by
  have hmark : w.listMark (listTarget l) =
      ⟨.bound ⟨l.name, l.depth, w.classes⟩, some (.list l.name)⟩ := by
    simp [listMark, listTarget]
  rw [madeList, hmark]
  exact .list hl hkind

/-- Writing a container to where it is already takes it out and brings it to the same place. -/
theorem run_set_same {q : Node} (hm : s.get? m = some n) (hbody : n.body = .map es)
    (hholder : (n.form == .plain) = false) (hentry : es.get? k = some (.node l))
    (hl : s.get? l = some q) (hform : q.form.Links) (hattributes : q.attributes = [])
    (hparent : q.parent = some m) (hne : m ≠ l) :
    (MapNode.set m k (.node l)).run s = (.ok (), s) := by
  have hm₁ : (s.modify l (linkedTo none)).get? m = some n := by rw [get?_modify_ne hne, hm]
  have hl₁ := get?_modify_self hl (linkedTo none)
  have hnone : (linkedTo none q).attributes = [] := by
    rw [linkedTo, hattributes]
    rfl
  have hback : (s.modify l (linkedTo none)).modify l (linkedTo (some m)) = s := by
    rw [modify_modify]
    refine modify_same hl ?_
    cases q
    cases hparent
    cases hattributes
    rfl
  have hrelease : (releaseFrom m (.node l)).run s = (.ok (), s.modify l (linkedTo none)) := by
    rw [run_releaseFrom hm hholder]
    exact run_link hl hform hattributes none
  have haccept : (accept m (.node l)).run (s.modify l (linkedTo none)) = (.ok (.node l), s) := by
    rw [run_accept hm₁ hholder]
    exact (run_adoptInto_node hl₁ hform hnone (some m)).trans (congrArg _ hback)
  rw [MapNode.set, run_bind (MapNode.run_get? hm hbody k), hentry]
  simp only []
  rw [run_bind hrelease, run_bind haccept, StoreM.writeEntry, run_bind (run_entries hm hbody),
    Assoc.insert_same hentry, setEntries, run_change, modify_same hm (by rw [← hbody])]

theorem run_writeProperty {stored : Value}
    (hstored : (w.storedValue f.type v).run s = (.ok stored, s)) (hm : s.get? m = some n)
    (hbody : n.body = .map es) (hset : (MapNode.set m f.key stored).run s = (.ok (), s')) :
    (w.writeProperty (entryProperty f) (.node m) v).run s = (.ok (), s') := by
  refine ModelM.run_lift ?_
  change (w.writeEntry f f.type (.node m) v).run s = _
  rw [writeEntry, run_bind hstored, run_bind (run_node hm), hbody]
  exact hset

structure ListProperty (w : Workshop) (f : Field) (l : Definition) : Prop where
  creates : f.autocreate = .list
  type : f.type = some l.ref
  registered : w.registry.get? l.name = some l
  kind : l.kind = .list

theorem ListProperty.made {type : Definition} (hp : w.ListProperty f type) :
    w.Creates f.type (w.madeList type none) := by
  rw [hp.type]
  exact creates_madeList hp.registered hp.kind

theorem ListProperty.run_readList {type : Definition} (hp : w.ListProperty f type)
    (h : (w.readEntry f (.node m)).run s = (.ok (.node l), s')) :
    (w.readList d (entryProperty f) m).run s = (.ok l, s') := by
  have hread : (w.readProperty d (entryProperty f) (.node m)).run s = (.ok (.node l), s') := by
    rw [readProperty, entryProperty, run_bind h, hp.made.enumOf?]
    rfl
  exact ModelM.run_bind (ModelM.run_lift hread) _

/-- A map holds a list that was made for a property and looks like these trees. -/
structure HoldsList (w : Workshop) (f : Field) (t : Definition) (m : Ref) (n : Node) (l : Ref)
    (s : Store) (es : Assoc Scalar Value) (js : List Json) : Prop where
  found : s.get? m = some { n with body := .map es }
  entry : es.get? f.key = some (.node l)
  above : m < l
  filled : w.Filled (listTarget t) l (w.madeList t (some m)) s js

variable {type : Definition}

/-- Reading the property of an unset list creates the list behind the other entries. -/
theorem run_readList_new (hw : w.MakesStructs) (hp : w.ListProperty f type)
    (hkey : (f.key == f.key) = true) (hm : s.get? m = some { n with body := .map es })
    (hlinks : n.form.Links) (hattributes : n.attributes = [])
    (hnew : ∀ e ∈ es, (e.1 == f.key) = false) :
    ∃ s', (w.readList d (entryProperty f) m).run s = (.ok s.nodes.size, s') ∧ OnlyFilled m s s' ∧
      w.HoldsList f type m n s.nodes.size s' (es ++ [(f.key, .node s.nodes.size)]) [] := by
  have habsent := Assoc.get?_none.mpr hnew
  have hpolicy : f.autocreate ≠ .none := by simp [hp.creates]
  have hfree : Assoc.has n.attributes "autocreate" = false := by
    rw [hattributes]
    rfl
  obtain ⟨s', hread, hcreated⟩ :=
    run_readEntry_new hw hp.made hpolicy hkey hm rfl hlinks.ne_plain hfree habsent
  have hentry : Assoc.get? (es ++ [(f.key, .node s.nodes.size)]) f.key =
      some (.node s.nodes.size) := by
    rw [Assoc.get?_append habsent, Assoc.get?, if_pos hkey]
  refine ⟨s', hp.run_readList hread, ⟨hcreated.others, ?_⟩, hcreated.holder, hentry, get?_lt hm,
    [], hcreated.made, .nil, List.Subset.refl [], by simp, List.nodup_nil⟩
  rw [hcreated.size]
  exact Nat.le_succ _

namespace HoldsList

/-- Reading the property again gives the list that is there. -/
theorem run_readList (h : w.HoldsList f type m n l s es js) (hp : w.ListProperty f type) :
    (w.readList d (entryProperty f) m).run s = (.ok l, s) := by
  have hread := run_readEntry_kept (w := w) h.found rfl (.inr (by rw [h.entry]; rfl))
  rw [h.entry] at hread
  exact hp.run_readList hread

/-- Writing the list back changes nothing. -/
theorem run_writeProperty (h : w.HoldsList f type m n l s es js) (hlinks : n.form.Links) :
    (w.writeProperty (entryProperty f) (.node m) (.node l)).run s = (.ok (), s) := by
  obtain ⟨vs, hfills⟩ := h.filled
  have hform : (w.madeList type (some m)).form.Links := links_listMark w _
  have hstored : (w.storedValue f.type (.node l)).run s = (.ok (.node l), s) := by
    rw [storedValue, run_bind (run_isPlain hfills.found), hform.ne_plain]
    rfl
  exact Workshop.run_writeProperty hstored h.found rfl (run_set_same h.found rfl hlinks.ne_plain
    h.entry hfills.found hform rfl rfl (Nat.ne_of_lt h.above))

end HoldsList

/-- A step keeps the list of a property, and stores into it. -/
theorem run_fill (hw : w.MakesStructs) (hp : w.ListProperty f type) (hlinks : n.form.Links)
    (h : w.HoldsList f type m n l s es js) {step : FillStep}
    (hstep : step.operation.Stores s js js') :
    ∃ s', (w.fill d (entryProperty f) m l step).run s = (.ok (), s') ∧
      w.HoldsList f type m n l s' es js' ∧ Behind l s s' := by
  obtain ⟨v, s', hrun, hfilled, hbehind⟩ :=
    run_stores hw (boundTo_madeList hp.registered (some m)) h.filled hstep
  have hholds : w.HoldsList f type m n l s' es js' :=
    ⟨by rw [hbehind.below m h.above, h.found], h.entry, h.above, hfilled⟩
  refine ⟨s', ?_, hholds, hbehind⟩
  cases step with
  | held op => exact ModelM.run_bind (ModelM.run_lift hrun) _
  | anew op =>
    rw [fill, ModelM.run_bind (h.run_readList hp)]
    exact ModelM.run_bind (ModelM.run_lift hrun) _
  | augment source =>
    rw [fill, ModelM.run_bind (h.run_readList hp)]
    exact (ModelM.run_bind (ModelM.run_lift hrun) _).trans (hholds.run_writeProperty hlinks)

theorem run_fillAll (hw : w.MakesStructs) (hp : w.ListProperty f type) (hlinks : n.form.Links)
    (h : w.HoldsList f type m n l s es js) {s₀ : Store} {steps : List FillStep}
    (hsteps : ListOperation.StoreAll s₀ (steps.map FillStep.operation) js js')
    (hkeep : s₀.KeepsPlain s) (hsize : s₀.nodes.size ≤ s.nodes.size) :
    ∃ s', (w.fillAll d (entryProperty f) m l steps).run s = (.ok (), s') ∧
      w.HoldsList f type m n l s' es js' ∧ Behind l s s' := by
  induction steps generalizing s js with
  | nil =>
    cases hsteps
    exact ⟨s, rfl, h, Behind.refl l s⟩
  | cons step steps ih =>
    cases hsteps with
    | cons hfirst hrest =>
      obtain ⟨s₁, hrun, hholds, hbehind⟩ :=
        run_fill hw hp hlinks h (Stores.later hfirst hkeep hsize)
      obtain ⟨s₂, hothers, hall, hbehind'⟩ := ih hholds hrest (hkeep.trans hbehind.plain)
        (Nat.le_trans hsize hbehind.grown)
      refine ⟨s₂, ?_, hall, hbehind.trans hbehind'⟩
      rw [fillAll, ModelM.run_bind hrun, hothers]

end

end Workshop
end Exemplar
