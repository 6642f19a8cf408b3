import Exemplar.Proofs.Assembling
import Exemplar.Proofs.FilledProperties

/-! Documents that are composed through properties. A new instance whose entries are assigned one
after the other, or whose lists are created by reading their properties and then filled, is the
document that binding the entries at once gives. -/
namespace Exemplar

namespace Snapshot

mutual
/-- A snapshot without the numbers of its containers and without the marks of what is no number. -/
def anonymous : Snapshot → Snapshot
  | .scalar a => .scalar a
  | .nan _ => .scalar (.float .nan)
  | .member m literal => .member m literal.anonymous
  | .descendents _ root maps => .descendents 0 (root.map fun _ => 0) (anonymousItems maps)
  | .pair key v shown => .pair key v shown.anonymous
  | .list _ mark items => .list 0 mark (anonymousItems items)
  | .map _ mark entries => .map 0 mark (anonymousEntries entries)
  | .cycle _ mark isMap => .cycle 0 mark isMap
def anonymousItems : List Snapshot → List Snapshot
  | [] => []
  | x :: xs => anonymous x :: anonymousItems xs
def anonymousEntries : List (Scalar × Snapshot) → List (Scalar × Snapshot)
  | [] => []
  | (k, x) :: xs => (k, anonymous x) :: anonymousEntries xs
end

end Snapshot

namespace Workshop
open Snapshot

variable {w : Workshop}

mutual
/-- What a tree looks like that was made for a target, but for the numbers of its containers. -/
def typed (w : Workshop) (t : Target) : Json → Snapshot
  | .scalar a => .scalar a
  | .list items => .list 0 (w.listMark t) (typedItems w (t.inside w.registry) items)
  | .map entries => .map 0 (w.mapMark t) (typedEntries w (t.under w.registry) entries)
def typedItems (w : Workshop) (t : Target) : List Json → List Snapshot
  | [] => []
  | j :: js => typed w t j :: typedItems w t js
def typedEntries (w : Workshop) (target : Scalar → Target) :
    List (Scalar × Json) → List (Scalar × Snapshot)
  | [] => []
  | (k, j) :: js => (k, typed w (target k) j) :: typedEntries w target js
end

mutual
theorem anonymous_eq : (x : Snapshot) → {t : Target} → {j : Json} → x.json? = some j →
    w.Marked t x → x.anonymous = w.typed t j
  | .scalar a, t, j, h, _ => by
    obtain rfl := Option.some.inj h
    rw [anonymous, typed]
  | .nan mark, t, j, h, _ => by
    obtain rfl := Option.some.inj h
    rw [anonymous, typed]
  | .list r mark xs, t, j, h, hmarked => by
    obtain ⟨js, hjs, rfl⟩ := Option.map_eq_some_iff.mp h
    obtain ⟨rfl, hinside⟩ := hmarked
    rw [anonymous, typed, anonymousItems_eq xs hjs hinside]
  | .map r mark xs, t, j, h, hmarked => by
    obtain ⟨js, hjs, rfl⟩ := Option.map_eq_some_iff.mp h
    obtain ⟨rfl, hunder⟩ := hmarked
    rw [anonymous, typed, anonymousEntries_eq xs hjs hunder]
  | .member _ _, _, _, h, _ => by cases h
  | .descendents _ _ _, _, _, h, _ => by cases h
  | .pair _ _ _, _, _, h, _ => by cases h
  | .cycle _ _ _, _, _, h, _ => by cases h
theorem anonymousItems_eq : (xs : List Snapshot) → {t : Target} → {js : List Json} →
    itemsJson? xs = some js → w.MarkedItems t xs → anonymousItems xs = w.typedItems t js
  | [], t, js, h, _ => by
    obtain rfl := Option.some.inj h
    rw [anonymousItems, typedItems]
  | x :: xs, t, js, h, hmarked => by
    obtain ⟨j, js, rfl, hj, hjs⟩ := itemsJson?_cons.mp h
    rw [anonymousItems, typedItems, anonymous_eq x hj hmarked.1, anonymousItems_eq xs hjs hmarked.2]
theorem anonymousEntries_eq : (xs : List (Scalar × Snapshot)) → {target : Scalar → Target} →
    {js : List (Scalar × Json)} → entriesJson? xs = some js → w.MarkedEntries target xs →
    anonymousEntries xs = w.typedEntries target js
  | [], target, js, h, _ => by
    obtain rfl := Option.some.inj h
    rw [anonymousEntries, typedEntries]
  | (k, x) :: xs, target, js, h, hmarked => by
    obtain ⟨j, js, rfl, hj, hjs⟩ := entriesJson?_cons.mp h
    rw [anonymousEntries, typedEntries, anonymous_eq x hj hmarked.1,
      anonymousEntries_eq xs hjs hmarked.2]
end

end Workshop

def Model.propertyOf? (model : Model) (key : Scalar) : Option Property :=
  model.properties.find? fun p => p.key? == some key

/-- How a value comes under its key: it is assigned to the property, or the property is read and the
list that this gives is filled. -/
inductive Supply where
  | assign
  | fill (steps : List FillStep)

namespace Workshop

/-- Bring a value under its key in an instance. -/
def supply (w : Workshop) (model : Model) (m : Ref) (key : Scalar) (v : Value) (how : Supply) :
    ModelM Unit :=
  match model.propertyOf? key with
  | none => throw (.store .missingKey)
  | some p =>
    match how with
    | .assign => w.writeProperty p (.node m) v
    | .fill steps => do
      let l ← w.readList model.type p m
      w.fillAll model.type p m l steps

def supplyAll (w : Workshop) (model : Model) (m : Ref) (how : Scalar → Supply) :
    List (Scalar × Value) → ModelM Unit
  | [] => return
  | (key, v) :: rest => do
    w.supply model m key v (how key)
    supplyAll w model m how rest

/-- A new instance of a type in which values were brought under their keys. -/
def compose (w : Workshop) (name : String) (how : Scalar → Supply) (es : Assoc Scalar Value) :
    ModelM Value := do
  let model ← w.modelNamed name
  let m ← w.newInstance name
  w.supplyAll model m how es
  return .node m

/-- What can be done for an entry: any value can be assigned, and a list under the key of a field
with a list type can be filled by steps that end with its items. -/
inductive Supplies (w : Workshop) (d : Definition) (s : Store) : Supply → Scalar × Json → Prop
  | assign (e : Scalar × Json) : Supplies w d s .assign e
  | fill {f : Field} {steps : List FillStep} {items : List Json} (field : f ∈ d.fields)
    (list : w.registry.ListField f)
    (stored : ListOperation.StoreAll s (steps.map FillStep.operation) [] items) :
    Supplies w d s (.fill steps) (f.key, .list items)

section

open Store Snapshot StoreM

variable {w : Workshop} {m : Ref} {n : Node} {s s' : Store} {d : Definition} {js : List Json}

/-- An instance holds entries that look like these trees, typed as their keys ask. -/
structure Composes (w : Workshop) (d : Definition) (m : Ref) (n : Node) (s : Store)
    (es : Assoc Scalar Value) (ys : List (Scalar × Snapshot)) (done : List (Scalar × Json)) :
    Prop where
  found : s.get? m = some { n with body := .map es }
  shows : s.ShowsEntries m es ys
  content : entriesJson? ys = some done
  marked : w.MarkedEntries (Target.ofKey w.registry d) ys

theorem markedEntries_snoc {target : Scalar → Target} {ys : List (Scalar × Snapshot)} {k : Scalar}
    {y : Snapshot} (h : w.MarkedEntries target ys) (hy : w.Marked (target k) y) :
    w.MarkedEntries target (ys ++ [(k, y)]) := by
  induction ys with
  | nil => exact ⟨hy, trivial⟩
  | cons e ys ih =>
    obtain ⟨k', x⟩ := e
    exact ⟨h.1, ih h.2⟩

variable {es : Assoc Scalar Value} {ys : List (Scalar × Snapshot)} {done : List (Scalar × Json)}
  {k : Scalar} {v : Value} {j : Json} {f : Field}

theorem Composes.snoc (h : w.Composes d m n s es ys done) (hfilled : OnlyFilled m s s')
    (hfound : s'.get? m = some { n with body := .map (es ++ [(k, v)]) }) {y : Snapshot}
    (hy : y.json? = some j) (hmarked : w.Marked (Target.ofKey w.registry d k) y)
    (hv : s'.Shows (m + 1) v y) (hheld : s'.Held m v) :
    w.Composes d m n s' (es ++ [(k, v)]) (ys ++ [(k, y)]) (done ++ [(k, j)]) where
  found := hfound
  shows := by
    have hsame : SameFrom s s' (m + 1) := fun r hr hlt => hfilled.unchanged r hlt (Nat.ne_of_gt hr)
    exact (h.shows.of_same hsame ys).snoc hv hheld
  content := entriesJson?_snoc h.content hy
  marked := markedEntries_snoc h.marked hmarked

theorem Composes.new_key (h : w.Composes d m n s es ys done)
    (hnew : ∀ e ∈ done, (e.1 == k) = false) : ∀ e ∈ es, (e.1 == k) = false := by
  intro e he
  have hkey : e.1 ∈ Assoc.keys done := by
    rw [← keys_of_entriesJson? h.content, ← h.shows.keys]
    exact List.mem_map_of_mem he
  obtain ⟨e', he', heq⟩ := List.mem_map.mp hkey
  rw [← heq]
  exact hnew e' he'

/-- Assigning plain data to a property binds it like the entry of a bound document. -/
theorem run_writeEntry (hw : w.MakesStructs) (hd : d.Keyed) (hf : f ∈ d.fields)
    (h : w.Composes d m n s es ys done) (hlinks : n.form.Links)
    (hnew : ∀ e ∈ es, (e.1 == f.key) = false) (hv : s.PlainDocument v j) :
    ∃ s' v' y, (w.writeEntry f f.type (.node m) v).run s = (.ok (), s') ∧ OnlyFilled m s s' ∧
      w.Composes d m n s' (es ++ [(f.key, v')]) (ys ++ [(f.key, y)]) (done ++ [(f.key, j)]) := by
  have htarget : Target.ofKey w.registry d f.key = Target.ofRef w.registry f.type := by
    rw [Target.ofKey, hd.fieldForKey? hf, Option.bind_some]
  have hlt := get?_lt h.found
  obtain ⟨v', s₁, y, hbind, hbuilt₁, -⟩ := rebuilds hw hv.document _ hv.shown
    (Target.ofRef w.registry f.type) (Target.known_ofRef _ _) s
  obtain ⟨s₂, hadopt, hbuilt, hheld⟩ := hbuilt₁.adopted m
  have hm₁ : s₁.get? m = some { n with body := .map es } := by rw [hbuilt₁.unchanged m hlt, h.found]
  have hm₂ : s₂.get? m = some { n with body := .map es } := by rw [hbuilt.unchanged m hlt, h.found]
  have hset := run_set_new hm₁ rfl hlinks.ne_plain hnew hadopt hm₂ rfl
  have hstored : (w.storedValue f.type v).run s = (.ok v', s₁) := by
    rcases eq_of_json? hv.shown with ⟨a, rfl, -⟩ | ⟨mark, rfl, -⟩ | ⟨r, rfl⟩
    · rw [snapshot, snapshotWithin] at hbind
      exact hbind
    · rw [snapshot, snapshotWithin] at hbind
      exact hbind
    · obtain ⟨q, hr, hplain, -⟩ := hv.plain.found
      rw [storedValue, run_bind (run_isPlain hr), hplain]
      exact hbind
  have hfilled₂ := OnlyFilled.modify m s₂ fun n => { n with body := .map (es ++ [(f.key, v')]) }
  obtain ⟨hshows, hheld⟩ := hbuilt.later hheld hlt hfilled₂
  have hfilled := (hbuilt.onlyFilled m).trans hfilled₂
  refine ⟨_, v', y, ?_, hfilled,
    h.snoc hfilled (get?_modify_self hm₂ _) hbuilt.content ?_ hshows hheld⟩
  · rw [writeEntry, run_bind hstored, run_bind (run_node hm₁)]
    exact hset
  · rw [htarget]
    exact hbuilt.marked

/-- A list that is created by reading its property and then filled is the list that is bound. -/
theorem run_fillNew (hw : w.MakesStructs) {type : Definition} (hp : w.ListProperty f type)
    (hd : d.Keyed) (hf : f ∈ d.fields) (h : w.Composes d m n s es ys done) (hlinks : n.form.Links)
    (hattributes : n.attributes = []) (hnew : ∀ e ∈ es, (e.1 == f.key) = false) {s₀ : Store}
    (hkeep : s₀.KeepsPlain s) (hsize : s₀.nodes.size ≤ s.nodes.size) {steps : List FillStep}
    (hsteps : ListOperation.StoreAll s₀ (steps.map FillStep.operation) [] js) :
    ∃ l s₁ s' y, (w.readList d (entryProperty f) m).run s = (.ok l, s₁) ∧
      (w.fillAll d (entryProperty f) m l steps).run s₁ = (.ok (), s') ∧ OnlyFilled m s s' ∧
      w.Composes d m n s' (es ++ [(f.key, .node l)]) (ys ++ [(f.key, y)])
        (done ++ [(f.key, .list js)]) := by
  obtain ⟨s₁, hread, hfilled₁, hempty⟩ :=
    run_readList_new hw hp (hd.same_key hf) h.found hlinks hattributes hnew
  obtain ⟨s₂, hrun, hholds, hbehind⟩ := run_fillAll hw hp hlinks hempty hsteps
    (hkeep.trans (hfilled₁.keepsPlain h.found hlinks)) (Nat.le_trans hsize hfilled₁.grown)
  have hfilled : OnlyFilled m s s₂ :=
    ⟨fun r hr hne => by rw [hbehind.below r hr, hfilled₁.unchanged r hr hne],
      Nat.le_trans hfilled₁.grown hbehind.grown⟩
  obtain ⟨vs, zs, hlist, hshows, hjs, hmarked⟩ := hholds.filled.shows
  have htarget : Target.ofKey w.registry d f.key = listTarget type := by
    rw [Target.ofKey, hd.fieldForKey? hf, Option.bind_some, hp.type,
      ofRef_list hp.registered hp.kind]
  refine ⟨s.nodes.size, s₁, s₂, .list s.nodes.size (w.listMark (listTarget type)) zs, hread, hrun,
    hfilled, h.snoc hfilled hholds.found ?_ ?_ ?_ ?_⟩
  · rw [Snapshot.json?, hjs]
    rfl
  · rw [htarget]
    exact ⟨rfl, hmarked⟩
  · exact ⟨rfl, hholds.above, links_listMark w _, vs, some m, hlist, hshows⟩
  · rw [Held, parent?, hlist]
    rfl

end

section

open Store Snapshot Registry

variable {w : Workshop} {m : Ref} {n : Node} {s s' s₀ : Store} {d : Definition} {model : Model}
  {options : Options} {docs : List Document}

theorem propertyOf?_field (hd : d.Keyed) {f : Field} (hf : f ∈ d.fields)
    (hmodel : model.properties = Model.fieldProperties d.fields) :
    model.propertyOf? f.key = some (entryProperty f) := by
  rw [Model.propertyOf?, hmodel]
  cases hfind : (Model.fieldProperties d.fields).find? fun p => p.key? == some f.key with
  | none =>
    have hno := List.find?_eq_none.mp hfind _ (List.mem_map_of_mem hf)
    exact absurd (hd.same_key hf) hno
  | some p =>
    obtain ⟨g, hg, rfl⟩ := List.mem_map.mp (List.mem_of_find?_eq_some hfind)
    have hsame : (g.key == f.key) = true :=
      List.find?_some (p := fun p : Property => p.key? == some f.key) hfind
    rw [hd.eq_of_key hf hg hsame, entryProperty]

/-- However a value comes under its key, the entry is that of a bound document. -/
theorem run_supply (hw : w.MakesStructs) (hregistry : w.registry = ofDocuments options docs)
    (hd : d.Keyed) (hget : w.registry.get? d.name = some d) (htype : model.type = d)
    (hmodel : model.properties = Model.fieldProperties d.fields) (hlinks : n.form.Links)
    (hattributes : n.attributes = []) {done : List (Scalar × Json)} {es ys}
    (h : w.Composes d m n s es ys done) (hkeep : s₀.KeepsPlain s)
    (hsize : s₀.nodes.size ≤ s.nodes.size) {f : Field} (hf : f ∈ d.fields)
    (hnew : ∀ e ∈ done, (e.1 == f.key) = false) {v : Value} {j : Json} (hv : s₀.PlainDocument v j)
    {how : Supply} (hhow : w.Supplies d s₀ how (f.key, j)) :
    ∃ s' es' ys', (w.supply model m f.key v how).run s = (.ok (), s') ∧ OnlyFilled m s s' ∧
      w.Composes d m n s' es' ys' (done ++ [(f.key, j)]) := by
  have hnew := h.new_key hnew
  -- a filled entry names its own field, which the key shows to be this one
  generalize he : (f.key, j) = e at hhow
  cases hhow with
  | assign _ =>
    subst he
    obtain ⟨s', v', y, hrun, hfilled, hcomposes⟩ :=
      run_writeEntry hw hd hf h hlinks hnew (hv.later hkeep hsize)
    refine ⟨s', _, _, ?_, hfilled, hcomposes⟩
    rw [supply, propertyOf?_field hd hf hmodel]
    exact ModelM.run_lift hrun
  | @fill g steps items hg hlist hsteps =>
    obtain ⟨hkey, rfl⟩ := Prod.mk.inj he
    obtain rfl : g = f := hd.eq_of_key hf hg (by rw [← hkey]; exact hd.same_key hf)
    obtain ⟨type, hp⟩ : ∃ type, w.ListProperty g type := by
      obtain ⟨l, hl, hfound, hkind⟩ := id hlist
      rw [hregistry] at hget hlist
      exact ⟨l, autocreate_ofDocuments hget hf hlist, hl, hfound, hkind⟩
    obtain ⟨l, s₁, s', y, hread, hrun, hfilled, hcomposes⟩ :=
      run_fillNew hw hp hd hf h hlinks hattributes hnew hkeep hsize hsteps
    refine ⟨s', _, _, ?_, hfilled, hcomposes⟩
    rw [supply, propertyOf?_field hd hf hmodel, htype]
    exact (ModelM.run_bind hread _).trans hrun

theorem run_supplyAll (hw : w.MakesStructs) (hregistry : w.registry = ofDocuments options docs)
    (hd : d.Keyed) (hget : w.registry.get? d.name = some d) (htype : model.type = d)
    (hmodel : model.properties = Model.fieldProperties d.fields) (hlinks : n.form.Links)
    (hattributes : n.attributes = []) {how : Scalar → Supply} {done js : List (Scalar × Json)}
    {es' ys} (h : w.Composes d m n s es' ys done) (hkeep : s₀.KeepsPlain s)
    (hsize : s₀.nodes.size ≤ s.nodes.size) {es : Assoc Scalar Value}
    (hes : List.Forall₂ (fun e e' => e.1 = e'.1 ∧ s₀.PlainDocument e.2 e'.2) es js)
    (hkeys : ∀ e ∈ js, ∃ f ∈ d.fields, f.key = e.1)
    (honce : (done ++ js).Pairwise fun e e' => (e.1 == e'.1) = false)
    (hhow : ∀ e ∈ js, w.Supplies d s₀ (how e.1) e) :
    ∃ s' es' ys', (w.supplyAll model m how es).run s = (.ok (), s') ∧ OnlyFilled m s s' ∧
      w.Composes d m n s' es' ys' (done ++ js) := by
  -- on the entries that are left, with those that were supplied in `done`
  induction es generalizing js done s es' ys with
  | nil =>
    obtain rfl := List.forall₂_nil_left_iff.mp hes
    refine ⟨s, es', ys, rfl, ⟨fun _ _ _ => rfl, Nat.le_refl _⟩, ?_⟩
    rwa [List.append_nil]
  | cons e es ih =>
    obtain ⟨k, v⟩ := e
    obtain ⟨⟨k', j⟩, js, ⟨hkey, hv⟩, hrest, rfl⟩ := List.forall₂_cons_left_iff.mp hes
    obtain rfl : k = k' := hkey
    obtain ⟨⟨f, hf, rfl⟩, hothersKeys⟩ := List.forall_mem_cons.mp hkeys
    obtain ⟨hfirst, hhow⟩ := List.forall_mem_cons.mp hhow
    have hnew : ∀ e ∈ done, (e.1 == f.key) = false :=
      fun e he => (List.pairwise_append.mp honce).2.2 e he (f.key, j) (by simp)
    obtain ⟨s₁, es₁, ys₁, hrun, hfilled, hcomposes⟩ := run_supply hw hregistry hd hget htype hmodel
      hlinks hattributes h hkeep hsize hf hnew hv hfirst
    have hsplit : done ++ (f.key, j) :: js = done ++ [(f.key, j)] ++ js := by simp
    rw [hsplit] at honce ⊢
    obtain ⟨s₂, es₂, ys₂, hothers, hfilled', hall⟩ := ih hcomposes
      (hkeep.trans (hfilled.keepsPlain h.found hlinks)) (Nat.le_trans hsize hfilled.grown) hrest
      hothersKeys honce hhow
    refine ⟨s₂, es₂, ys₂, ?_, hfilled.trans hfilled', hall⟩
    rw [supplyAll, ModelM.run_bind hrun, hothers]

end

end Workshop

namespace Store

/-- Nothing is above a document, and in it every container is the parent of those it holds. -/
def Rooted (s : Store) (v : Value) : Prop :=
  (∀ c, v = .node c → s.parent? c = none) ∧
    ∀ r ∈ (s.snapshot v).refs, ∀ c ∈ s.childrenOf r, s.parent? c = some r

/-- Two documents, each in its own store, are the same but for the numbers of their nodes: they
have the same content in the same order, in containers of the same forms and types, and the same
links. -/
structure Agrees (s : Store) (v : Value) (s' : Store) (v' : Value) : Prop where
  same : (s.snapshot v).anonymous = (s'.snapshot v').anonymous
  rooted : s.Rooted v
  rooted' : s'.Rooted v'

theorem Rooted.of_shows {s : Store} {low : Ref} {v : Value} {y : Snapshot}
    (hfree : ∀ c, v = .node c → s.parent? c = none) (hv : s.Shows low v y) : s.Rooted v := by
  refine ⟨hfree, ?_⟩
  rw [hv.snapshot_eq]
  exact fun r hr => (hv.keeps y r hr).2

end Store

namespace Workshop
open Store Registry

variable {w : Workshop} {s : Store} {d : Definition} {options : Options} {docs : List Document}

theorem model?_struct (r : Registry) (hkind : d.kind = .struct) :
    ∃ model, r.model? d = some model ∧ model.type = d ∧
      model.properties = Model.fieldProperties d.fields ∧ model.constructible = true := by
  rw [Definition.kind] at hkind
  cases hshape : d.shape with
  | struct fields aliases =>
    refine ⟨_, by rw [model?, hshape], rfl, ?_, rfl⟩
    rw [Definition.fields, hshape]
  | _ => rw [hshape] at hkind; cases hkind

/-- The properties of a struct are those of its fields. -/
theorem exists_field_of_property {model : Model} {p : Property} (hkind : d.kind = .struct)
    (hmodel : w.registry.model? d = some model) (hp : p ∈ model.properties) :
    ∃ f ∈ d.fields, p = entryProperty f := by
  obtain ⟨model', hmodel', -, hproperties, -⟩ := model?_struct w.registry hkind
  obtain rfl := Option.some.inj (hmodel.symm.trans hmodel')
  rw [hproperties] at hp
  obtain ⟨f, hf, rfl⟩ := List.mem_map.mp hp
  exact ⟨f, hf, rfl⟩

/-- An instance that was composed looks like a document that was bound. -/
theorem run_compose (hw : w.MakesStructs) (hregistry : w.registry = ofDocuments options docs)
    (hd : d.Keyed) (hget : w.registry.get? d.name = some d) (hkind : d.kind = .struct)
    {es : Assoc Scalar Value} {js : List (Scalar × Json)}
    (hes : List.Forall₂ (fun e e' => e.1 = e'.1 ∧ s.PlainDocument e.2 e'.2) es js)
    (hkeys : ∀ e ∈ js, ∃ f ∈ d.fields, f.key = e.1)
    (honce : js.Pairwise fun e e' => (e.1 == e'.1) = false) {how : Scalar → Supply}
    (hhow : ∀ e ∈ js, w.Supplies d s (how e.1) e) :
    ∃ v s' y, (w.compose d.name how es).run s = (.ok v, s') ∧ y.json? = some (.map js) ∧
      w.Marked (Target.ofRef w.registry (some d.ref)) y ∧ s'.Shows s.nodes.size v y ∧
      ∀ c, v = .node c → s'.parent? c = none := by
  obtain ⟨model, hmodel, htype, hproperties, hconstructible⟩ := model?_struct w.registry hkind
  have htarget := ofRef_struct hget hkind
  have hlinks : (w.mapMark ⟨some d, none⟩).form.Links := by
    rw [← htarget]
    exact links_mapMark hw (Target.known_ofRef _ _)
  let n : Node := ⟨.map [], (w.mapMark ⟨some d, none⟩).form, some (.struct d.name), none, []⟩
  have hadded : (s.add n).2.get? s.nodes.size = some n := by rw [get?_add, if_pos rfl]
  have hempty : w.Composes d s.nodes.size n (s.add n).2 [] [] [] := ⟨hadded, rfl, rfl, trivial⟩
  have hkeep : s.KeepsPlain (s.add n).2 := .of_unchanged fun r hr => get?_add_lt hr
  have hsize : s.nodes.size ≤ (s.add n).2.nodes.size := by
    rw [size_add]
    exact Nat.le_succ _
  obtain ⟨s', es', ys, hrun, -, hcomposes⟩ := run_supplyAll hw hregistry hd hget htype hproperties
    hlinks rfl hempty hkeep hsize hes hkeys honce hhow
  have hnamed : (w.modelNamed d.name).run s = (.ok model, s) := by
    have hdefinition : (w.definition d.name).run s = (.ok d, s) := by
      rw [definition, hget]
      rfl
    rw [modelNamed, ModelM.run_bind hdefinition, modelOf, hmodel]
    rfl
  have hmade : (w.newInstance d.name).run s = (.ok s.nodes.size, (s.add n).2) := by
    rw [newInstance, ModelM.run_bind hnamed, hconstructible, if_pos rfl, htype]
    exact ModelM.run_lift (run_newStruct hw (definition?_ref hget) s)
  let y : Snapshot := .map s.nodes.size (w.mapMark ⟨some d, none⟩) ys
  refine ⟨.node s.nodes.size, s', y, ?_, ?_, ?_, ?_, ?_⟩
  · rw [compose, ModelM.run_bind hnamed, ModelM.run_bind hmade, ModelM.run_bind hrun]
    rfl
  · change (Snapshot.map _ _ ys).json? = _
    rw [Snapshot.json?, hcomposes.content]
    rfl
  · rw [htarget]
    exact ⟨rfl, hcomposes.marked⟩
  · exact ⟨rfl, Nat.le_refl _, hlinks, es', none, hcomposes.found, hcomposes.shows⟩
  · rintro c ⟨⟩
    rw [parent?, hcomposes.found]
    rfl

/-- Three ways to make an instance of a struct agree for plain data under keys of its fields:
binding all at once, assigning each value to its property, and in place of some assignments of
lists, reading the property and storing plain data into the list that this creates. -/
theorem compose_agrees (hw : w.MakesStructs) (hregistry : w.registry = ofDocuments options docs)
    (hdocs : ∀ doc ∈ docs, ∃ q, doc.value.IsDocument q) (hget : w.registry.get? d.name = some d)
    (hkind : d.kind = .struct) {r : Ref} {n : Node} {es : Assoc Scalar Value}
    (hr : s.get? r = some n) (hbody : n.body = .map es) {js : List (Scalar × Json)}
    (hv : s.PlainDocument (.node r) (.map js)) (hkeys : ∀ e ∈ js, ∃ f ∈ d.fields, f.key = e.1) :
    ∃ v₁ s₁ v₂ s₂, (w.bind (.node r) (some d.ref)).run s = (.ok v₁, s₁) ∧
      (w.compose d.name (fun _ => .assign) es).run s = (.ok v₂, s₂) ∧
      (s₁.snapshot v₁).json? = some (.map js) ∧ s₁.Agrees v₁ s₂ v₂ ∧
      ∀ how : Scalar → Supply, (∀ e ∈ js, w.Supplies d s (how e.1) e) →
        ∃ v₃ s₃, (w.compose d.name how es).run s = (.ok v₃, s₃) ∧ s₁.Agrees v₁ s₃ v₃ := by
  have hd : d.Keyed := by
    rw [hregistry] at hget
    exact keyed_ofDocuments hdocs hget
  obtain ⟨q, m, es', ⟨⟩, hq, -, hbody', hes⟩ := hv.of_map
  obtain rfl := Option.some.inj (hr.symm.trans hq)
  obtain rfl := Body.map.inj (hbody.symm.trans hbody')
  have honce : js.Pairwise fun e e' => (e.1 == e'.1) = false := by
    cases hv.document with
    | map names once _ => exact Json.pairwise_keys names once
  obtain ⟨v₁, s₁, hbind, hbuilt, hfree⟩ := bind_rebuilt hw (some d.ref) hv.shown hv.document
  have hagrees (how : Scalar → Supply) (hhow : ∀ e ∈ js, w.Supplies d s (how e.1) e) :
      ∃ v₃ s₃, (w.compose d.name how es).run s = (.ok v₃, s₃) ∧ s₁.Agrees v₁ s₃ v₃ := by
    obtain ⟨v, s', y, hrun, hy, hmarked, hshows, hfree'⟩ :=
      run_compose hw hregistry hd hget hkind hes hkeys honce hhow
    refine ⟨v, s', hrun, ?_, .of_shows hfree hbuilt.shows, .of_shows hfree' hshows⟩
    rw [anonymous_eq _ hbuilt.content hbuilt.marked, hshows.snapshot_eq, anonymous_eq y hy hmarked]
  obtain ⟨v₂, s₂, hassign, hagrees₂⟩ := hagrees (fun _ => .assign) fun e _ => .assign e
  exact ⟨v₁, s₁, v₂, s₂, hbind, hassign, hbuilt.content, hagrees₂, hagrees⟩

def tableDocument : Document where
  name := "N"
  source := "N.jschema"
  value := .map [(.str "rows", .list [.list [.map [(.str "x", .str "int")]]]),
    (.str "label", .str "string")]

/-- A document with two rows, the second one empty, and a list of that empty row. -/
def tableStore : Store where
  nodes := #[
    { body := .map [(.str "label", .scalar (.str "a")), (.str "rows", .node 1)], form := .plain },
    { body := .list [.node 2, .node 3], form := .plain },
    { body := .list [.node 4], form := .plain },
    { body := .list [], form := .plain },
    { body := .map [(.str "x", .scalar (.int 1))], form := .plain },
    { body := .list [.node 3], form := .plain }]

def tableRows : List Json := [.list [.map [(.str "x", .scalar (.int 1))]], .list []]

theorem plainDocument_table :
    tableStore.PlainDocument (.node 0)
        (.map [(.str "label", .str "a"), (.str "rows", .list tableRows)]) ∧
      tableStore.PlainDocument (.node 2) (.list [.map [(.str "x", .scalar (.int 1))]]) ∧
      tableStore.PlainDocument (.node 3) (.list []) ∧
      tableStore.PlainDocument (.node 5) (.list [.list []]) := by
  have hscalar (a : Scalar) : tableStore.Plain (.scalar a) := (plainDocument_scalar _ a).plain
  have hnone : ∀ v ∈ [], tableStore.Plain v := by simp
  have h3 : tableStore.Plain (.node 3) := .node rfl rfl hnone
  have h4 : tableStore.Plain (.node 4) :=
    .node rfl rfl (List.forall_mem_cons.mpr ⟨hscalar (.int 1), hnone⟩)
  have h2 : tableStore.Plain (.node 2) := .node rfl rfl (List.forall_mem_cons.mpr ⟨h4, hnone⟩)
  have h5 : tableStore.Plain (.node 5) := .node rfl rfl (List.forall_mem_cons.mpr ⟨h3, hnone⟩)
  have h1 : tableStore.Plain (.node 1) := .node rfl rfl
    (List.forall_mem_cons.mpr ⟨h2, List.forall_mem_cons.mpr ⟨h3, hnone⟩⟩)
  have h0 : tableStore.Plain (.node 0) := .node rfl rfl (List.forall_mem_cons.mpr
    ⟨hscalar (.str "a"), List.forall_mem_cons.mpr ⟨h1, hnone⟩⟩)
  exact ⟨⟨h0, rfl, by decide⟩, ⟨h2, rfl, by decide⟩, ⟨h3, rfl, by decide⟩, ⟨h5, rfl, by decide⟩⟩

/-- The empty row is stored twice, and each copy is replaced. -/
def tableSteps : List FillStep :=
  [.augment (.node 5), .anew (.insert 0 (.node 3)), .held (.set 0 (.node 2)),
    .held (.setSlice ⟨some 1, none, none⟩ (.node 5))]

theorem storeAll_table :
    ListOperation.StoreAll tableStore (tableSteps.map FillStep.operation) [] tableRows := by
  obtain ⟨-, hrow, hempty, hrest⟩ := plainDocument_table
  have hslice : ListOperation.StoreAll tableStore [.setSlice ⟨some 1, none, none⟩ (.node 5)]
      [.list [.map [(.str "x", .scalar (.int 1))]], .list []] tableRows :=
    .cons (.setSlice rfl hrest rfl rfl) (.nil _)
  exact .cons (.grow [] hrest rfl) (.cons (.insert _ (by decide) hempty)
    (.cons (.set rfl hrow) hslice))

def tableSupply (key : Scalar) : Supply :=
  if key = .str "rows" then .fill tableSteps else .assign

theorem compose_agrees_table :
    let w : Workshop := ⟨ofDocuments {} [tableDocument], {}, false⟩
    let es : Assoc Scalar Value := [(.str "label", .scalar (.str "a")), (.str "rows", .node 1)]
    ∃ d v₁ s₁ v₂ s₂ v₃ s₃, w.registry.get? "N" = some d ∧
      (w.bind (.node 0) (some d.ref)).run tableStore = (.ok v₁, s₁) ∧
      (w.compose d.name (fun _ => .assign) es).run tableStore = (.ok v₂, s₂) ∧
      (w.compose d.name tableSupply es).run tableStore = (.ok v₃, s₃) ∧
      s₁.Agrees v₁ s₂ v₂ ∧ s₁.Agrees v₁ s₃ v₃ := by
  intro w es
  have hfound : ∃ d ∈ w.registry.get? "N", d.name = "N" ∧ d.kind = .struct ∧
      (∃ f ∈ d.fields, f.key = .str "label") ∧ ∃ f ∈ d.fields, f.key = .str "rows" ∧
        ∃ l ∈ w.registry.get? "N.rows", l.name = "N.rows" ∧ f.type = some l.ref ∧
          l.kind = .list := by
    decide +kernel
  obtain ⟨d, hget, hname, hkind, ⟨label, hlabel, hkey⟩, f, hf, hrows, l, hl, hlname, htype,
    hlist⟩ := hfound
  have hd : w.registry.get? d.name = some d := by
    rw [hname]
    exact hget
  have hfield : w.registry.ListField f := by
    refine ⟨l, htype, ?_, hlist⟩
    rw [hlname]
    exact hl
  have hdocs : ∀ doc ∈ [tableDocument], ∃ q, doc.value.IsDocument q := by
    intro doc hdoc
    obtain rfl := List.mem_singleton.mp hdoc
    exact ⟨fun _ => True, by decide⟩
  let js : List (Scalar × Json) := [(.str "label", .str "a"), (.str "rows", .list tableRows)]
  have hkeys : ∀ e ∈ js, ∃ f ∈ d.fields, f.key = e.1 :=
    List.forall_mem_cons.mpr ⟨⟨label, hlabel, hkey⟩, List.forall_mem_singleton.mpr ⟨f, hf, hrows⟩⟩
  obtain ⟨v₁, s₁, v₂, s₂, hbind, hassign, -, hagrees, hall⟩ := compose_agrees (.inl rfl) rfl hdocs
    hd hkind rfl rfl plainDocument_table.1 hkeys
  have hfilled : w.Supplies d tableStore (.fill tableSteps) (.str "rows", .list tableRows) := by
    rw [← hrows]
    exact .fill hf hfield storeAll_table
  have hhow : ∀ e ∈ js, w.Supplies d tableStore (tableSupply e.1) e :=
    List.forall_mem_cons.mpr ⟨.assign _, List.forall_mem_singleton.mpr hfilled⟩
  obtain ⟨v₃, s₃, hfill, hagrees'⟩ := hall tableSupply hhow
  exact ⟨d, v₁, s₁, v₂, s₂, v₃, s₃, hget, hbind, hassign, hfill, hagrees, hagrees'⟩

end Workshop
end Exemplar
