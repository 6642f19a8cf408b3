import Exemplar.Model.Call
import Exemplar.Proofs.Document
import Exemplar.Proofs.FreshTrees
import Exemplar.Proofs.RunOutcomes

/-! Binding keeps the content. Whatever type a value is bound to, the result is a tree of new
containers with the keys, items and scalars of the value, each container marked as the type asks. -/
namespace Exemplar

namespace Snapshot

theorem json?_list {x : Snapshot} {js : List Json} (h : x.json? = some (.list js)) :
    ∃ r mark xs, x = .list r mark xs ∧ itemsJson? xs = some js := by
  cases x with
  | list r mark xs =>
    obtain ⟨js', hjs, heq⟩ := Option.map_eq_some_iff.mp h
    exact ⟨r, mark, xs, rfl, by rw [hjs, Json.list.inj heq]⟩
  | map r mark xs => simp [json?] at h
  | _ => simp [json?] at h

theorem json?_map {x : Snapshot} {es : List (Scalar × Json)} (h : x.json? = some (.map es)) :
    ∃ r mark xs, x = .map r mark xs ∧ entriesJson? xs = some es := by
  cases x with
  | map r mark xs =>
    obtain ⟨es', hes, heq⟩ := Option.map_eq_some_iff.mp h
    exact ⟨r, mark, xs, rfl, by rw [hes, Json.map.inj heq]⟩
  | list r mark xs => simp [json?] at h
  | _ => simp [json?] at h

theorem itemsJson?_cons {x : Snapshot} {xs : List Snapshot} {js : List Json} :
    itemsJson? (x :: xs) = some js ↔
      ∃ j rest, js = j :: rest ∧ x.json? = some j ∧ itemsJson? xs = some rest := by
  simp only [itemsJson?, Option.bind_eq_bind, Option.bind_eq_some_iff, Option.pure_def,
    Option.some.injEq]
  constructor
  · rintro ⟨j, hj, rest, hrest, rfl⟩
    exact ⟨j, rest, rfl, hj, hrest⟩
  · rintro ⟨j, rest, rfl, hj, hrest⟩
    exact ⟨j, hj, rest, hrest, rfl⟩

theorem entriesJson?_cons {k : Scalar} {x : Snapshot} {xs : List (Scalar × Snapshot)}
    {es : List (Scalar × Json)} :
    entriesJson? ((k, x) :: xs) = some es ↔
      ∃ j rest, es = (k, j) :: rest ∧ x.json? = some j ∧ entriesJson? xs = some rest := by
  simp only [entriesJson?, Option.bind_eq_bind, Option.bind_eq_some_iff, Option.pure_def,
    Option.some.injEq]
  constructor
  · rintro ⟨j, hj, rest, hrest, rfl⟩
    exact ⟨j, rest, rfl, hj, hrest⟩
  · rintro ⟨j, rest, rfl, hj, hrest⟩
    exact ⟨j, hj, rest, hrest, rfl⟩

theorem keys_of_entriesJson? {ys : List (Scalar × Snapshot)} {entries : List (Scalar × Json)}
    (h : entriesJson? ys = some entries) : Assoc.keys ys = Assoc.keys entries := by
  induction ys generalizing entries with
  | nil =>
    obtain rfl := Option.some.inj h
    rfl
  | cons y ys ih =>
    obtain ⟨key, y⟩ := y
    obtain ⟨j, rest, rfl, -, hrest⟩ := entriesJson?_cons.mp h
    exact congrArg (List.cons key) (ih hrest)

mutual
/-- What shows as a tree is written as this tree. -/
theorem written_of_json? : (x : Snapshot) → {j : Json} → x.json? = some j → x.written = .ok j
  | .scalar s, j, h => by
    obtain rfl := Option.some.inj h
    rfl
  | .nan mark, j, h => by
    obtain rfl := Option.some.inj h
    rfl
  | .list r mark xs, j, h => by
    obtain ⟨js, hjs, rfl⟩ := Option.map_eq_some_iff.mp h
    rw [written, writtenItems_of_json? xs hjs]
    rfl
  | .map r mark xs, j, h => by
    obtain ⟨es, hes, rfl⟩ := Option.map_eq_some_iff.mp h
    rw [written, writtenEntries_of_json? xs hes]
    rfl
  | .member _ _, _, h => by simp [json?] at h
  | .descendents _ _ _, _, h => by simp [json?] at h
  | .pair _ _ _, _, h => by simp [json?] at h
  | .cycle _ _ _, _, h => by simp [json?] at h
theorem writtenItems_of_json? : (xs : List Snapshot) → {js : List Json} →
    itemsJson? xs = some js → writtenItems xs = .ok js
  | [], js, h => by
    obtain rfl := Option.some.inj h
    rfl
  | x :: xs, js, h => by
    obtain ⟨j, js, rfl, hj, hjs⟩ := itemsJson?_cons.mp h
    rw [writtenItems, written_of_json? x hj, writtenItems_of_json? xs hjs]
    rfl
theorem writtenEntries_of_json? : (xs : List (Scalar × Snapshot)) → {es : List (Scalar × Json)} →
    entriesJson? xs = some es → writtenEntries xs = .ok es
  | [], es, h => by
    obtain rfl := Option.some.inj h
    rfl
  | (k, x) :: xs, es, h => by
    obtain ⟨j, es, rfl, hj, hes⟩ := entriesJson?_cons.mp h
    rw [writtenEntries, written_of_json? x hj, writtenEntries_of_json? xs hes]
    rfl
end

end Snapshot

theorem Registry.definition?_ref {r : Registry} {d : Definition} (hd : r.get? d.name = some d) :
    r.definition? d.name d.edition = some d := by
  rw [definition?, hd]
  simp

namespace Target

def under (r : Registry) (t : Target) (key : Scalar) : Target :=
  match t.struct with
  | some d => .ofKey r d key
  | none => .untyped

def inside (r : Registry) (t : Target) : Target :=
  match t.list with
  | some (d, depth) => .ofItem r d depth
  | none => .untyped

theorem ofRef_ref {r : Registry} {d : Definition} (hd : r.get? d.name = some d) :
    ofRef r (some d.ref) = ofDefinition d := by
  rw [Definition.ref, ofRef, Registry.definition?_ref hd]
  rfl

def Known (r : Registry) (t : Target) : Prop :=
  ∀ d, t.struct = some d → ∃ name edition, r.definition? name edition = some d

theorem known_untyped (r : Registry) : Known r untyped := by
  intro d h
  cases h

theorem known_ofRef (r : Registry) (t : Option TypeRef) : Known r (ofRef r t) := by
  intro d h
  rcases t with _ | t
  · cases h
  · cases t with
    | primitive p => cases h
    | defined name edition =>
      rw [ofRef] at h
      cases hd : r.definition? name edition with
      | none =>
        rw [hd] at h
        cases h
      | some d' =>
        have h : (ofDefinition d').struct = some d := by simpa [hd] using h
        rw [ofDefinition] at h
        split at h
        · exact ⟨name, edition, by rw [hd, Option.some.inj h]⟩
        · cases h
        · cases h

theorem known_ofElement (r : Registry) (d : Definition) : Known r (ofElement r d) := by
  rw [ofElement]
  split
  · exact known_ofRef r _
  · exact known_untyped r

theorem known_under (r : Registry) (t : Target) (key : Scalar) : Known r (t.under r key) := by
  rw [under]
  split
  · exact known_ofRef r _
  · exact known_untyped r

theorem known_inside (r : Registry) (t : Target) : Known r (t.inside r) := by
  rw [inside]
  split
  · rename_i d depth _
    rw [ofItem]
    split
    · exact fun e he => known_ofElement r d e he
    · exact known_ofElement r d
  · exact known_untyped r

end Target

/-- A map that cannot be linked looks like this: an instance of a class that takes the place of the
operation that links it. -/
def Store.ShowsSealed (s : Store) (low : Ref) (v : Value) (y : Snapshot) : Prop :=
  ∃ r mark ys name es, y = .map r mark ys ∧ v = .node r ∧ low ≤ r ∧
    mark.form = .instance name true ∧ s.get? r = some ⟨.map es, mark.form, mark.type, none, []⟩ ∧
    s.ShowsEntries r es ys

namespace Workshop
open StoreM (Ends)

def mapMark (w : Workshop) (t : Target) : Mark :=
  match t.struct with
  | none => ⟨.linked, none⟩
  | some d =>
    ⟨if w.classes then .instance d.name (d.field? linkOperation).isSome else .linked,
      some (.struct d.name)⟩

def listMark (w : Workshop) (t : Target) : Mark :=
  match t.list with
  | none => ⟨.linked, none⟩
  | some (d, depth) =>
    ⟨.bound ⟨d.name, depth, w.classes⟩, if depth = d.depth then some (.list d.name) else none⟩

mutual
/-- Every container that a snapshot shows is marked as its place below a target asks. -/
def Marked (w : Workshop) (t : Target) : Snapshot → Prop
  | .list _ mark ys => mark = w.listMark t ∧ MarkedItems w (t.inside w.registry) ys
  | .map _ mark ys => mark = w.mapMark t ∧ MarkedEntries w (t.under w.registry) ys
  | _ => True
def MarkedItems (w : Workshop) (t : Target) : List Snapshot → Prop
  | [] => True
  | y :: ys => Marked w t y ∧ MarkedItems w t ys
def MarkedEntries (w : Workshop) (target : Scalar → Target) : List (Scalar × Snapshot) → Prop
  | [] => True
  | (k, y) :: ys => Marked w (target k) y ∧ MarkedEntries w target ys
end

/-- Structs can be made: as mere maps, or as instances of classes that can all be made and leave
alone the operation that links them. -/
def MakesStructs (w : Workshop) : Prop :=
  w.classes = false ∨ ∀ name edition d, w.registry.definition? name edition = some d →
    w.hasClass d = true ∧ (d.field? linkOperation).isSome = false

variable {w : Workshop} {t : Target}

theorem links_mapMark (hw : w.MakesStructs) (ht : t.Known w.registry) :
    (w.mapMark t).form.Links := by
  rw [mapMark]
  split
  · trivial
  · rename_i d hd
    rcases hw with hw | hw
    · simp only [hw, Bool.false_eq_true, if_false]
      trivial
    · obtain ⟨name, edition, hname⟩ := ht d hd
      cases w.classes with
      | false => trivial
      | true =>
        simp only [if_true, (hw name edition d hname).2]
        trivial

theorem links_listMark (w : Workshop) (t : Target) : (w.listMark t).form.Links := by
  rw [listMark]
  split <;> trivial

theorem mapMark_struct {d : Definition} (hd : t.struct = some d) :
    w.mapMark t = ⟨if w.classes then .instance d.name (d.field? linkOperation).isSome else .linked,
      some (.struct d.name)⟩ := by
  rw [mapMark, hd]

/-- Maps are linked, or instances of a class that takes the place of the operation that links
them. -/
theorem mapMark_form (w : Workshop) (t : Target) :
    (w.mapMark t).form.Links ∨ ∃ name, (w.mapMark t).form = .instance name true := by
  cases hd : t.struct with
  | none =>
    rw [mapMark, hd]
    exact .inl trivial
  | some d =>
    rw [mapMark_struct hd]
    cases w.classes with
    | false => exact .inl trivial
    | true =>
      cases hlink : (d.field? linkOperation).isSome with
      | false => exact .inl trivial
      | true => exact .inr ⟨d.name, rfl⟩

/-- An instance of a struct is a new map, if the struct can be made. -/
theorem ends_newStruct {d : Definition} {name : String} {edition : Nat}
    (hd : w.registry.definition? name edition = some d) (s : Store) :
    Ends (w.newStruct d) s
      (fun r s' => r = s.nodes.size ∧ s' = (s.add ⟨.map [],
        if w.classes then .instance d.name (d.field? linkOperation).isSome else .linked,
        some (.struct d.name), none, []⟩).2)
      fun _ _ => ¬ w.MakesStructs := by
  rw [newStruct]
  cases hclasses : w.classes with
  | false => exact ⟨rfl, rfl⟩
  | true =>
    cases hclass : w.hasClass d with
    | true => exact ⟨rfl, rfl⟩
    | false =>
      rintro (hw | hw)
      · rw [hclasses] at hw
        cases hw
      · rw [(hw name edition d hd).1] at hclass
        cases hclass

theorem run_newStruct (hw : w.MakesStructs) {d : Definition} {name : String} {edition : Nat}
    (hd : w.registry.definition? name edition = some d) (s : Store) :
    (w.newStruct d).run s = (.ok s.nodes.size,
      (s.add ⟨.map [], if w.classes then .instance d.name (d.field? linkOperation).isSome
        else .linked, some (.struct d.name), none, []⟩).2) := by
  obtain ⟨r, s', hrun, rfl, rfl⟩ := (ends_newStruct hd s).ok fun _ _ hno => hno hw
  exact hrun

/-- A map is rebuilt by filling a new map. -/
theorem ends_bindShown_map (ht : t.Known w.registry) (r : Ref) (mark : Mark)
    (xs : List (Scalar × Snapshot)) {s : Store} {P : Value → Store → Prop}
    (h : Ends (w.bindEntries (t.under w.registry) s.nodes.size xs)
      (s.add ⟨.map [], (w.mapMark t).form, (w.mapMark t).type, none, []⟩).2
      (fun _ s' => P (.node s.nodes.size) s') fun _ _ => ¬ w.MakesStructs) :
    Ends (w.bindShown t (.map r mark xs)) s P fun _ _ => ¬ w.MakesStructs := by
  rw [bindShown]
  cases hd : t.struct with
  | none =>
    rw [mapMark, hd] at h
    unfold Target.under at h
    rw [hd] at h
    exact h.bind fun _ _ hP => hP
  | some d =>
    obtain ⟨name, edition, hname⟩ := ht d hd
    rw [mapMark_struct hd] at h
    unfold Target.under at h
    rw [hd] at h
    refine (ends_newStruct hname s).bind ?_
    rintro _ _ ⟨rfl, rfl⟩
    exact h.bind fun _ _ hP => hP

/-- A list is rebuilt by filling a new list. -/
theorem run_bindShown_list (w : Workshop) (t : Target) (r : Ref) (mark : Mark) (xs : List Snapshot)
    (s : Store) :
    (w.bindShown t (.list r mark xs)).run s =
      (do
        w.bindItems (t.inside w.registry) s.nodes.size xs
        return .node s.nodes.size : StoreM Value).run
        (s.add ⟨.list [], (w.listMark t).form, (w.listMark t).type, none, []⟩).2 := by
  rw [bindShown, listMark, Target.inside]
  cases t.list with
  | none => rfl
  | some p => rfl

/-- A value was rebuilt: it looks like a snapshot of the same content, marked as the target asks, in
new containers, and what was there before is unchanged. -/
structure Rebuilt (w : Workshop) (t : Target) (j : Json) (s s' : Store) (v : Value)
    (y : Snapshot) : Prop where
  content : y.json? = some j
  marked : w.Marked t y
  shows : s'.Shows s.nodes.size v y
  unchanged : ∀ r, r < s.nodes.size → s'.get? r = s.get? r
  grown : s.nodes.size ≤ s'.nodes.size

/-- What comes out where a value is rebuilt: it looks like a rebuilt one, or it is a map that looks
like one but cannot be linked. Nothing holds it yet. -/
structure Remade (w : Workshop) (t : Target) (j : Json) (s s' : Store) (v : Value)
    (y : Snapshot) : Prop where
  content : y.json? = some j
  marked : w.Marked t y
  shows : s'.Shows s.nodes.size v y ∨ s'.ShowsSealed s.nodes.size v y
  unchanged : ∀ r, r < s.nodes.size → s'.get? r = s.get? r
  grown : s.nodes.size ≤ s'.nodes.size
  free : ∀ c, v = .node c → s'.parent? c = none

/-- Whatever shows as a tree is rebuilt for every target and in every store, unless some struct cannot
be made. -/
def Rebuilds (w : Workshop) (j : Json) : Prop :=
  ∀ x, x.json? = some j → ∀ t, t.Known w.registry → ∀ s,
    Ends (w.bindShown t x) s (fun v s' => ∃ y, w.Remade t j s s' v y) fun _ _ => ¬ w.MakesStructs

/-- A rebuilt value that is stored into an older container. -/
theorem Rebuilt.adopted {j : Json} {s s' : Store} {v : Value} {y : Snapshot}
    (h : w.Rebuilt t j s s' v y) (holder : Ref) :
    ∃ s'', (StoreM.adoptInto v (some holder)).run s' = (.ok v, s'') ∧ w.Rebuilt t j s s'' v y ∧
      s''.Held holder v := by
  obtain ⟨s'', hadopted⟩ := h.shows.adopted holder
  refine ⟨s'', hadopted.run, ⟨h.content, h.marked, hadopted.shows, fun r hr => ?_, ?_⟩,
    hadopted.held⟩
  · rw [hadopted.unchanged r hr, h.unchanged r hr]
  · rw [hadopted.size]
    exact h.grown

/-- Nothing changed between two stores but one container, and new ones came. -/
structure OnlyFilled (holder : Ref) (s s' : Store) : Prop where
  unchanged : ∀ r, r < s.nodes.size → r ≠ holder → s'.get? r = s.get? r
  grown : s.nodes.size ≤ s'.nodes.size

theorem OnlyFilled.trans {holder : Ref} {s s' s'' : Store} (h : OnlyFilled holder s s')
    (h' : OnlyFilled holder s' s'') : OnlyFilled holder s s'' where
  unchanged r hr hne := by
    rw [h'.unchanged r (Nat.lt_of_lt_of_le hr h.grown) hne, h.unchanged r hr hne]
  grown := Nat.le_trans h.grown h'.grown

theorem OnlyFilled.modify (holder : Ref) (s : Store) (f : Node → Node) :
    OnlyFilled holder s (s.modify holder f) where
  unchanged _ _ hne := Store.get?_modify_ne hne f
  grown := Nat.le_of_eq (Store.size_modify s holder f).symm

theorem Rebuilt.onlyFilled {j : Json} {s s' : Store} {v : Value} {y : Snapshot}
    (h : w.Rebuilt t j s s' v y) (holder : Ref) : OnlyFilled holder s s' :=
  ⟨fun r hr _ => h.unchanged r hr, h.grown⟩

/-- A rebuilt value looks the same while the older container that holds it is filled. -/
theorem Rebuilt.later {j : Json} {s s' s'' : Store} {v : Value} {y : Snapshot} {holder : Ref}
    (h : w.Rebuilt t j s s' v y) (hheld : s'.Held holder v) (hholder : holder < s.nodes.size)
    (hlater : OnlyFilled holder s' s'') :
    s''.Shows (holder + 1) v y ∧ s''.Held holder v := by
  have hsame : Store.SameFrom s' s'' s.nodes.size := fun r hr hlt =>
    hlater.unchanged r hlt (Nat.ne_of_gt (Nat.lt_of_lt_of_le hholder hr))
  exact ⟨(h.shows.of_same hsame y).weaken hholder, hheld.of_same hsame h.shows⟩

/-- A map that cannot be linked cannot be stored. -/
theorem Remade.sealed {j : Json} {s s' : Store} {v : Value} {y : Snapshot}
    (h : w.Remade t j s s' v y) (ht : t.Known w.registry)
    (hsealed : s'.ShowsSealed s.nodes.size v y) (holder : Option Ref) :
    (StoreM.adoptInto v holder).run s' = (.error .wrongKind, s') ∧ ¬ w.MakesStructs := by
  obtain ⟨r, mark, ys, name, es, rfl, rfl, -, hform, hr, -⟩ := hsealed
  refine ⟨StoreM.run_adoptInto_sealed hr hform holder, fun hw => ?_⟩
  have hlinks := links_mapMark hw ht
  rw [← h.marked.1, hform] at hlinks
  exact hlinks

theorem Remade.rebuilt {j : Json} {s s' : Store} {v : Value} {y : Snapshot}
    (h : w.Remade t j s s' v y) (hshows : s'.Shows s.nodes.size v y) : w.Rebuilt t j s s' v y :=
  ⟨h.content, h.marked, hshows, h.unchanged, h.grown⟩

/-- What was remade is stored into an older container, unless it cannot be linked. -/
theorem Remade.adopted {j : Json} {s s' : Store} {v : Value} {y : Snapshot}
    (h : w.Remade t j s s' v y) (ht : t.Known w.registry) (holder : Ref) :
    Ends (StoreM.adoptInto v (some holder)) s'
      (fun v' s'' => v' = v ∧ w.Rebuilt t j s s'' v y ∧ s''.Held holder v)
      fun _ _ => ¬ w.MakesStructs := by
  rcases h.shows with hshows | hsealed
  · obtain ⟨s'', hrun, hbuilt, hheld⟩ := (h.rebuilt hshows).adopted holder
    exact StoreM.ends_ok hrun ⟨rfl, hbuilt, hheld⟩
  · obtain ⟨hrun, hno⟩ := h.sealed ht hsealed (some holder)
    rw [Ends, hrun]
    exact hno

/-- Rebuilding items fills a list with values of their content. -/
theorem ends_bindItems (ht : t.Known w.registry) {l : Ref} {xs : List Snapshot} {js : List Json}
    (hxs : Snapshot.itemsJson? xs = some js) (hjs : ∀ j ∈ js, w.Rebuilds j) {s : Store} {n : Node}
    {vs : List Value} (hl : s.get? l = some n) (hbody : n.body = .list vs) :
    Ends (w.bindItems t l xs) s
      (fun _ s' => ∃ new ys, Snapshot.itemsJson? ys = some js ∧ w.MarkedItems t ys ∧
        s'.ShowsItems l new ys ∧ s'.get? l = some { n with body := .list (vs ++ new) } ∧
        OnlyFilled l s s')
      fun _ _ => ¬ w.MakesStructs := by
  induction xs generalizing js s n vs with
  | nil =>
    refine ⟨[], [], hxs, trivial, rfl, ?_, fun _ _ _ => rfl, Nat.le_refl _⟩
    rw [hl, List.append_nil, ← hbody]
  | cons x xs ih =>
    obtain ⟨j, js, rfl, hj, hjs'⟩ := Snapshot.itemsJson?_cons.mp hxs
    have hlt := Store.get?_lt hl
    rw [bindItems]
    refine (hjs j (by simp) x hj t ht s).bind ?_
    rintro v s₁ ⟨y, hmade⟩
    refine (hmade.adopted ht l).bind ?_
    rintro v s₂ ⟨rfl, hbuilt, hheld⟩
    have hl₂ : s₂.get? l = some n := by rw [hbuilt.unchanged l hlt, hl]
    refine StoreM.ends_bind (StoreM.run_items hl₂ hbody) ?_
    refine StoreM.ends_bind (StoreM.run_change l _ s₂) ?_
    refine (ih hjs' (fun j hj => hjs j (by simp [hj]))
      (Store.get?_modify_self hl₂ fun n => { n with body := .list (vs ++ [v]) }) rfl).imp ?_
        fun _ _ hno => hno
    rintro - s₃ ⟨new, ys, hys, hmarked, hshows, hl₃, hfilled⟩
    have hfilled₂ := (OnlyFilled.modify l s₂ _).trans hfilled
    obtain ⟨hv, hheld⟩ := hbuilt.later hheld hlt hfilled₂
    refine ⟨v :: new, y :: ys, ?_, ⟨hbuilt.marked, hmarked⟩, ⟨v, new, rfl, hv, hheld, hshows⟩, ?_,
      (hbuilt.onlyFilled l).trans hfilled₂⟩
    · exact Snapshot.itemsJson?_cons.mpr ⟨j, js, rfl, hbuilt.content, hys⟩
    · rw [hl₃, List.append_assoc, List.singleton_append]

/-- Writing under a new key of a linked map makes the value fit and appends an entry. -/
theorem run_set_new {m : Ref} {key : Scalar} {v : Value} {es : Assoc Scalar Value} {s s' : Store}
    {n n' : Node} (hm : s.get? m = some n) (hbody : n.body = .map es)
    (hform : (n.form == .plain) = false) (hnew : ∀ e ∈ es, (e.1 == key) = false)
    (hadopt : (StoreM.adoptInto v (some m)).run s = (.ok v, s')) (hm' : s'.get? m = some n')
    (hbody' : n'.body = .map es) :
    (MapNode.set m key v).run s =
      (.ok (), s'.modify m fun n => { n with body := .map (es ++ [(key, v)]) }) := by
  have hget : (MapNode.get? m key).run s = (.ok none, s) := by
    rw [MapNode.run_get? hm hbody, Assoc.get?_none.mpr hnew]
  have haccept : (StoreM.accept m v).run s = (.ok v, s') := by
    rw [StoreM.run_accept hm hform, hadopt]
  rw [MapNode.set, StoreM.run_bind hget]
  simp only []
  rw [StoreM.run_bind haccept, StoreM.writeEntry,
    StoreM.run_bind (StoreM.run_entries hm' hbody'), Assoc.insert_new hnew]
  rfl

/-- Writing under a new key fails as making the value fit does. -/
theorem ends_set_new {m : Ref} {key : Scalar} {v : Value} {es : Assoc Scalar Value} {s : Store}
    {n : Node} {P : Store → Prop} {E : StoreFault → Store → Prop} (hm : s.get? m = some n)
    (hbody : n.body = .map es) (hform : (n.form == .plain) = false)
    (hnew : ∀ e ∈ es, (e.1 == key) = false)
    (hadopt : Ends (StoreM.adoptInto v (some m)) s
      (fun v' s' => v' = v ∧ s'.get? m = some n ∧ P s') E) :
    Ends (MapNode.set m key v) s
      (fun _ s' => ∃ s₁, P s₁ ∧ s₁.get? m = some n ∧
        s' = s₁.modify m fun n => { n with body := .map (es ++ [(key, v)]) }) E := by
  rcases hrun : (StoreM.adoptInto v (some m)).run s with ⟨e | v', s₁⟩
  · have hget : (MapNode.get? m key).run s = (.ok none, s) := by
      rw [MapNode.run_get? hm hbody, Assoc.get?_none.mpr hnew]
    have haccept : (StoreM.accept m v).run s = (.error e, s₁) := by
      rw [StoreM.run_accept hm hform, hrun]
    rw [MapNode.set]
    refine StoreM.ends_bind hget ?_
    simp only []
    rw [Ends, StoreM.run_bind_error haccept]
    exact hadopt.of_error hrun
  · obtain ⟨rfl, hm₁, hP⟩ := hadopt.of_ok hrun
    exact StoreM.ends_ok (run_set_new hm hbody hform hnew hrun hm₁ hbody) ⟨s₁, hP, hm₁, rfl⟩

/-- Rebuilding entries fills a map with entries of their content, as long as no key comes up
again. -/
theorem ends_bindEntries {target : Scalar → Target} (ht : ∀ k, (target k).Known w.registry) {m : Ref}
    {xs : List (Scalar × Snapshot)} {js : List (Scalar × Json)}
    (hxs : Snapshot.entriesJson? xs = some js) (hjs : ∀ e ∈ js, w.Rebuilds e.2) {s : Store}
    {n : Node} {es : Assoc Scalar Value} (hm : s.get? m = some n) (hbody : n.body = .map es)
    (hform : (n.form == .plain) = false) (hnew : ∀ e ∈ es, ∀ e' ∈ js, (e.1 == e'.1) = false)
    (honce : js.Pairwise fun e e' => (e.1 == e'.1) = false) :
    Ends (w.bindEntries target m xs) s
      (fun _ s' => ∃ new ys, Snapshot.entriesJson? ys = some js ∧ w.MarkedEntries target ys ∧
        s'.ShowsEntries m new ys ∧ s'.get? m = some { n with body := .map (es ++ new) } ∧
        OnlyFilled m s s')
      fun _ _ => ¬ w.MakesStructs := by
  induction xs generalizing js s n es with
  | nil =>
    refine ⟨[], [], hxs, trivial, rfl, ?_, fun _ _ _ => rfl, Nat.le_refl _⟩
    rw [hm, List.append_nil, ← hbody]
  | cons x xs ih =>
    obtain ⟨k, x⟩ := x
    obtain ⟨j, js, rfl, hj, hjs'⟩ := Snapshot.entriesJson?_cons.mp hxs
    obtain ⟨hfirst, hrest⟩ := List.pairwise_cons.mp honce
    have hlt := Store.get?_lt hm
    rw [bindEntries]
    refine (hjs (k, j) (by simp) x hj (target k) (ht k) s).bind ?_
    rintro v s₁ ⟨y, hmade⟩
    have hm₁ : s₁.get? m = some n := by rw [hmade.unchanged m hlt, hm]
    have hadopt : Ends (StoreM.adoptInto v (some m)) s₁ (fun v' s₂ => v' = v ∧
        s₂.get? m = some n ∧ w.Rebuilt (target k) j s s₂ v y ∧ s₂.Held m v)
        fun _ _ => ¬ w.MakesStructs := by
      refine (hmade.adopted (ht k) m).imp ?_ fun _ _ hno => hno
      rintro _ s₂ ⟨rfl, hbuilt, hheld⟩
      exact ⟨rfl, by rw [hbuilt.unchanged m hlt, hm], hbuilt, hheld⟩
    refine (ends_set_new hm₁ hbody hform (fun e he => hnew e he (k, j) (by simp)) hadopt).bind ?_
    rintro - _ ⟨s₂, ⟨hbuilt, hheld⟩, hm₂, rfl⟩
    refine (ih hjs' (fun e he => hjs e (by simp [he]))
      (Store.get?_modify_self hm₂ fun n => { n with body := .map (es ++ [(k, v)]) }) rfl hform
      (fun e he e' he' => by
        rcases List.mem_append.mp he with he | he
        · exact hnew e he e' (by simp [he'])
        · obtain rfl := List.mem_singleton.mp he
          exact hfirst e' he') hrest).imp ?_ fun _ _ hno => hno
    rintro - s₃ ⟨new, ys, hys, hmarked, hshows, hm₃, hfilled⟩
    have hfilled₂ := (OnlyFilled.modify m s₂ _).trans hfilled
    obtain ⟨hv, hheld⟩ := hbuilt.later hheld hlt hfilled₂
    refine ⟨(k, v) :: new, (k, y) :: ys, ?_, ⟨hbuilt.marked, hmarked⟩,
      ⟨v, new, rfl, hv, hheld, hshows⟩, ?_, (hbuilt.onlyFilled m).trans hfilled₂⟩
    · exact Snapshot.entriesJson?_cons.mpr ⟨j, js, rfl, hbuilt.content, hys⟩
    · rw [hm₃, List.append_assoc, List.singleton_append]

/-- A container that was added and then only filled is all that is new. -/
theorem OnlyFilled.since_add {s s' : Store} {n : Node}
    (h : OnlyFilled s.nodes.size (s.add n).2 s') :
    (∀ r, r < s.nodes.size → s'.get? r = s.get? r) ∧ s.nodes.size ≤ s'.nodes.size := by
  have hsize := Store.size_add s n
  constructor
  · intro r hr
    rw [h.unchanged r (by rw [hsize]; exact Nat.lt_succ_of_lt hr) (Nat.ne_of_lt hr),
      Store.get?_add_lt hr]
  · exact Nat.le_trans (by rw [hsize]; exact Nat.le_succ _) h.grown

theorem rebuilds_list {js : List Json} (hjs : ∀ j ∈ js, w.Rebuilds j) : w.Rebuilds (.list js) := by
  intro x hx t ht s
  obtain ⟨r, mark, xs, rfl, hxs⟩ := Snapshot.json?_list hx
  have hadded : (s.add ⟨.list [], (w.listMark t).form, (w.listMark t).type, none, []⟩).2.get?
      s.nodes.size = some ⟨.list [], (w.listMark t).form, (w.listMark t).type, none, []⟩ := by
    rw [Store.get?_add, if_pos rfl]
  rw [Ends, run_bindShown_list]
  refine (ends_bindItems (t.known_inside w.registry) hxs hjs hadded rfl).bind ?_
  rintro - s' ⟨new, ys, hys, hmarked, hshows, hl, hfilled⟩
  obtain ⟨hunchanged, hgrown⟩ := hfilled.since_add
  refine ⟨.list s.nodes.size (w.listMark t) ys, ?_, ⟨rfl, hmarked⟩,
    .inl ⟨rfl, Nat.le_refl _, links_listMark w t, new, none, hl, hshows⟩, hunchanged, hgrown, ?_⟩
  · rw [Snapshot.json?, hys]
    rfl
  · rintro c ⟨⟩
    rw [Store.parent?, hl]
    rfl

theorem rebuilds_map {js : List (Scalar × Json)} (hjs : ∀ e ∈ js, w.Rebuilds e.2)
    (honce : js.Pairwise fun e e' => (e.1 == e'.1) = false) : w.Rebuilds (.map js) := by
  intro x hx t ht s
  obtain ⟨r, mark, xs, rfl, hxs⟩ := Snapshot.json?_map hx
  have hadded : (s.add ⟨.map [], (w.mapMark t).form, (w.mapMark t).type, none, []⟩).2.get?
      s.nodes.size = some ⟨.map [], (w.mapMark t).form, (w.mapMark t).type, none, []⟩ := by
    rw [Store.get?_add, if_pos rfl]
  have hform : ((w.mapMark t).form == .plain) = false := by
    rcases w.mapMark_form t with hlinks | ⟨name, hsealed⟩
    · exact hlinks.ne_plain
    · rw [hsealed]
      rfl
  refine ends_bindShown_map ht r mark xs ((ends_bindEntries (t.known_under w.registry) hxs hjs hadded
    rfl hform (by simp) honce).imp ?_ fun _ _ hno => hno)
  rintro - s' ⟨new, ys, hys, hmarked, hshows, hm, hfilled⟩
  obtain ⟨hunchanged, hgrown⟩ := hfilled.since_add
  refine ⟨.map s.nodes.size (w.mapMark t) ys, ?_, ⟨rfl, hmarked⟩, ?_, hunchanged, hgrown, ?_⟩
  · rw [Snapshot.json?, hys]
    rfl
  · rcases w.mapMark_form t with hlinks | ⟨name, hsealed⟩
    · exact .inl ⟨rfl, Nat.le_refl _, hlinks, new, none, hm, hshows⟩
    · exact .inr ⟨_, _, ys, name, new, rfl, rfl, Nat.le_refl _, hsealed, hm, hshows⟩
  · rintro c ⟨⟩
    rw [Store.parent?, hm]
    rfl

theorem rebuilds_scalar (a : Scalar) : w.Rebuilds (.scalar a) := by
  intro x hx t ht s
  cases x with
  | scalar b =>
    exact ⟨.scalar b, hx, trivial, .inl rfl, fun _ _ => rfl, Nat.le_refl _, nofun⟩
  | nan mark => exact ⟨.nan mark, hx, trivial, .inl rfl, fun _ _ => rfl, Nat.le_refl _, nofun⟩
  | list r mark xs => simp [Snapshot.json?] at hx
  | map r mark xs => simp [Snapshot.json?] at hx
  | _ => simp [Snapshot.json?] at hx

/-- Every document is rebuilt, by induction on the document. -/
theorem rebuilds_document {q : Scalar → Prop} {j : Json} (hj : Json.IsDocument q j) :
    w.Rebuilds j := by
  induction hj with
  | scalar _ => exact rebuilds_scalar _
  | list _ ih => exact rebuilds_list ih
  | map names once _ ih => exact rebuilds_map ih (Json.pairwise_keys names once)

/-- Where all structs can be made, documents are rebuilt and can be linked then. -/
theorem rebuilds (hw : w.MakesStructs) {q : Scalar → Prop} {j : Json} (hj : Json.IsDocument q j)
    (x : Snapshot) (hx : x.json? = some j) (t : Target) (ht : t.Known w.registry) (s : Store) :
    ∃ v s' y, (w.bindShown t x).run s = (.ok v, s') ∧ w.Rebuilt t j s s' v y ∧
      ∀ c, v = .node c → s'.parent? c = none := by
  obtain ⟨v, s', hrun, y, hmade⟩ := (rebuilds_document hj x hx t ht s).ok fun _ _ hno => hno hw
  rcases hmade.shows with hshows | hsealed
  · exact ⟨v, s', y, hrun, hmade.rebuilt hshows, hmade.free⟩
  · exact ((hmade.sealed ht hsealed none).2 hw).elim

/-- Binding a document rebuilds it for its type. -/
theorem bind_rebuilt (hw : w.MakesStructs) (t : Option TypeRef) {s : Store} {v : Value} {j : Json}
    (hv : (s.snapshot v).json? = some j) {q : Scalar → Prop} (hj : Json.IsDocument q j) :
    ∃ v' s', (w.bind v t).run s = (.ok v', s') ∧
      w.Rebuilt (.ofRef w.registry t) j s s' v' (s'.snapshot v') ∧
      ∀ c, v' = .node c → s'.parent? c = none := by
  obtain ⟨v', s', y, hrun, hbuilt, hfree⟩ := rebuilds hw hj _ hv _ (Target.known_ofRef w.registry t) s
  refine ⟨v', s', ?_, ?_, hfree⟩
  · rw [bind, StoreM.run_bind (StoreM.run_get s), hrun]
  · rwa [hbuilt.shows.snapshot_eq]

end Workshop
end Exemplar
