import Exemplar.Proofs.ListEffects

/-! What an operation on a linked map or list changes, in any store. Besides the content of the container
only links differ: those of the nodes that it stores, and those of the nodes that it takes out. Popping
under an absent key also takes the link of the default. -/
namespace Exemplar
open StoreM Value

/-- A node is stored by an operation on a map, as a value or inside of one. -/
def MapOperation.TakesIn (s : Store) (m c : Ref) (op : MapOperation) : Prop :=
  ∃ v ∈ op.stored s m, s.Offers c v

/-- A node is taken out of a map by an operation, and is released. -/
def MapOperation.Detaches (s : Store) (m c : Ref) : MapOperation → Prop
  | .set key _ | .put key _ | .delete key | .pop key _ | .remove key =>
    s.held? (.node m) key = some (.node c)
  | .update source => ∃ es, (contentOf source).run s = (.ok es, s) ∧
    ∃ e ∈ es, s.held? (.node m) e.1 = some (.node c)
  | _ => False

/-- A node is the default of an operation on a map, which is given instead of an absent entry and is
released like one. -/
def MapOperation.Spurns (s : Store) (m c : Ref) : MapOperation → Prop
  | .pop key default => s.held? (.node m) key = none ∧ default = some (.node c)
  | _ => False

/-- A node may have another link after an operation on a map. -/
def MapOperation.Touches (s : Store) (m : Ref) (op : MapOperation) (c : Ref) : Prop :=
  op.TakesIn s m c ∨ op.Detaches s m c ∨ op.Spurns s m c

/-- Whether an operation writes an entry and does not find it when it reads it. -/
def MapOperation.misses : MapOperation → Bool
  | .setDefault key _ | .autocreate key _ => !(key == key)
  | _ => false

/-- A node is taken out of a list by an operation, and is released. -/
def ListOperation.Detaches (s : Store) (l c : Ref) : ListOperation → Prop
  | .set index _ | .put index _ | .delete index | .pop index =>
    s.held? (.node l) (.int index) = some (.node c)
  | .setSlice slice _ | .putSlice slice _ | .deleteSlice slice => .node c ∈ s.selected l slice
  | .remove v => ∃ i : Nat, (ListNode.indexOf l v).run s = (.ok i, s) ∧
    s.held? (.node l) (.int i) = some (.node c)
  | _ => False

/-- A node may have another link after an operation on a list. -/
def ListOperation.Touches (s : Store) (l : Ref) (op : ListOperation) (c : Ref) : Prop :=
  op.TakesIn s l c ∨ op.Detaches s l c

/-- Whether an operation releases or links anything before it knows that it succeeds. -/
def ListOperation.linksFirst : ListOperation → Bool
  | .setSlice _ _ | .putSlice _ _ | .insert _ _ => true
  | _ => false

def ListOperation.releasedFirst (s : Store) (l : Ref) : ListOperation → List Value
  | .setSlice slice _ | .putSlice slice _ => s.selected l slice
  | _ => []

namespace Store

variable {s : Store} {m l : Ref} {bindItem : ListNode.BindItem}

/-- A failed operation on a map: nothing was changed, or it did not end, or it did not find what it
had written. -/
def MissedBy (s : Store) (m : Ref) (op : MapOperation) (f : StoreFault) (s' : Store) : Prop :=
  s' = s ∨ Framed m (op.Touches s m) s s' ∧ (f = .endless ∨ op.misses = true)

/-- A failed operation on a list: nothing was changed, or it did not end, or it stopped sorting, or it
was one that links first. -/
def StoppedBy (s : Store) (l : Ref) (op : ListOperation) (f : StoreFault) (s' : Store) : Prop :=
  s' = s ∨ Framed l (op.Touches s l) s s' ∧ (f = .endless ∨ op = .sort) ∨
    op.linksFirst = true ∧ s.HalfDone (op.releasedFirst s l) (op.stored s) s'

theorem ends_reads {α : Type} {a : StoreM α} (h : Reads a) (m : Ref) (touched : Ref → Prop)
    {E : StoreFault → Store → Prop} (hE : ∀ f, E f s) :
    Ends a s (fun _ s' => Framed m touched s s') E :=
  h.ends (fun _ _ => Framed.refl m touched s) hE

/-- An operation on a linked map changes only the content of the map, and the links of the nodes that
it stores or takes out, or is given as the default of an absent entry. -/
theorem Ready.ends_map_run (h : s.Ready m true) {op : MapOperation}
    (hstored : ∀ v ∈ op.stored s m, s.Knows v)
    (hpopped : ∀ key d, op = .pop key (some d) → s.Knows d) :
    Ends (op.run m) s (fun _ s' => Framed m (op.Touches s m) s s') (s.MissedBy m op) := by
  have hreads {α : Type} {a : StoreM α} (ha : Reads a) :
      Ends a s (fun _ s' => Framed m (op.Touches s m) s s') (s.MissedBy m op) :=
    ends_reads ha m _ fun _ => Or.inl rfl
  have hset {key : Scalar} {w : Value} (hw : w ∈ op.stored s m)
      (hheld : ∀ c, s.held? (.node m) key = some (.node c) → op.Detaches s m c) :
      Ends (MapNode.set m key w) s (fun _ s' => Framed m (op.Touches s m) s s')
        (s.MissedBy m op) := by
    have htouches : ∀ c, c < s.nodes.size → s.Exchanged m key w c → op.Touches s m c := by
      rintro c - (hc | hc)
      · exact Or.inr (Or.inl (hheld c hc))
      · exact Or.inl ⟨w, hw, hc⟩
    exact (MapNode.ends_set h (hstored w hw)).imp (fun _ _ h' => h'.imp htouches)
      fun _ _ he => Or.inr ⟨he.2.imp htouches, Or.inl he.1⟩
  have hdrop {α : Type} {a : StoreM α} {touched : Ref → Prop}
      (ha : Ends a s (fun _ s' => Framed m touched s s') fun _ s' => s' = s)
      (htouches : ∀ c, touched c → op.Touches s m c) :
      Ends a s (fun _ s' => Framed m (op.Touches s m) s s') (s.MissedBy m op) :=
    ha.imp (fun _ _ h' => h'.imp fun c _ => htouches c) fun _ _ he => Or.inl he
  cases op with
  | read key => exact hreads (MapNode.reads_get! m key)
  | readOr key w => exact h.ends_named (hreads (MapNode.reads_getD m key w))
  | contains w => exact hreads (MapNode.reads_hasKey m w).truth
  | size => exact hreads (MapNode.reads_size m).number
  | set key w => exact (hset (List.mem_singleton.mpr rfl) fun _ hc => hc).silent
  | put key w =>
    refine h.ends_named (Ends.silent (MapNode.ends_requireLinked h ?_))
    exact hset (List.mem_singleton.mpr rfl) fun _ hc => hc
  | delete key => exact (hdrop (MapNode.ends_delete h) fun c hc => Or.inr (Or.inl hc)).silent
  | pop key default =>
    refine h.ends_named (hdrop (MapNode.ends_pop h ?_) fun c hc => Or.inr hc)
    rintro d rfl
    exact hpopped key d rfl
  | remove key =>
    refine h.ends_named (MapNode.ends_requireLinked h (h.ends_named ?_))
    refine hdrop (MapNode.ends_pop h ?_) ?_
    · rintro d ⟨⟩
      trivial
    · rintro c (hheld | ⟨-, hnull⟩)
      · exact Or.inr (Or.inl hheld)
      · cases hnull
  | update source =>
    refine h.ends_named (Ends.silent ?_)
    refine (reads_contentOf source).ends_bind (fun es hcontent => ?_) fun _ => Or.inl rfl
    have hes : MapOperation.stored s m (.update source) = es.map Prod.snd := by
      rw [MapOperation.stored, hcontent]
    rw [hes] at hstored
    have htouches : ∀ c, c < s.nodes.size → (∃ e ∈ es, s.Exchanged m e.1 e.2 c) →
        MapOperation.Touches s m (.update source) c := by
      rintro c - ⟨e, he, hheld | hshown⟩
      · exact Or.inr (Or.inl ⟨es, hcontent, e, he, hheld⟩)
      · exact Or.inl ⟨e.2, hes ▸ List.mem_map_of_mem he, hshown⟩
    exact (MapNode.ends_setAll h hstored).imp (fun _ _ h' => h'.imp htouches)
      fun _ _ he => Or.inr ⟨he.2.imp htouches, Or.inl he.1⟩
  | setDefault key w =>
    have htouches : ∀ c, c < s.nodes.size → s.held? (.node m) key = none ∧ s.Offers c w →
        MapOperation.Touches s m (.setDefault key w) c := by
      rintro c - ⟨habsent, hshown⟩
      exact Or.inl ⟨w, by simp [MapOperation.stored, habsent], hshown⟩
    refine h.ends_named ((MapNode.ends_setDefault h fun habsent => ?_).imp ?_ ?_)
    · exact hstored w (by simp [MapOperation.stored, habsent])
    · exact fun _ _ h' => h'.imp htouches
    · refine fun _ _ he => Or.inr ⟨he.1.imp htouches, he.2.imp_right fun hkey => ?_⟩
      rw [MapOperation.misses, hkey]
      rfl
  | autocreate key seed =>
    have htouches : ∀ c, c < s.nodes.size →
        (s.held? (.node m) key = none ∧ ∃ d, seed = .value d ∧ s.Offers c d) →
          MapOperation.Touches s m (.autocreate key seed) c := by
      rintro c - ⟨habsent, d, rfl, hshown⟩
      exact Or.inl ⟨d, by simp [MapOperation.stored, habsent], hshown⟩
    refine h.ends_named ((MapNode.ends_autocreate h ?_).imp ?_ ?_)
    · rintro habsent d rfl
      exact hstored d (by simp [MapOperation.stored, habsent])
    · exact fun _ _ h' => h'.imp htouches
    · refine fun _ _ he => Or.inr ⟨he.1.imp htouches, he.2.imp_right fun hkey => ?_⟩
      rw [MapOperation.misses, hkey]
      rfl
  | popLast =>
    refine h.ends_named ((hdrop (MapNode.ends_popLast h) fun c hc => hc.elim).bind ?_)
    exact fun e s₁ hs₁ => ends_pure hs₁
  | clear => exact h.ends_named (Ends.silent (ends_change ((Framed.refl m _ s).body _)))
  | copy =>
    obtain ⟨n, es, hn, -, hbody, -⟩ := h.entries
    refine h.ends_named (Ends.bind (ends_bind (run_entries hn hbody) ?_) fun _ _ hs₁ => ends_pure hs₁)
    exact (spared_add _ s _).framed m

/-- An operation on a linked list changes only the content of the list, and the links of the nodes
that it stores or takes out. -/
theorem Ready.ends_list_run (h : s.Ready l false) {op : ListOperation}
    (hstored : ∀ v ∈ op.stored s, s.Knows v) :
    Ends (op.run bindItem l) s (fun _ s' => Framed l (op.Touches s l) s s') (s.StoppedBy l op) := by
  have hreads {α : Type} {a : StoreM α} (ha : Reads a) :
      Ends a s (fun _ s' => Framed l (op.Touches s l) s s') (s.StoppedBy l op) :=
    ends_reads ha l _ fun _ => Or.inl rfl
  have hdrop {α : Type} {a : StoreM α} {touched : Ref → Prop}
      (ha : Ends a s (fun _ s' => Framed l touched s s') fun _ s' => s' = s)
      (htouches : ∀ c, touched c → op.Touches s l c) :
      Ends a s (fun _ s' => Framed l (op.Touches s l) s s') (s.StoppedBy l op) :=
    ha.imp (fun _ _ h' => h'.imp fun c _ => htouches c) fun _ _ he => Or.inl he
  have hmay {α : Type} {a : StoreM α} {touched : Ref → Prop}
      (ha : Ends a s (fun _ s' => Framed l touched s s')
        fun f s' => s' = s ∨ Broken l touched s f s')
      (htouches : ∀ c, touched c → op.Touches s l c) :
      Ends a s (fun _ s' => Framed l (op.Touches s l) s s') (s.StoppedBy l op) :=
    ha.imp (fun _ _ h' => h'.imp fun c _ => htouches c) fun _ _ he => he.imp_right fun he =>
      Or.inl ⟨he.2.imp fun c _ => htouches c, Or.inl he.1⟩
  have hset {index : Int} {w : Value} (hw : s.Knows w)
      (hshown : ∀ c, s.Offers c w → op.TakesIn s l c)
      (hheld : ∀ c, s.held? (.node l) (.int index) = some (.node c) → op.Detaches s l c) :
      Ends (ListNode.set bindItem l index w) s (fun _ s' => Framed l (op.Touches s l) s s')
        (s.StoppedBy l op) :=
    hmay (ListNode.ends_set h hw) fun c hc => hc.symm.imp (hshown c) (hheld c)
  have hextend {source : Value} (hsource : ∀ v ∈ ListOperation.stored s (.extend source), s.Knows v)
      (hstores : ∀ c, ListOperation.TakesIn s l c (.extend source) → op.TakesIn s l c) :
      Ends (ListNode.extend bindItem l source) s (fun _ s' => Framed l (op.Touches s l) s s')
        (s.StoppedBy l op) :=
    hmay (ListNode.ends_extend h hsource) fun c hc => Or.inl (hstores c hc)
  obtain ⟨n, xs, hn, -, hbody, -⟩ := h.items
  have hadd (vs : List Value) : Ends (StoreM.add { body := .list vs, form := .plain }) s
      (fun _ s' => Framed l (op.Touches s l) s s') (s.StoppedBy l op) :=
    (spared_add _ s _).framed l
  have hslice (slice : Slice) :
      Ends (do return .node (← ListNode.getSlice l slice) : StoreM Value) s
        (fun _ s' => Framed l (op.Touches s l) s s') (s.StoppedBy l op) := by
    refine Ends.bind ((ListNode.reads_span l slice).ends_bind (fun t _ => ?_) fun _ => Or.inl rfl)
      fun _ _ hs' => ends_pure hs'
    exact ends_bind (run_items hn hbody) (hadd _)
  cases op with
  | read index => exact hreads (ListNode.reads_get! l index)
  | readOr index w =>
    exact h.ends_named (ListNode.ends_requireLinked h (hreads (ListNode.reads_getD l index w)))
  | indexOf w start stop =>
    exact h.ends_named (hreads (ListNode.reads_indexWithin l w start stop).number)
  | count w => exact h.ends_named (hreads (ListNode.reads_count l w).number)
  | contains w => exact hreads (ListNode.reads_contains l w).truth
  | size => exact hreads (ListNode.reads_size l).number
  | readSlice slice => exact hslice slice
  | getSlice slice => exact h.ends_named (ListNode.ends_requireLinked h (hslice slice))
  | set index w =>
    have hw : w ∈ ListOperation.stored s (.set index w) := List.mem_singleton.mpr rfl
    exact (hset (hstored w hw) (fun c hc => ⟨w, hw, hc⟩) fun c hc => hc).silent
  | put index w =>
    have hw : w ∈ ListOperation.stored s (.put index w) := List.mem_singleton.mpr rfl
    refine h.ends_named (Ends.silent (ListNode.ends_requireLinked h ?_))
    exact hset (hstored w hw) (fun c hc => ⟨w, hw, hc⟩) fun c hc => hc
  | setSlice slice source =>
    refine Ends.silent ?_
    refine (h.ends_setSlice (ListOperation.elements_stored s source) hstored).imp ?_ ?_
    · exact fun _ _ h' => h'.imp fun c _ hc => hc.symm
    · exact fun _ _ he => he.imp_right fun hhalf => Or.inr ⟨rfl, hhalf⟩
  | putSlice slice source =>
    refine h.ends_named (Ends.silent (ListNode.ends_requireLinked h ?_))
    refine (h.ends_setSlice (ListOperation.elements_stored s source) hstored).imp ?_ ?_
    · exact fun _ _ h' => h'.imp fun c _ hc => hc.symm
    · exact fun _ _ he => he.imp_right fun hhalf => Or.inr ⟨rfl, hhalf⟩
  | delete index => exact (hdrop (ListNode.ends_delete h) fun c hc => Or.inr hc).silent
  | deleteSlice slice => exact (hdrop (ListNode.ends_deleteSlice h) fun c hc => Or.inr hc).silent
  | pop index => exact h.ends_named (hdrop (ListNode.ends_pop h) fun c hc => Or.inr hc)
  | append w =>
    have hw : w ∈ ListOperation.stored s (.append w) := List.mem_singleton.mpr rfl
    refine h.ends_named (Ends.silent (hmay ?_ fun c hc => Or.inl ⟨w, hw, hc⟩))
    exact (ListNode.ends_append h (hstored w hw)).imp (fun _ _ h' => h'.toFramed)
      fun _ _ he => Or.inr he
  | insert index w =>
    have hw : w ∈ ListOperation.stored s (.insert index w) := List.mem_singleton.mpr rfl
    refine h.ends_named (Ends.silent ((h.ends_insert (hstored w hw)).imp ?_ ?_))
    · exact fun _ _ h' => h'.imp fun c _ hc => Or.inl ⟨w, hw, hc⟩
    · exact fun _ _ hhalf => Or.inr (Or.inr ⟨rfl, hhalf⟩)
  | extend source => exact h.ends_named (hextend hstored fun c hc => hc).silent
  | grow source =>
    refine (h.ends_named (hextend hstored fun c hc => ?_)).silent
    exact (ListOperation.takesIn_grow s l c source).mpr hc
  | remove w => exact h.ends_named (hdrop (ListNode.ends_remove h) fun c hc => Or.inr hc).silent
  | reverse =>
    refine h.ends_named (Ends.silent (ends_bind (run_items hn hbody) (ends_change ?_)))
    exact (Framed.refl l _ s).body _
  | sort =>
    refine h.ends_named (Ends.silent ((ListNode.ends_sort h).imp ?_ ?_))
    · exact fun _ _ h' => h'.imp fun _ _ hc => hc.elim
    · exact fun _ _ he => Or.inr (Or.inl ⟨he.imp fun _ _ hc => hc.elim, Or.inr rfl⟩)
  | clear => exact h.ends_named (Ends.silent (ends_change ((Framed.refl l _ s).body _)))
  | copy =>
    refine h.ends_named (Ends.bind ?_ fun _ _ hs' => ends_pure hs')
    exact ends_bind (run_items hn hbody) (hadd xs)

/-- Nothing is removed under an absent key. -/
theorem Ready.run_remove_absent (h : s.Ready m true) {key : Scalar}
    (habsent : s.held? (.node m) key = none) :
    ((MapOperation.remove key).run m).run s = (.ok .null, s) := by
  obtain ⟨n, es, hn, -, hbody, -⟩ := h.entries
  rw [held?_map hn hbody] at habsent
  have hlinked : (MapNode.requireLinked m).run s = (.ok (), s) := by
    rw [MapNode.requireLinked, run_bind h.run_isPlain]
    rfl
  have hrelease : (releaseFrom m .null).run s = (.ok (), s) := by
    rw [releaseFrom, run_bind h.run_isPlain]
    rfl
  change (named m "remove" (MapNode.remove m key)).run s = _
  rw [h.run_named, MapNode.remove, run_bind hlinked, h.run_named, MapNode.pop,
    run_bind (MapNode.run_get? hn hbody key), habsent, run_bind hrelease]
  rfl

/-- Under an absent key the default is read, and is left as it is. -/
theorem Ready.run_readOr_absent (h : s.Ready m true) {key : Scalar}
    (habsent : s.held? (.node m) key = none) (v : Value) :
    ((MapOperation.readOr key v).run m).run s = (.ok v, s) := by
  obtain ⟨n, es, hn, -, hbody, -⟩ := h.entries
  rw [held?_map hn hbody] at habsent
  change (named m "get" (MapNode.getD m key v)).run s = _
  rw [h.run_named, MapNode.getD, run_bind (MapNode.run_get? hn hbody key), habsent]
  rfl

/-- An operation on a map or a list of any store changes the content of no other container. It changes
only the links of the nodes that it stores, as values or inside of them, or takes out, or is given as the
default when it pops under an absent key. One that fails changes nothing, unless it has no end, does not
find the entry that it wrote, stops sorting, or is an assignment to a slice or an insertion. Under an
absent key, removing and reading change nothing, a default is only touched as it is stored, and popping
takes the link of the default. -/
theorem framed_by_run (s : Store) (bindItem : ListNode.BindItem) :
    (∀ m op, s.Ready m true → (∀ v ∈ op.stored s m, s.Knows v) →
      (∀ key d, op = .pop key (some d) → s.Knows d) →
      Ends (op.run m) s (fun _ s' => Framed m (op.Touches s m) s s') (s.MissedBy m op)) ∧
    (∀ l op, s.Ready l false → (∀ v ∈ op.stored s, s.Knows v) →
      Ends (op.run bindItem l) s (fun _ s' => Framed l (op.Touches s l) s s') (s.StoppedBy l op)) ∧
    ∀ m key, s.Ready m true → s.held? (.node m) key = none →
      ((MapOperation.remove key).run m).run s = (.ok .null, s) ∧
      (∀ v, ((MapOperation.readOr key v).run m).run s = (.ok v, s)) ∧
      (∀ v, s.Knows v →
        Framed m (s.Offers · v) s (((MapOperation.setDefault key v).run m).run s).2) ∧
      ∀ v, s.Knows v → ∃ s', ((MapOperation.pop key (some v)).run m).run s = (.ok v, s') ∧
        Spared (fun c => v = .node c) s s' ∧
        ∀ c, v = .node c → s.IsLinked c → s'.parent? c = none := by
  refine ⟨fun m op h hstored hpopped => h.ends_map_run hstored hpopped,
    fun l op h hstored => h.ends_list_run hstored, fun m key h habsent =>
    ⟨h.run_remove_absent habsent, h.run_readOr_absent habsent, fun v hv => ?_, fun v hv => ?_⟩⟩
  · have hshown : ∀ c, c < s.nodes.size → s.held? (.node m) key = none ∧ s.Offers c v →
        s.Offers c v := fun _ _ hc => hc.2
    exact (h.ends_named ((MapNode.ends_setDefault h fun _ => hv).imp
      (fun _ _ h' => h'.imp hshown) fun _ _ he => he.1.imp hshown)).store
  · obtain ⟨s', hrun, hreleased⟩ := MapNode.run_pop_absent h habsent hv
    refine ⟨s', (h.run_named "pop" _).trans hrun, hreleased.spared.imp fun c _ hc => ?_, ?_⟩
    · exact (List.mem_singleton.mp hc).symm
    · rintro c rfl hc
      exact hreleased.parents c hc (List.mem_singleton.mpr rfl)

/-- A map holds another one, which is the default when a third map is popped, and is appended to a
list. Popping takes its link, although it stays where it is, and appending links it to the list. No
other map is changed by either. -/
theorem framed_by_run_default :
    let s : Store := { nodes := #[
      { body := .map [], form := .linked },
      { body := .map [(.str "x", .node 2)], form := .linked },
      { body := .map [], form := .linked, parent := some 1 },
      { body := .list [], form := .linked }] }
    let pop : MapOperation := .pop (.str "absent") (some (.node 2))
    let append : ListOperation := .append (.node 2)
    (∃ s', (pop.run 0).run s = (.ok (.node 2), s') ∧ Framed 0 (pop.Touches s 0) s s' ∧
      s.parent? 2 = some 1 ∧ s'.parent? 2 = none ∧ s'.Holds 1 (.node 2)) ∧
    ∃ s', (append.run (fun _ v => pure v) 3).run s = (.ok .null, s') ∧
      Framed 3 (append.Touches s 3) s s' ∧ s'.parent? 2 = some 3 := by
  intro s pop append
  have hintact : s.Intact := by
    refine ⟨fun r n hn => ?_, fun r n hn v hv => ?_⟩
    · match r, hn with
      | 0, hn | 1, hn | 2, hn | 3, hn => cases hn; exact Or.inr ⟨rfl, rfl⟩
    · match r, hn with
      | 0, hn | 2, hn | 3, hn => cases hn; cases hv
      | 1, hn =>
        cases hn
        obtain rfl := List.mem_singleton.mp hv
        exact show 2 < 4 by decide
  have hknown : s.Knows (.node 2) := show 2 < 4 by decide
  have hmap : s.Ready 0 true := ⟨hintact, _, rfl, rfl, rfl⟩
  have hlist : s.Ready 3 false := ⟨hintact, _, rfl, rfl, rfl⟩
  obtain ⟨hmaps, hlists, habsent⟩ := framed_by_run s fun _ v => pure v
  refine ⟨?_, ?_⟩
  · obtain ⟨s', hrun, -, hlost⟩ := (habsent 0 (.str "absent") hmap rfl).2.2.2 (.node 2) hknown
    have hpopped : ∀ key d, pop = .pop key (some d) → s.Knows d := by
      intro key d hd
      obtain rfl := Option.some.inj (MapOperation.pop.inj hd).2
      exact hknown
    have hframed := (hmaps 0 pop hmap (fun v hv => nomatch hv) hpopped).of_ok hrun
    obtain ⟨b, q, hq, hbody, -⟩ := hframed.old 1 _ rfl
    have hheld : s'.Holds 1 (.node 2) := by
      refine ⟨_, hq, rfl, ?_⟩
      rw [Node.values, hbody (by decide)]
      exact List.mem_singleton.mpr rfl
    exact ⟨s', hrun, hframed, rfl, hlost 2 rfl ⟨_, rfl, rfl⟩, hheld⟩
  · refine ⟨_, rfl, (hlists 3 append hlist fun v hv => ?_).of_ok rfl, rfl⟩
    obtain rfl := List.mem_singleton.mp hv
    exact hknown

end Store
end Exemplar
