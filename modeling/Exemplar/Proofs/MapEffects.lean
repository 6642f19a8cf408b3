import Exemplar.Proofs.Frames

/-! Operations on a linked map, in any store. Each changes only the content of the map, the links of
what the values that it stores show, and the links of what leaves the map. One that fails finds out
before it changes anything, except that making a value fit to be held may not end, and that an entry
whose key differs from itself is not found when it is read again. -/
namespace Exemplar
open StoreM Value

namespace Store

variable {s s₁ : Store} {m c : Ref} {n : Node} {es : Assoc Scalar Value} {key : Scalar} {v : Value}
  {touched : Ref → Prop}

/-- A node is what a map holds under a key, or a value that takes its place shows it. -/
def Exchanged (s : Store) (m : Ref) (key : Scalar) (v : Value) (c : Ref) : Prop :=
  s.held? (.node m) key = some (.node c) ∨ s.Offers c v

theorem held?_map (hn : s.get? m = some n) (hbody : n.body = .map es) (key : Scalar) :
    s.held? (.node m) key = es.get? key := by
  simp only [held?, hn, Option.map_some, hbody]

theorem Spared.held?_eq (h : Spared touched s s₁) (hm : s.IsLinked m) (key : Scalar) :
    s₁.held? (.node m) key = s.held? (.node m) key := by
  obtain ⟨n, hn, -⟩ := hm
  obtain ⟨q, hq, -⟩ := h.old m n hn
  simp only [held?, hn, hq, Option.map_some]

end Store

namespace MapNode
open Store

variable {s : Store} {m : Ref} {n : Node} {es : Assoc Scalar Value} {key : Scalar} {v : Value}

theorem run_get! (hn : s.get? m = some n) (hbody : n.body = .map es) (hget : es.get? key = some v) :
    (get! m key).run s = (.ok v, s) := by
  rw [get!, run_bind (run_get? hn hbody key), hget]
  rfl

/-- An entry was written. It can be read, unless its key differs from itself, and what else is found
was there before. -/
structure Wrote (s : Store) (m : Ref) (key : Scalar) (v : Value) (s' : Store) : Prop
    extends Framed m (s.Exchanged m key v) s s' where
  ready : s'.Ready m true
  found : ∀ k c, s'.held? (.node m) k = some (.node c) → c < s.nodes.size →
    s.held? (.node m) k = some (.node c) ∨ s.Offers c v
  read : (key == key) = true → ∃ w, (get! m key).run s' = (.ok w, s')

theorem ends_set (h : s.Ready m true) (hv : s.Knows v) :
    Ends (set m key v) s (fun _ s' => Wrote s m key v s') (Broken m (s.Exchanged m key v) s) := by
  obtain ⟨n, es, hn, hform, hbody, hknown⟩ := h.entries
  have hheld (k : Scalar) : s.held? (.node m) k = es.get? k := held?_map hn hbody k
  -- whatever was released, the new value is made fit and written into the same entries
  have hwrite {s₁ : Store} (hspared : Spared (fun c => es.get? key = some (.node c)) s s₁)
      (hintact : s₁.Intact) : Ends (do writeEntry m key (← accept m v)) s₁
        (fun _ s' => Wrote s m key v s') (Broken m (s.Exchanged m key v) s) := by
    have hready := h.after hspared hintact
    have hoffers : ∀ c, c < s.nodes.size → s₁.Offers c v → s.Offers c v :=
      fun c _ hc => hspared.offers h.intact hv hc
    have hframed {s₂ : Store} (h₂ : Spared (s₁.Offers · v) s₁ s₂) :
        Framed m (s.Exchanged m key v) s s₂ :=
      ((hspared.imp fun c _ hc => Or.inl ((hheld key).trans hc)).trans h₂
        fun c hlt hc => Or.inr (hoffers c hlt hc)).framed m
    refine ((hready.ends_accept (hv.mono hspared.size)).imp_error fun f s' he =>
      ⟨he.1, hframed he.2⟩).bind fun w s₂ hw => ?_
    obtain ⟨n₁, hn₁, hform₁, hbody₁⟩ := hspared.linked hn hform
    obtain ⟨n₂, hn₂, -, hbody₂⟩ := hw.linked hn₁ hform₁
    have hsize := Nat.le_trans hspared.size hw.size
    have hbody₂ : n₂.body = .map es := hbody₂.trans (hbody₁.trans hbody)
    have hn' := get?_modify_self hn₂ fun n => { n with body := .map (es.insert key w) }
    refine ends_bind (run_entries hn₂ hbody₂)
      (ends_change ⟨?_, ?_, fun k c hc hlt => ?_, fun hkey => ?_⟩)
    · exact (hframed hw.toSpared).body _
    · refine (hready.after hw.toSpared hw.intact).write (n := n₂) rfl fun x hx => ?_
      obtain ⟨e, he, rfl⟩ := List.mem_map.mp hx
      rcases Assoc.split_at es key with ⟨before, key', old, after, rfl, -, -, hinsert⟩ | ⟨-, hinsert⟩
      all_goals
        rw [hinsert] at he
        simp only [List.mem_append, List.mem_cons, List.not_mem_nil, or_false] at he
      · rcases he with he | rfl | he
        · exact (hknown e (by simp [he])).mono hsize
        · exact hw.known
        · exact (hknown e (by simp [he])).mono hsize
      · rcases he with he | rfl
        · exact (hknown e he).mono hsize
        · exact hw.known
    · rw [held?_map hn' rfl] at hc
      rw [hheld]
      rcases Assoc.get?_of_insert hc with hold | rfl
      · exact Or.inl hold
      · exact Or.inr (hw.made.since hspared.size hoffers c (List.mem_singleton.mpr rfl) hlt)
    · exact ⟨w, run_get! hn' rfl (Assoc.get?_insert_self es hkey w)⟩
  refine ends_bind (run_get? hn hbody key) ?_
  cases hget : es.get? key with
  | none => exact hwrite (Spared.refl _ s) h.intact
  | some old =>
    obtain ⟨key', hold, -⟩ := Assoc.get?_mem hget
    obtain ⟨s₁, hrun, hreleased⟩ := h.run_releaseFrom (hknown _ hold)
    refine ends_bind hrun (hwrite (hreleased.spared.imp fun c _ hc => ?_) hreleased.intact)
    rw [hget, List.mem_singleton.mp hc]

theorem ends_setAll {new : List (Scalar × Value)} (h : s.Ready m true)
    (hnew : ∀ v ∈ new.map Prod.snd, s.Knows v) :
    Ends (setAll m new) s (fun _ s' => Framed m (fun c => ∃ e ∈ new, s.Exchanged m e.1 e.2 c) s s')
      (Broken m (fun c => ∃ e ∈ new, s.Exchanged m e.1 e.2 c) s) := by
  induction new generalizing s with
  | nil => exact ends_pure (Framed.refl m _ s)
  | cons e new ih =>
    have hv := hnew e.2 (by simp)
    have hrest : ∀ v ∈ new.map Prod.snd, s.Knows v := fun v hv => hnew v (List.mem_cons_of_mem _ hv)
    refine ((ends_set h hv).imp_error fun f s' he =>
      ⟨he.1, he.2.imp fun c _ hc => ⟨e, by simp, hc⟩⟩).bind fun _ s₁ hwrote => ?_
    -- what the first entry brought into the map shows only what its value showed
    have hcompose {s' : Store} (h' : Framed m (fun c => ∃ e ∈ new, s₁.Exchanged m e.1 e.2 c) s₁ s') :
        Framed m (fun c => ∃ e' ∈ e :: new, s.Exchanged m e'.1 e'.2 c) s s' := by
      refine (hwrote.toFramed.imp fun c _ hc => ⟨e, by simp, hc⟩).trans h' ?_
      rintro c hlt ⟨e', he', hheld | hoffers⟩
      · rcases hwrote.found e'.1 c hheld hlt with hold | hshown
        · exact ⟨e', by simp [he'], Or.inl hold⟩
        · exact ⟨e, by simp, Or.inr hshown⟩
      · have hknown := hrest e'.2 (List.mem_map_of_mem he')
        exact ⟨e', by simp [he'], Or.inr (hwrote.offers h.intact h.linked hknown hoffers)⟩
    refine (ih hwrote.ready fun v hv => (hrest v hv).mono hwrote.size).imp ?_ ?_
    · exact fun _ s' h' => hcompose h'
    · exact fun f s' he => ⟨he.1, hcompose he.2⟩

theorem ends_delete (h : s.Ready m true) : Ends (delete m key) s
    (fun _ s' => Framed m (fun c => s.held? (.node m) key = some (.node c)) s s')
    (fun _ s' => s' = s) := by
  obtain ⟨n, es, hn, hform, hbody, hknown⟩ := h.entries
  refine ends_bind (run_get? hn hbody key) ?_
  cases hget : es.get? key with
  | none => exact ends_throw rfl
  | some old =>
    obtain ⟨key', hold, -⟩ := Assoc.get?_mem hget
    obtain ⟨s₁, hrun, hreleased⟩ := h.run_releaseFrom (hknown _ hold)
    obtain ⟨n₁, hn₁, -, hbody₁⟩ := hreleased.spared.linked hn hform
    refine ends_bind hrun (ends_bind (run_entries hn₁ (hbody₁.trans hbody)) (ends_change ?_))
    refine ((hreleased.spared.framed m).imp fun c _ hc => ?_).body _
    rw [held?_map hn hbody, hget, List.mem_singleton.mp hc]

/-- Where the key is absent, popping changes nothing but the link of the default, which is lost. -/
theorem run_pop_absent (h : s.Ready m true) (habsent : s.held? (.node m) key = none)
    (hv : s.Knows v) :
    ∃ s₁, (pop m key (some v)).run s = (.ok v, s₁) ∧ Released s [v] s₁ := by
  obtain ⟨n, es, hn, -, hbody, -⟩ := h.entries
  obtain ⟨s₁, hrun, hreleased⟩ := h.run_releaseFrom hv
  rw [held?_map hn hbody] at habsent
  refine ⟨s₁, ?_, hreleased⟩
  rw [pop, run_bind (run_get? hn hbody key), habsent, run_bind hrun]
  rfl

theorem ends_pop (h : s.Ready m true) {default : Option Value}
    (hdefault : ∀ d, default = some d → s.Knows d) : Ends (pop m key default) s
    (fun _ s' => Framed m (fun c => s.held? (.node m) key = some (.node c) ∨
      s.held? (.node m) key = none ∧ default = some (.node c)) s s')
    (fun _ s' => s' = s) := by
  obtain ⟨n, es, hn, hform, hbody, hknown⟩ := h.entries
  have hheld : s.held? (.node m) key = es.get? key := held?_map hn hbody key
  rcases Assoc.split_at es key with ⟨before, key', old, after, hes, hold, herase, -⟩ | ⟨hnone, -⟩
  · refine ends_bind (run_get? hn hbody key) ?_
    rw [hold]
    refine ends_bind (run_entries hn hbody) (ends_bind (run_change m _ s) ?_)
    rw [herase]
    have hready := h.write (n := n) (b := .map (before ++ after)) rfl fun v hv => by
      obtain ⟨e, he, rfl⟩ := List.mem_map.mp hv
      refine hknown e ?_
      rw [hes]
      exact (List.sublist_cons_self _ after).append_left before |>.subset he
    have hknown := hknown (key', old) (by simp [hes])
    obtain ⟨s₁, hrun, hreleased⟩ :=
      hready.run_releaseFrom (hknown.mono (Nat.le_of_eq (size_modify s m _).symm))
    refine ends_bind hrun (ends_pure ?_)
    refine ((Framed.refl m _ s).body _).trans (hreleased.spared.framed m) fun c _ hc => Or.inl ?_
    rw [hheld, hold, List.mem_singleton.mp hc]
  · have habsent := hheld.trans hnone
    cases default with
    | none =>
      refine ends_bind (run_get? hn hbody key) ?_
      rw [hnone]
      exact ends_throw rfl
    | some d =>
      obtain ⟨s₁, hrun, hreleased⟩ := run_pop_absent h habsent (hdefault d rfl)
      refine ends_ok hrun ((hreleased.spared.framed m).imp fun c _ hc => Or.inr ⟨habsent, ?_⟩)
      rw [List.mem_singleton.mp hc]

theorem ends_requireLinked (h : s.Ready m true) {α : Type} {f : Unit → StoreM α}
    {P : α → Store → Prop} {E : StoreFault → Store → Prop} (hf : Ends (f ()) s P E) :
    Ends (requireLinked m >>= f) s P E := by
  have hrun : (requireLinked m).run s = (.ok (), s) := by
    rw [requireLinked, run_bind h.run_isPlain]
    rfl
  exact ends_bind hrun hf

theorem ends_popLast (h : s.Ready m true) : Ends (popLast m) s
    (fun _ s' => Framed m (fun _ => False) s s') (fun _ s' => s' = s) := by
  obtain ⟨n, es, hn, -, hbody, -⟩ := h.entries
  refine ends_bind (run_entries hn hbody) ?_
  cases es.getLast? with
  | none => exact ends_throw rfl
  | some e =>
    refine ends_bind (run_entries hn hbody) (ends_bind (run_change m _ s) (ends_pure ?_))
    exact (Framed.refl m _ s).body _

/-- Either there is something to read under a key, or the key is absent. -/
theorem ends_contains (h : s.Ready m true) {α : Type} {f : Bool → StoreM α}
    {P : α → Store → Prop} {E : StoreFault → Store → Prop}
    (hpresent : ∀ v, (get! m key).run s = (.ok v, s) → Ends (f true) s P E)
    (habsent : s.held? (.node m) key = none → Ends (f false) s P E) :
    Ends (contains m key >>= f) s P E := by
  obtain ⟨n, es, hn, -, hbody, -⟩ := h.entries
  have hcontains : (contains m key).run s = (.ok (es.get? key).isSome, s) := by
    rw [contains, run_bind (run_get? hn hbody key)]
    rfl
  refine ends_bind hcontains ?_
  cases hget : es.get? key with
  | some v => exact hpresent v (run_get! hn hbody hget)
  | none => exact habsent ((held?_map hn hbody key).trans hget)

/-- An entry is written to be read, but is not found if its key differs from itself. -/
def Unread (m : Ref) (touched : Ref → Prop) (s : Store) (key : Scalar) (f : StoreFault) (s' : Store) :
    Prop :=
  Framed m touched s s' ∧ (f = .endless ∨ (key == key) = false)

/-- Writing an entry where there was none, and reading it again. -/
theorem ends_set_read (h : s.Ready m true) (hv : s.Knows v)
    (habsent : s.held? (.node m) key = none) : Ends (do set m key v; get! m key) s
    (fun _ s' => Framed m (s.Offers · v) s s') (Unread m (s.Offers · v) s key) := by
  have hshown {s' : Store} (h' : Framed m (s.Exchanged m key v) s s') :
      Framed m (s.Offers · v) s s' := by
    refine h'.imp fun c _ hc => hc.resolve_left fun hheld => ?_
    rw [habsent] at hheld
    cases hheld
  refine ((ends_set h hv).imp_error fun f s' he => ⟨hshown he.2, Or.inl he.1⟩).bind
    fun _ s₁ hwrote => ?_
  have hframed := hshown hwrote.toFramed
  cases hkey : key == key with
  | true =>
    obtain ⟨w, hread⟩ := hwrote.read hkey
    exact ends_ok hread hframed
  | false => exact (reads_get! m key).ends (fun _ _ => hframed) fun _ => ⟨hframed, Or.inr hkey⟩

theorem ends_setDefault (h : s.Ready m true) (hv : s.held? (.node m) key = none → s.Knows v) :
    Ends (setDefault m key v) s
      (fun _ s' => Framed m (fun c => s.held? (.node m) key = none ∧ s.Offers c v) s s')
      (Unread m (fun c => s.held? (.node m) key = none ∧ s.Offers c v) s key) := by
  refine ends_contains h (fun _ hread => ends_ok hread (Framed.refl m _ s)) fun habsent => ?_
  have hsub : ∀ c, c < s.nodes.size → s.Offers c v → s.held? (.node m) key = none ∧ s.Offers c v :=
    fun c _ hc => ⟨habsent, hc⟩
  refine (ends_set_read h (hv habsent) habsent).imp ?_ ?_
  · exact fun _ s' h' => h'.imp hsub
  · exact fun f s' he => ⟨he.1.imp hsub, he.2⟩

/-- What a seed makes is new, or is the value that it gives. -/
structure Sprouted (s : Store) (seed : Seed) (v : Value) (s' : Store) : Prop
    extends Spared (fun _ => False) s s' where
  intact : s'.Intact
  known : s'.Knows v
  given : ∀ c, c < s.nodes.size → s'.Offers c v → ∃ d, seed = .value d ∧ s.Offers c d

theorem ends_seed (h : s.Intact) {seed : Seed} (hseed : ∀ d, seed = .value d → s.Knows d) :
    Ends seed.make s (fun v s' => Sprouted s seed v s') fun _ _ => False := by
  have hadded (b : Body) (hempty : Node.values { body := b, form := .linked } = []) :
      Sprouted s seed (.node s.nodes.size) (s.add { body := b, form := .linked }).2 := by
    refine ⟨spared_add _ s _, h.add hempty, ?_, fun c hlt hc => ?_⟩
    · rw [Knows, size_add]
      exact Nat.lt_succ_self _
    · cases hc with
      | node => exact absurd hlt (Nat.lt_irrefl _)
      | inside hfound hplain =>
        rw [get?_add, if_pos rfl] at hfound
        obtain rfl := Option.some.inj hfound
        cases hplain
  cases seed with
  | value d => exact ends_pure ⟨Spared.refl _ s, h, hseed d rfl, fun c _ hc => ⟨d, rfl, hc⟩⟩
  | map => exact show Sprouted _ _ _ _ from hadded (.map []) rfl
  | list => exact show Sprouted _ _ _ _ from hadded (.list []) rfl

theorem ends_autocreate (h : s.Ready m true) {seed : Seed}
    (hseed : s.held? (.node m) key = none → ∀ d, seed = .value d → s.Knows d) :
    Ends (autocreate m key seed.make) s
      (fun _ s' => Framed m (fun c => s.held? (.node m) key = none ∧
        ∃ d, seed = .value d ∧ s.Offers c d) s s')
      (Unread m (fun c => s.held? (.node m) key = none ∧ ∃ d, seed = .value d ∧ s.Offers c d)
        s key) := by
  refine ends_requireLinked h (ends_contains h (fun _ hread => ends_ok hread (Framed.refl m _ s)) ?_)
  intro habsent
  refine ((ends_seed h.intact (hseed habsent)).imp_error fun _ _ he => he.elim).bind
    fun v s₁ hmade => ?_
  have hcompose {s' : Store} (h' : Framed m (s₁.Offers · v) s₁ s') :
      Framed m (fun c => s.held? (.node m) key = none ∧ ∃ d, seed = .value d ∧ s.Offers c d) s s' :=
    ((hmade.toSpared.imp fun _ _ hc => hc.elim).framed m).trans h' fun c hlt hc =>
      ⟨habsent, hmade.given c hlt hc⟩
  refine (ends_set_read (h.after hmade.toSpared hmade.intact) hmade.known ?_).imp ?_ ?_
  · exact (hmade.held?_eq h.linked key).trans habsent
  · exact fun _ s' h' => hcompose h'
  · exact fun f s' he => ⟨hcompose he.1, he.2⟩

end MapNode

end Exemplar
