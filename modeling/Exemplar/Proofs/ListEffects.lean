import Exemplar.Proofs.MapEffects
import Exemplar.Proofs.ParentLinks
import Exemplar.Proofs.Sorting

/-! Operations on a linked list, in any store. Each changes only the content of the list, the links of
what the values that it stores show, and the links of what leaves the list. An assignment to a slice
releases the old items and links the new ones before it finds out that they do not fit, and an insertion
links the new item before it looks at the index; all content is as it was then, but links are lost. The
others find out before they change anything, except that making a value fit to be held may not end. -/
namespace Exemplar
open StoreM Value

namespace Store

variable {s s₁ s₂ : Store} {l root c r : Ref} {n : Node} {vs : List Value} {v : Value} {index : Int}

def selected (s : Store) (l : Ref) (slice : Slice) : List Value :=
  match (s.get? l).map Node.body with
  | some (.list vs) => ((slice.span? vs.length).map (·.select vs)).getD []
  | _ => []

/-- An operation failed after old items were released and new values were linked. All content is as it
was, and so are the links of the nodes that neither were released nor come up in the new values. -/
structure HalfDone (s : Store) (gone new : List Value) (s' : Store) : Prop
    extends Spared (fun c => .node c ∈ gone ∨ ∃ v ∈ new, s.Offers c v) s s' where
  parents : ∀ c, s.IsLinked c → .node c ∈ gone → (∀ v ∈ new, ¬ s.Offers c v) → s'.parent? c = none

/-- What is met on a walk below a root while the maps that are met are appended to a list. If the list
is met itself, then so are the copies that were appended, and what they show. -/
inductive Met (s : Store) (l root : Ref) : Ref → Prop
  | first {c : Ref} (held : c ∈ s.childrenOf root) : Met s l root c
  | next {r c : Ref} (met : Met s l root r) (held : c ∈ s.childrenOf r) : Met s l root c
  | copied {r c : Ref} {n : Node} (again : Met s l root l) (met : Met s l root r)
    (found : s.get? r = some n) (map : n.isMap = true) (shown : s.Offers c (.node r)) : Met s l root c

def ShownBelow (s : Store) (l root c : Ref) : Prop :=
  ∃ r n, s.Met l root r ∧ s.get? r = some n ∧ n.isMap = true ∧ s.Offers c (.node r)

/-- What is still to be visited on the walk is met, or it is new because the list was met. -/
def Awaited (s : Store) (l root r : Ref) : Prop :=
  (r < s.nodes.size → s.Met l root r) ∧ (s.nodes.size ≤ r → s.Met l root l)

theorem ShownBelow.met (h : s.ShownBelow l root c) (hl : s.Met l root l) : s.Met l root c := by
  obtain ⟨r, n, hr, hn, hmap, hc⟩ := h
  exact .copied hl hr hn hmap hc

theorem held?_list (hn : s.get? l = some n) (hbody : n.body = .list vs) (index : Int) :
    s.held? (.node l) (.int index) = (placeOf vs.length index).bind (vs[·]?) := by
  simp only [held?, hn, Option.map_some, hbody, Scalar.index?, Option.bind_some]

theorem selected_eq {slice : Slice} {t : Span} (hn : s.get? l = some n) (hbody : n.body = .list vs)
    (ht : slice.span? vs.length = some t) : s.selected l slice = t.select vs := by
  simp only [selected, hn, Option.map_some, hbody, ht, Option.getD_some]

end Store

/-- A node is stored by an operation on a list, as a value or inside of one. -/
def ListOperation.TakesIn (s : Store) (l c : Ref) : ListOperation → Prop
  | .extend (.descendents _ (some root)) | .grow (.descendents _ (some root)) =>
    s.ShownBelow l root c
  | op => ∃ v ∈ op.stored s, s.Offers c v

theorem ListOperation.takesIn_grow (s : Store) (l c : Ref) (source : Value) :
    ListOperation.TakesIn s l c (.grow source) ↔ ListOperation.TakesIn s l c (.extend source) := by
  match source with
  | .descendents _ (some _) | .descendents _ none => exact Iff.rfl
  | .scalar _ | .nan _ | .node _ | .member _ | .pair _ _ => exact Iff.rfl

namespace ListNode
open Store

variable {s s₁ s₂ : Store} {l root c r : Ref} {n : Node} {vs old new : List Value} {v w : Value}
  {index : Int} {i : Nat} {slice : Slice} {bindItem : BindItem}

theorem run_place (hn : s.get? l = some n) (hbody : n.body = .list vs)
    (hplace : placeOf vs.length index = some i) : (place l index).run s = (.ok i, s) := by
  rw [place, run_bind (run_items hn hbody), hplace]
  rfl

theorem run_span {t : Span} (hn : s.get? l = some n) (hbody : n.body = .list vs)
    (ht : slice.span? vs.length = some t) : (span l slice).run s = (.ok t, s) := by
  rw [span, run_bind (run_items hn hbody), ht]
  rfl

theorem held?_of_run_get! (hrun : (get! l index).run s = (.ok v, s)) :
    s.held? (.node l) (.int index) = some v := by
  obtain ⟨n, i, vs, hn, hbody, hplace, hv, -⟩ := of_run_get! hrun
  rw [held?_list hn hbody, hplace]
  exact hv

theorem ends_requireLinked (h : s.Ready l false) {α : Type} {f : Unit → StoreM α}
    {P : α → Store → Prop} {E : StoreFault → Store → Prop} (hf : Ends (f ()) s P E) :
    Ends (requireLinked l >>= f) s P E := by
  have hrun : (requireLinked l).run s = (.ok (), s) := by
    rw [requireLinked, run_bind h.run_isPlain]
    rfl
  exact ends_bind hrun hf

theorem ends_acceptItem (h : s.Ready l false) (hv : s.Knows v) :
    Ends (acceptItem bindItem l v) s (Fitted s v) (Stopped (s.Offers · v) s) := by
  obtain ⟨n, hn, hform, -⟩ := h.target
  refine h.ends_named (ends_bind (run_node hn) ?_)
  rw [hform]
  exact h.ends_accept hv

theorem ends_acceptItems (h : s.Ready l false) (hvs : ∀ v ∈ vs, s.Knows v) :
    Ends (acceptItems bindItem l vs) s (fun _ s' => Spared (fun c => ∃ v ∈ vs, s.Offers c v) s s')
      (Stopped (fun c => ∃ v ∈ vs, s.Offers c v) s) := by
  induction vs generalizing s with
  | nil => exact ends_pure (Spared.refl _ s)
  | cons v vs ih =>
    refine ((ends_acceptItem h (hvs v (by simp))).imp_error fun _ _ he =>
      ⟨he.1, he.2.imp fun c _ hc => ⟨v, by simp, hc⟩⟩).bind fun w s₁ hw => ?_
    have hknown : ∀ u ∈ vs, s.Knows u := fun u hu => hvs u (by simp [hu])
    have hcompose {s₂ : Store} (hspared : Spared (fun c => ∃ u ∈ vs, s₁.Offers c u) s₁ s₂) :
        Spared (fun c => ∃ u ∈ v :: vs, s.Offers c u) s s₂ := by
      refine (hw.toSpared.imp fun c _ hc => ⟨v, by simp, hc⟩).trans hspared ?_
      rintro c - ⟨u, hu, hc⟩
      exact ⟨u, by simp [hu], hw.toSpared.offers h.intact (hknown u hu) hc⟩
    exact ((ih (h.after hw.toSpared hw.intact) fun u hu => (hknown u hu).mono hw.size).imp_error
      fun _ _ he => ⟨he.1, hcompose he.2⟩).bind fun ws s₂ hspared => ends_pure (hcompose hspared)

/-- An item was appended. New containers are linked, and of what was there the list and they hold only
what the list held, and what the item shows. -/
structure Appended (s : Store) (l : Ref) (v : Value) (s' : Store) : Prop
    extends Framed l (s.Offers · v) s s' where
  ready : s'.Ready l false
  new : Stocked (s.Offers · v) s s'
  items : ∀ n n', s.get? l = some n → s'.get? l = some n' →
    s.Drawn (fun c => .node c ∈ n.values ∨ s.Offers c v) n'.values

theorem ends_append (h : s.Ready l false) (hv : s.Knows v) : Ends (append bindItem l v) s
    (fun _ s' => Appended s l v s') (Broken l (s.Offers · v) s) := by
  obtain ⟨n, vs, hn, hform, hbody, hknown⟩ := h.items
  refine ((ends_acceptItem h hv).imp_error fun _ _ he => ⟨he.1, he.2.framed l⟩).bind
    fun w s₁ hw => ?_
  obtain ⟨n₁, hn₁, -, hbody₁⟩ := hw.linked hn hform
  have hn' := get?_modify_self hn₁ fun n => { n with body := .list (vs ++ [w]) }
  refine ends_bind (run_items hn₁ (hbody₁.trans hbody)) (ends_change ⟨?_, ?_, ?_, ?_⟩)
  · exact (hw.toSpared.framed l).body _
  · refine (h.after hw.toSpared hw.intact).write (n := n₁) rfl fun x hx => ?_
    rcases List.mem_append.mp hx with hold | hnew
    · exact (hknown x hold).mono hw.size
    · rw [List.mem_singleton.mp hnew]
      exact hw.known
  · exact hw.new.body hn₁ fun hle => absurd (get?_lt hn) (Nat.not_lt.mpr hle)
  · intro n₀ n₂ hn₀ hn₂
    obtain rfl := Option.some.inj (hn.symm.trans hn₀)
    obtain rfl := Option.some.inj (hn'.symm.trans hn₂)
    rw [Node.values, Node.values, hbody]
    exact Drawn.append (fun c hc _ => Or.inl hc) fun c hc hlt => Or.inr (hw.made c hc hlt)

theorem ends_appendAll (h : s.Ready l false) (hvs : ∀ v ∈ vs, s.Knows v) :
    Ends (appendAll bindItem l vs) s
      (fun _ s' => s'.Ready l false ∧ Framed l (fun c => ∃ v ∈ vs, s.Offers c v) s s')
      (Broken l (fun c => ∃ v ∈ vs, s.Offers c v) s) := by
  induction vs generalizing s with
  | nil => exact ends_pure ⟨h, Framed.refl l _ s⟩
  | cons v vs ih =>
    have hknown : ∀ u ∈ vs, s.Knows u := fun u hu => hvs u (by simp [hu])
    have hfirst : ∀ c, c < s.nodes.size → s.Offers c v → ∃ u ∈ v :: vs, s.Offers c u :=
      fun c _ hc => ⟨v, by simp, hc⟩
    refine ((h.ends_named (ends_append h (hvs v (by simp)))).imp_error fun _ _ he =>
      ⟨he.1, he.2.imp hfirst⟩).bind fun _ s₁ hs₁ => ?_
    have hcompose {s₂ : Store} (h₂ : Framed l (fun c => ∃ u ∈ vs, s₁.Offers c u) s₁ s₂) :
        Framed l (fun c => ∃ u ∈ v :: vs, s.Offers c u) s s₂ := by
      refine (hs₁.toFramed.imp hfirst).trans h₂ ?_
      rintro c - ⟨u, hu, hc⟩
      exact ⟨u, by simp [hu], hs₁.offers h.intact h.linked (hknown u hu) hc⟩
    refine (ih hs₁.ready fun u hu => (hknown u hu).mono hs₁.size).imp ?_ ?_
    · exact fun _ s₂ h₂ => ⟨h₂.1, hcompose h₂.2⟩
    · exact fun _ s₂ he => ⟨he.1, hcompose he.2⟩

/-- A walk below a root has come so far that a store results. -/
structure Walked (s : Store) (l root : Ref) (s₁ : Store) : Prop
    extends Framed l (s.ShownBelow l root) s s₁ where
  ready : s₁.Ready l false
  new : Stocked (s.ShownBelow l root) s s₁
  items : ∀ n n₁, s.get? l = some n → s₁.get? l = some n₁ →
    s.Drawn (fun c => .node c ∈ n.values ∨ s.ShownBelow l root c) n₁.values

theorem walked_refl (h : s.Ready l false) (root : Ref) : Walked s l root s :=
  ⟨Framed.refl l _ s, h, stocked_refl _ s, fun n n₁ hn hn₁ c hc _ => by
    obtain rfl := Option.some.inj (hn.symm.trans hn₁)
    exact Or.inl hc⟩

/-- What an awaited map shows is shown below the root. -/
theorem Walked.shown (h : Walked s l root s₁) (hs : s.Ready l false) (hr : s.Awaited l root r)
    (hn : s₁.get? r = some n) (hmap : n.isMap = true) (hc : c < s.nodes.size)
    (hoffers : s₁.Offers c (.node r)) : s.ShownBelow l root c := by
  rcases Nat.lt_or_ge r s.nodes.size with hlt | hge
  · obtain ⟨k, hk⟩ := Knows.found (s := s) (r := r) hlt
    obtain ⟨b, q, hq, hbody, -⟩ := h.old r k hk
    obtain rfl := Option.some.inj (hq.symm.trans hn)
    have hrl : r ≠ l := by
      rintro rfl
      obtain ⟨n₁, hn₁, -, hlist⟩ := h.ready.target
      obtain rfl := Option.some.inj (hq.symm.trans hn₁)
      rw [hmap] at hlist
      cases hlist
    have hmap : k.isMap = true := by
      rw [Node.isMap, ← hbody hrl]
      exact hmap
    have hknown : s.Knows (.node r) := hlt
    exact ⟨r, k, hr.1 hlt, hk, hmap, h.offers hs.intact hs.linked hknown hoffers⟩
  · have hform := (h.new r n hge hn).1
    cases hoffers with
    | node => exact absurd hc (Nat.not_lt.mpr hge)
    | inside hfound hplain =>
      obtain rfl := Option.some.inj (hn.symm.trans hfound)
      cases hform.symm.trans hplain

theorem Walked.append (h : Walked s l root s₁) (hs : s.Ready l false) (hr : s.Awaited l root r)
    (hn : s₁.get? r = some n) (hmap : n.isMap = true) (happended : Appended s₁ l (.node r) s₂) :
    Walked s l root s₂ := by
  have hshown : ∀ c, c < s.nodes.size → s₁.Offers c (.node r) → s.ShownBelow l root c :=
    fun c hlt hc => h.shown hs hr hn hmap hlt hc
  refine ⟨h.toFramed.trans happended.toFramed hshown, happended.ready, ?_, fun n n₂ hn hn₂ => ?_⟩
  · refine h.new.trans happended.new (fun r n hle hn => ?_) h.size hshown
    obtain ⟨b, q, hq, hbody, -⟩ := happended.old r n hn
    have hrl : r ≠ l := fun hrl => absurd (hrl ▸ hs.linked.lt) (Nat.not_lt.mpr hle)
    rw [hbody hrl] at hq
    exact ⟨q, hq⟩
  · obtain ⟨n₁, hn₁, -⟩ := h.ready.target
    refine (happended.items n₁ n₂ hn₁ hn₂).since h.size fun c hlt hc => ?_
    rcases hc with hold | hnew
    · exact h.items n n₁ hn hn₁ c hold hlt
    · exact Or.inr (hshown c hlt hnew)

/-- The walk goes on from what a node holds by then. -/
theorem Walked.children (h : Walked s l root s₁) (hs : s.Ready l false) (hr : s.Awaited l root r)
    (hn : s₁.get? r = some n) : ∀ c ∈ s₁.childrenOf r, s₁.Knows (.node c) ∧ s.Awaited l root c := by
  intro c hc
  have hmem := (mem_childrenOf hn).mp hc
  refine ⟨h.ready.intact.closed r n hn _ hmem, ?_⟩
  rcases Nat.lt_or_ge r s.nodes.size with hlt | hge
  · have hmet := hr.1 hlt
    obtain ⟨k, hk⟩ := Knows.found (s := s) (r := r) hlt
    by_cases hrl : r = l
    · subst hrl
      refine ⟨fun hc => ?_, fun _ => hmet⟩
      rcases h.items k n hk hn c hmem hc with hold | hshown
      · exact .next hmet ((mem_childrenOf hk).mpr hold)
      · exact hshown.met hmet
    · obtain ⟨b, q, hq, hbody, -⟩ := h.old r k hk
      obtain rfl := Option.some.inj (hq.symm.trans hn)
      rw [Node.values, hbody hrl] at hmem
      refine ⟨fun _ => .next hmet ((mem_childrenOf hk).mpr hmem), fun hge => ?_⟩
      exact absurd (hs.intact.closed r k hk _ hmem) (Nat.not_lt.mpr hge)
  · have hmet := hr.2 hge
    exact ⟨fun hlt => ((h.new r n hge hn).2 c hmem hlt).met hmet, fun _ => hmet⟩

theorem ends_appendBelow (hs : s.Ready l false) (h : Walked s l root s₁) {fuel : Nat}
    {pending : List Ref} (hpending : ∀ r ∈ pending, s₁.Knows (.node r) ∧ s.Awaited l root r) :
    Ends (appendBelow bindItem l fuel pending) s₁ (fun _ s' => Framed l (s.ShownBelow l root) s s')
      (Broken l (s.ShownBelow l root) s) := by
  induction fuel generalizing s₁ pending with
  | zero =>
    cases pending with
    | nil => exact ends_pure h.toFramed
    | cons r rest => exact ends_throw ⟨rfl, h.toFramed⟩
  | succ fuel ih =>
    cases pending with
    | nil => exact ends_pure h.toFramed
    | cons r rest =>
      obtain ⟨hknown, hr⟩ := hpending r (by simp)
      obtain ⟨n, hn⟩ := hknown.found
      have hwalk {s₂ : Store} (h₂ : Walked s l root s₂) (hsize : s₁.nodes.size ≤ s₂.nodes.size) :
          Ends (do
            let s ← get
            appendBelow bindItem l fuel (s.childrenOf r ++ rest) : StoreM Unit) s₂
            (fun _ s' => Framed l (s.ShownBelow l root) s s') (Broken l (s.ShownBelow l root) s) := by
        refine ends_bind (run_get s₂) (ih h₂ fun c hc => ?_)
        obtain ⟨n₂, hn₂⟩ := (hknown.mono hsize).found
        rcases List.mem_append.mp hc with hchild | hlater
        · exact h₂.children hs hr hn₂ c hchild
        · obtain ⟨hc, hawaited⟩ := hpending c (by simp [hlater])
          exact ⟨hc.mono hsize, hawaited⟩
      refine ends_bind (run_node hn) ?_
      cases hmap : n.isMap with
      | false => exact hwalk h (Nat.le_refl _)
      | true =>
        have hshown : ∀ c, c < s.nodes.size → s₁.Offers c (.node r) → s.ShownBelow l root c :=
          fun c hlt hc => h.shown hs hr hn hmap hlt hc
        refine ((h.ready.ends_named (ends_append h.ready hknown)).imp_error fun _ _ he =>
          ⟨he.1, h.toFramed.trans he.2 hshown⟩).bind fun _ s₂ happended => ?_
        exact hwalk (h.append hs hr hn hmap happended) happended.size

theorem ends_extendEach (h : s.Ready l false)
    (hvs : ∀ vs, (elements v).run s = (.ok vs, s) → vs = new) (hnew : ∀ w ∈ new, s.Knows w) :
    Ends (extendEach bindItem l v) s (fun _ s' => Framed l (fun c => ∃ w ∈ new, s.Offers c w) s s')
      fun f s' => s' = s ∨ Broken l (fun c => ∃ w ∈ new, s.Offers c w) s f s' := by
  refine (reads_elements v).ends_bind (fun vs helements => ?_) fun _ => Or.inl rfl
  obtain rfl := hvs vs helements
  refine ((ends_appendAll h hnew).imp_error fun _ _ he => Or.inr he).bind fun _ s₁ hs₁ => ?_
  obtain ⟨hready, hframed⟩ := hs₁
  rw [requireEnd]
  by_cases hself : v.identical (.node l) ∧ (!vs.isEmpty) = true
  · rw [if_pos hself]
    exact ends_bind hready.run_isPlain (ends_throw (Or.inr ⟨rfl, hframed⟩))
  · rw [if_neg hself]
    exact ends_pure hframed

theorem ends_extend (h : s.Ready l false)
    (hstored : ∀ w ∈ ListOperation.stored s (.extend v), s.Knows w) : Ends (extend bindItem l v) s
      (fun _ s' => Framed l (ListOperation.TakesIn s l · (.extend v)) s s')
      fun f s' => s' = s ∨ Broken l (ListOperation.TakesIn s l · (.extend v)) s f s' := by
  cases v with
  | descendents mark root =>
    cases root with
    | none => exact ends_extendEach h (ListOperation.elements_stored s _) hstored
    | some root =>
      refine ends_bind (run_get s) (ends_bind (run_get s) ?_)
      refine (ends_appendBelow h (walked_refl h root) fun c hc => ?_).imp_error
        fun _ _ he => Or.inr he
      have hknown : s.Knows (.node c) := by
        cases hn : s.get? root with
        | none => simp [childrenOf, hn] at hc
        | some n => exact h.intact.closed root n hn _ ((mem_childrenOf hn).mp hc)
      exact ⟨hknown, fun _ => .first hc, fun hge => absurd hknown (Nat.not_lt.mpr hge)⟩
  | _ => exact ends_extendEach h (ListOperation.elements_stored s _) hstored

theorem ends_set (h : s.Ready l false) (hv : s.Knows v) : Ends (set bindItem l index v) s
    (fun _ s' => Framed l (s.Exchanged l (.int index) v) s s')
    (fun f s' => s' = s ∨ Broken l (s.Exchanged l (.int index) v) s f s') := by
  refine (reads_get! l index).ends_bind (fun old hget => ?_) fun _ => Or.inl rfl
  have hheld := held?_of_run_get! hget
  obtain ⟨n, i, vs, hn, hbody, hplace, hold, -⟩ := of_run_get! hget
  have hform := h.linked.form hn
  have hknown := h.intact.items hn hbody old (List.mem_of_getElem? hold)
  obtain ⟨s₁, hrun, hreleased⟩ := h.run_releaseFrom hknown
  refine ends_bind hrun ?_
  have hready := h.after hreleased.spared hreleased.intact
  have hframed {s₂ : Store} (h₂ : Spared (s₁.Offers · v) s₁ s₂) :
      Framed l (s.Exchanged l (.int index) v) s s₂ := by
    refine ((hreleased.spared.imp fun c _ hc => ?_).trans h₂ fun c _ hc => ?_).framed l
    · exact Or.inl (hheld.trans (congrArg some (List.mem_singleton.mp hc).symm))
    · exact Or.inr (hreleased.spared.offers h.intact hv hc)
  refine ((ends_acceptItem hready (hv.mono hreleased.spared.size)).imp_error
    fun _ _ he => Or.inr ⟨he.1, hframed he.2⟩).bind fun w s₂ hw => ?_
  obtain ⟨n₁, hn₁, hform₁, hbody₁⟩ := hreleased.spared.linked hn hform
  obtain ⟨n₂, hn₂, -, hbody₂⟩ := hw.linked hn₁ hform₁
  have hbody₂ : n₂.body = .list vs := hbody₂.trans (hbody₁.trans hbody)
  exact ends_bind (run_place hn₂ hbody₂ hplace)
    (ends_bind (run_items hn₂ hbody₂) (ends_change ((hframed hw.toSpared).body _)))

theorem ends_delete (h : s.Ready l false) : Ends (delete l index) s
    (fun _ s' => Framed l (fun c => s.held? (.node l) (.int index) = some (.node c)) s s')
    (fun _ s' => s' = s) := by
  refine (reads_get! l index).ends_bind (fun old hget => ?_) fun _ => rfl
  have hheld := held?_of_run_get! hget
  obtain ⟨n, i, vs, hn, hbody, hplace, hold, -⟩ := of_run_get! hget
  have hknown := h.intact.items hn hbody old (List.mem_of_getElem? hold)
  obtain ⟨s₁, hrun, hreleased⟩ := h.run_releaseFrom hknown
  obtain ⟨n₁, hn₁, -, hbody₁⟩ := hreleased.spared.linked hn (h.linked.form hn)
  have hbody₁ : n₁.body = .list vs := hbody₁.trans hbody
  refine ends_bind hrun (ends_bind (run_items hn₁ hbody₁)
    (ends_bind (run_place hn₁ hbody₁ hplace) (ends_change ?_)))
  refine ((hreleased.spared.framed l).imp fun c _ hc => ?_).body _
  exact hheld.trans (congrArg some (List.mem_singleton.mp hc).symm)

theorem ends_pop (h : s.Ready l false) : Ends (pop l index) s
    (fun _ s' => Framed l (fun c => s.held? (.node l) (.int index) = some (.node c)) s s')
    (fun _ s' => s' = s) := by
  refine (reads_requireCountable index).ends_bind (fun _ _ => ?_) fun _ => rfl
  refine (reads_get! l index).ends_bind (fun old hget => ?_) fun _ => rfl
  have hheld := held?_of_run_get! hget
  obtain ⟨n, i, vs, hn, hbody, hplace, hold, -⟩ := of_run_get! hget
  have hvalues := h.intact.items hn hbody
  refine ends_bind (run_items hn hbody) (ends_bind (run_place hn hbody hplace) ?_)
  refine ends_bind (run_change l _ s) ?_
  have hready := h.write (n := n) (b := .list (vs.eraseIdx i)) rfl fun v hv =>
    hvalues v (List.mem_of_mem_eraseIdx hv)
  have hknown := hvalues old (List.mem_of_getElem? hold)
  obtain ⟨s₁, hrun, hreleased⟩ :=
    hready.run_releaseFrom (hknown.mono (Nat.le_of_eq (size_modify s l _).symm))
  refine ends_bind hrun (ends_pure ?_)
  refine ((Framed.refl l _ s).body _).trans (hreleased.spared.framed l) fun c _ hc => ?_
  exact hheld.trans (congrArg some (List.mem_singleton.mp hc).symm)

theorem ends_remove (h : s.Ready l false) : Ends (remove l v) s
    (fun _ s' => Framed l (fun c => ∃ i : Nat, (indexOf l v).run s = (.ok i, s) ∧
      s.held? (.node l) (.int i) = some (.node c)) s s')
    (fun _ s' => s' = s) := by
  have hindex : Ends (named l "index" (indexOf l v)) s
      (fun i s' => (indexOf l v).run s = (.ok i, s) ∧ s' = s) fun _ s' => s' = s :=
    h.ends_named ((reads_indexOf l v).ends (fun i hrun => ⟨hrun, rfl⟩) fun _ => rfl)
  refine hindex.bind fun i s₁ hs₁ => ?_
  obtain ⟨hrun, rfl⟩ := hs₁
  exact (ends_delete h).imp (fun _ s' h' => h'.imp fun c _ hc => ⟨i, hrun, hc⟩) fun _ _ he => he

theorem mem_of_mem_select {t : Span} (ht : slice.span? vs.length = some t) (hv : v ∈ t.select vs) :
    v ∈ vs :=
  (Span.perm_select_reject (Slice.within ht).nodup vs).subset (List.mem_append_left _ hv)

theorem ends_deleteSlice (h : s.Ready l false) : Ends (deleteSlice l slice) s
    (fun _ s' => Framed l (fun c => .node c ∈ s.selected l slice) s s') (fun _ s' => s' = s) := by
  refine (reads_span l slice).ends_bind (fun t hspan => ?_) fun _ => rfl
  obtain ⟨n, vs, hn, hbody, ht, -⟩ := of_run_span hspan
  have hvalues := h.intact.items hn hbody
  obtain ⟨s₁, hrun, hreleased⟩ := h.run_releaseAll fun v hv => hvalues v (mem_of_mem_select ht hv)
  obtain ⟨n₁, hn₁, -, hbody₁⟩ := hreleased.spared.linked hn (h.linked.form hn)
  refine ends_bind (run_items hn hbody) (ends_bind hrun
    (ends_bind (run_items hn₁ (hbody₁.trans hbody)) (ends_change ?_)))
  rw [selected_eq hn hbody ht]
  exact (hreleased.spared.framed l).body _

/-- What is sorted by the time when a comparison fails is written back. -/
theorem ends_insertSorted (sorted vs : List Value) : Ends (insertSorted (setItems l) sorted vs) s
    (fun _ s' => s' = s) (fun _ s' => Framed l (fun _ => False) s s') := by
  induction vs generalizing sorted with
  | nil => exact ends_pure rfl
  | cons v vs ih =>
    have hplace : Ends (placeFor v sorted.toArray (sorted.length + 1) 0 sorted.length) s
        (fun _ s' => s' = s) (fun _ s' => s' = s) :=
      (reads_placeFor v _ _ _ _).ends (fun _ _ => rfl) fun _ => rfl
    refine (hplace.tryCatch fun f s' hs' => ?_).bind fun place s' hs' => ?_
    · subst hs'
      exact ends_bind (run_change l _ _) (ends_throw ((Framed.refl l _ _).body _))
    · subst hs'
      exact ih _

theorem ends_sorted (vs : List Value) : Ends (sorted (setItems l) vs) s
    (fun _ s' => s' = s) (fun _ s' => Framed l (fun _ => False) s s') := by
  match vs with
  | [] | [_] => exact ends_pure rfl
  | v :: w :: rest =>
    refine (reads_less w v).ends_bind (fun down _ => ?_) fun _ => Framed.refl l _ s
    refine (reads_runFrom down [w, v] rest).ends_bind (fun runs _ => ?_) fun _ => Framed.refl l _ s
    exact ends_insertSorted _ _

theorem ends_sort (h : s.Ready l false) : Ends (sort l) s
    (fun _ s' => Framed l (fun _ => False) s s') (fun _ s' => Framed l (fun _ => False) s s') := by
  obtain ⟨n, vs, hn, -, hbody, -⟩ := h.items
  refine ends_bind (run_items hn hbody) ((ends_sorted vs).bind fun us s₁ hs₁ => ?_)
  subst hs₁
  exact ends_change ((Framed.refl l _ _).body _)

end ListNode

namespace Store

variable {s s₁ s₂ s' : Store} {m l : Ref} {vs old new : List Value} {v : Value} {f : StoreFault}
  {bindItem : ListNode.BindItem}

theorem Released.halfDone (h : Released s old s₁) (hs : s.Intact) (hnew : ∀ v ∈ new, s.Knows v)
    (hspared : Spared (fun c => ∃ v ∈ new, s₁.Offers c v) s₁ s₂) : HalfDone s old new s₂ := by
  have hoffers : ∀ c v, v ∈ new → s₁.Offers c v → s.Offers c v :=
    fun c v hv hc => h.spared.offers hs (hnew v hv) hc
  refine ⟨(h.spared.imp fun c _ hc => Or.inl hc).trans hspared ?_, fun c hc hmem hnot => ?_⟩
  · rintro c - ⟨v, hv, hc⟩
    exact Or.inr ⟨v, hv, hoffers c v hv hc⟩
  · rw [hspared.parent_eq (Nat.lt_of_lt_of_le hc.lt h.spared.size)]
    · exact h.parents c hc hmem
    · rintro ⟨v, hv, hoffered⟩
      exact hnot v hv (hoffers c v hv hoffered)

/-- An assignment to a slice that fails has already released the old items. -/
theorem Ready.ends_setSlice (h : s.Ready l false) {slice : Slice}
    (hgiven : ∀ vs, (elements v).run s = (.ok vs, s) → vs = new) (hnew : ∀ v ∈ new, s.Knows v) :
    Ends (ListNode.setSlice bindItem l slice v) s
      (fun _ s' =>
        Framed l (fun c => .node c ∈ s.selected l slice ∨ ∃ v ∈ new, s.Offers c v) s s')
      (fun _ s' => s' = s ∨ s.HalfDone (s.selected l slice) new s') := by
  refine (ListNode.reads_span l slice).ends_bind (fun t hspan => ?_) fun f => Or.inl rfl
  obtain ⟨n, xs, hn, hbody, ht, -⟩ := ListNode.of_run_span hspan
  rw [selected_eq hn hbody ht]
  have hvalues := h.intact.items hn hbody
  obtain ⟨s₁, hrun, hreleased⟩ :=
    h.run_releaseAll fun v hv => hvalues v (ListNode.mem_of_mem_select ht hv)
  refine ends_bind (run_items hn hbody) (ends_bind hrun ?_)
  refine (reads_elements v).ends_bind (fun vs helements => ?_) fun f =>
    Or.inr (hreleased.halfDone h.intact hnew (Spared.refl _ s₁))
  obtain rfl := hgiven vs (hreleased.relinked.elements helements)
  have hready := h.after hreleased.spared hreleased.intact
  refine ((ListNode.ends_acceptItems hready fun v hv =>
    (hnew v hv).mono hreleased.spared.size).imp_error fun _ _ he =>
      Or.inr (hreleased.halfDone h.intact hnew he.2)).bind fun ws s₂ hspared => ?_
  have hhalf := hreleased.halfDone h.intact hnew hspared
  obtain ⟨n₁, hn₁, hform₁, hbody₁⟩ := hreleased.spared.linked hn (h.linked.form hn)
  obtain ⟨n₂, hn₂, -, hbody₂⟩ := hspared.linked hn₁ hform₁
  have hbody₂ : n₂.body = .list xs := hbody₂.trans (hbody₁.trans hbody)
  refine ends_bind (ListNode.run_span hn₂ hbody₂ ht) (ends_bind (run_items hn₂ hbody₂) ?_)
  cases t.replace? xs ws with
  | none => exact ends_throw (Or.inr hhalf)
  | some ys => exact ends_change ((hhalf.framed l).body _)

/-- An insertion that fails has already linked the new item. -/
theorem Ready.ends_insert (h : s.Ready l false) {index : Int} (hv : s.Knows v) :
    Ends (ListNode.insert bindItem l index v) s (fun _ s' => Framed l (s.Offers · v) s s')
      (fun _ s' => s.HalfDone [] [v] s') := by
  obtain ⟨n, vs, hn, hform, hbody, -⟩ := h.items
  have hhalf {s₁ : Store} (hspared : Spared (s.Offers · v) s s₁) : s.HalfDone [] [v] s₁ :=
    (Released.nil h.intact).halfDone h.intact (by simpa using hv)
      (hspared.imp fun c _ hc => ⟨v, by simp, hc⟩)
  refine ((ListNode.ends_acceptItem h hv).imp_error fun _ _ he => hhalf he.2).bind
    fun w s₁ hw => ?_
  obtain ⟨n₁, hn₁, -, hbody₁⟩ := hw.linked hn hform
  refine (ListNode.reads_requireCountable index).ends_bind (fun _ _ => ?_) fun _ =>
    hhalf hw.toSpared
  exact ends_bind (run_items hn₁ (hbody₁.trans hbody))
    (ends_change ((hw.toSpared.framed l).body _))

end Store
end Exemplar
