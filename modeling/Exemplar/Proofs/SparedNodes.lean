import Exemplar.Proofs.ContainerChanges
import Exemplar.Proofs.RunOutcomes

/-! Making values fit to be held, in any store. Whatever linked containers the values show, no content
is changed, and no link but those of the shown containers. It only fails if it does not end. -/
namespace Exemplar
open StoreM Value

namespace Store

def Knows (s : Store) : Value → Prop
  | .node r => r < s.nodes.size
  | .pair _ v => s.Knows v
  | _ => True

/-- Every container is plain, or linked with nothing set on it, and what it holds is there. -/
structure Intact (s : Store) : Prop where
  ordinary : s.Ordinary
  closed : ∀ r n, s.get? r = some n → ∀ v ∈ n.values, s.Knows v

/-- A linked container comes up in a value, at the top or inside plain data. -/
inductive Offers (s : Store) (c : Ref) : Value → Prop
  | node (linked : s.IsLinked c) : Offers s c (.node c)
  | pair {k : Scalar} {v : Value} (part : Offers s c v) : Offers s c (.pair k v)
  | inside {r : Ref} {n : Node} {v : Value} (found : s.get? r = some n) (plain : n.form = .plain)
    (held : v ∈ n.values) (part : Offers s c v) : Offers s c (.node r)

/-- All containers are still there as they were, but for the links of some linked ones. -/
structure Spared (touched : Ref → Prop) (s s' : Store) : Prop where
  size : s.nodes.size ≤ s'.nodes.size
  old : ∀ r n, s.get? r = some n →
    ∃ q, s'.get? r = some { n with parent := q } ∧ (¬ touched r ∨ n.form = .plain → q = n.parent)

/-- An operation was given up, because it did not end. Until then it only changed links. -/
def Stopped (touched : Ref → Prop) (s : Store) (f : StoreFault) (s' : Store) : Prop :=
  f = .endless ∧ Spared touched s s'

def Drawn (s : Store) (given : Ref → Prop) (vs : List Value) : Prop :=
  ∀ c, .node c ∈ vs → c < s.nodes.size → given c

/-- What came is linked, and of what was there it holds only given nodes. -/
def Stocked (given : Ref → Prop) (s s' : Store) : Prop :=
  ∀ r n, s.nodes.size ≤ r → s'.get? r = some n → n.form = .linked ∧ s.Drawn given n.values

structure Fitted (s : Store) (v w : Value) (s' : Store) : Prop
    extends Spared (s.Offers · v) s s' where
  intact : s'.Intact
  known : s'.Knows w
  made : s.Drawn (s.Offers · v) [w]
  new : Stocked (s.Offers · v) s s'

/-- A new map or list is being filled with what was made of values. -/
structure Copying (s : Store) (vs : List Value) (m : Ref) (isMap : Bool) (s' : Store) : Prop
    extends Spared (fun c => ∃ v ∈ vs, s.Offers c v) s s' where
  intact : s'.Intact
  new : Stocked (fun c => ∃ v ∈ vs, s.Offers c v) s s'
  later : s.nodes.size ≤ m
  target : ∃ n, s'.get? m = some n ∧ n.form = .linked ∧ n.isMap = isMap

variable {s s₁ s₂ : Store} {touched touched' given given' : Ref → Prop} {m c r : Ref} {n : Node}
  {v w : Value} {vs ws : List Value} {b : Body} {isMap : Bool}

theorem Knows.mono (hv : s.Knows v) (hsize : s.nodes.size ≤ s₁.nodes.size) : s₁.Knows v := by
  induction v with
  | node r => exact Nat.lt_of_lt_of_le hv hsize
  | pair k v ih => exact ih hv
  | _ => trivial

theorem Knows.found (hr : s.Knows (.node r)) : ∃ n, s.get? r = some n := by
  cases hn : s.get? r with
  | some n => exact ⟨n, rfl⟩
  | none => exact absurd hr (Nat.not_lt.mpr (le_of_get?_none hn))

theorem Ordinary.isLinked (h : s.Ordinary) (hn : s.get? r = some n) (hform : n.form ≠ .plain) :
    s.IsLinked r := by
  rcases h r n hn with hplain | ⟨hlinked, -⟩
  · exact absurd hplain hform
  · exact ⟨n, hn, hlinked⟩

theorem Intact.link (h : s.Intact) (c : Ref) (q : Option Ref) :
    (s.modify c (linkedTo q)).Intact where
  ordinary := h.ordinary.link c q
  closed r n' hn' v hv := by
    obtain ⟨n, hn, rfl⟩ := get?_modify hn'
    have hsame : (if r = c then linkedTo q n else n).values = n.values := by
      split <;> rfl
    rw [hsame] at hv
    exact (h.closed r n hn v hv).mono (Nat.le_of_eq (size_modify s c _).symm)

theorem Intact.body (h : s.Intact) (hb : ∀ v ∈ Node.values { n with body := b }, s.Knows v)
    (m : Ref) : (s.modify m fun n => { n with body := b }).Intact where
  ordinary := h.ordinary.body m b
  closed r n' hn' v hv := by
    refine Knows.mono ?_ (Nat.le_of_eq (size_modify s m _).symm)
    obtain ⟨n₀, hn₀, rfl⟩ := get?_modify hn'
    split at hv
    · exact hb v hv
    · exact h.closed r n₀ hn₀ v hv

theorem Intact.add (h : s.Intact) (hempty : Node.values { body := b, form := .linked } = []) :
    (s.add { body := b, form := .linked }).2.Intact where
  ordinary r n hn := by
    rw [get?_add] at hn
    split at hn
    · obtain rfl := Option.some.inj hn
      exact Or.inr ⟨rfl, rfl⟩
    · exact h.ordinary r n hn
  closed r n hn v hv := by
    rw [get?_add] at hn
    split at hn
    · obtain rfl := Option.some.inj hn
      simp [hempty] at hv
    · refine (h.closed r n hn v hv).mono ?_
      rw [size_add]
      exact Nat.le_succ _

theorem Spared.refl (touched : Ref → Prop) (s : Store) : Spared touched s s :=
  ⟨Nat.le_refl _, fun _ n hn => ⟨n.parent, hn, fun _ => rfl⟩⟩

theorem Spared.trans (h : Spared touched s s₁) (h' : Spared touched' s₁ s₂)
    (hsub : ∀ c, c < s.nodes.size → touched' c → touched c) : Spared touched s s₂ where
  size := Nat.le_trans h.size h'.size
  old r n hn := by
    obtain ⟨q, hq, hsame⟩ := h.old r n hn
    obtain ⟨q', hq', hsame'⟩ := h'.old r _ hq
    refine ⟨q', hq', fun hkept => ?_⟩
    rw [← hsame hkept]
    exact hsame' (hkept.imp_left fun hnot ht => hnot (hsub r (get?_lt hn) ht))

theorem Spared.imp (h : Spared touched s s₁) (hsub : ∀ c, c < s.nodes.size → touched c → touched' c) :
    Spared touched' s s₁ :=
  (Spared.refl touched' s).trans h hsub

theorem Spared.same (h : Spared touched s s₁) (hn : s.get? r = some n) :
    ∃ q, s₁.get? r = some { n with parent := q } := by
  obtain ⟨q, hq, -⟩ := h.old r n hn
  exact ⟨q, hq⟩

theorem Spared.linked (h : Spared touched s s₁) (hn : s.get? m = some n) (hform : n.form = .linked) :
    ∃ n₁, s₁.get? m = some n₁ ∧ n₁.form = .linked ∧ n₁.body = n.body := by
  obtain ⟨q, hq, -⟩ := h.old m n hn
  exact ⟨_, hq, hform, rfl⟩

theorem Spared.parent_eq (h : Spared touched s s₁) (hc : c < s.nodes.size) (hnot : ¬ touched c) :
    s₁.parent? c = s.parent? c := by
  obtain ⟨n, hn⟩ := Knows.found (s := s) (r := c) hc
  obtain ⟨q, hq, hsame⟩ := h.old c n hn
  rw [parent?, parent?, hn, hq]
  exact hsame (Or.inl hnot)

/-- What came since then may be changed. -/
theorem Spared.modify_later (h : Spared touched s s₁) (hm : s.nodes.size ≤ m) (f : Node → Node) :
    Spared touched s (s₁.modify m f) where
  size := by
    rw [size_modify]
    exact h.size
  old r n hn := by
    rw [get?_modify_ne (Nat.ne_of_lt (Nat.lt_of_lt_of_le (get?_lt hn) hm))]
    exact h.old r n hn

theorem spared_add (touched : Ref → Prop) (s : Store) (n : Node) :
    Spared touched s (s.add n).2 where
  size := by
    rw [size_add]
    exact Nat.le_succ _
  old r n' hn' := ⟨n'.parent, (get?_add_lt (get?_lt hn')).trans hn', fun _ => rfl⟩

theorem spared_link (h : s.Ordinary) (hc : s.IsLinked c) (q : Option Ref) :
    Spared (· = c) s (s.modify c (linkedTo q)) where
  size := Nat.le_of_eq (size_modify s c _).symm
  old r n hn := by
    obtain ⟨q', hq', hplain⟩ := (relinked_link h hc q).old r n hn
    refine ⟨q', hq', fun hkept => ?_⟩
    rcases hkept with hrc | hform
    · rw [get?_modify_ne hrc, hn] at hq'
      exact (congrArg Node.parent (Option.some.inj hq')).symm
    · exact hplain hform

theorem Drawn.append (hvs : s.Drawn given vs) (hws : s.Drawn given ws) : s.Drawn given (vs ++ ws) :=
  fun c hc => (List.mem_append.mp hc).elim (hvs c) (hws c)

/-- Nodes that were drawn later were drawn from the start, if those that were given then were. -/
theorem Drawn.since (h : s₁.Drawn given' vs) (hsize : s.nodes.size ≤ s₁.nodes.size)
    (hsub : ∀ c, c < s.nodes.size → given' c → given c) : s.Drawn given vs :=
  fun c hmem hc => hsub c hc (h c hmem (Nat.lt_of_lt_of_le hc hsize))

theorem stocked_refl (given : Ref → Prop) (s : Store) : Stocked given s s :=
  fun _ _ hr hn => absurd (get?_lt hn) (Nat.not_lt.mpr hr)

theorem Stocked.trans (h : Stocked given s s₁) (h' : Stocked given' s₁ s₂)
    (hsame : ∀ r n, s.nodes.size ≤ r → s₁.get? r = some n →
      ∃ q, s₂.get? r = some { n with parent := q })
    (hsize : s.nodes.size ≤ s₁.nodes.size)
    (hsub : ∀ c, c < s.nodes.size → given' c → given c) : Stocked given s s₂ := by
  intro r n hr hn
  cases hn₁ : s₁.get? r with
  | some n₁ =>
    obtain ⟨q, hq⟩ := hsame r n₁ hr hn₁
    obtain rfl := Option.some.inj (hq.symm.trans hn)
    exact h r n₁ hr hn₁
  | none =>
    obtain ⟨hform, hdrawn⟩ := h' r n (le_of_get?_none hn₁) hn
    exact ⟨hform, hdrawn.since hsize hsub⟩

theorem Stocked.imp (h : Stocked given s s₁) (hsub : ∀ c, c < s.nodes.size → given c → given' c) :
    Stocked given' s s₁ :=
  fun r n hr hn => ⟨(h r n hr hn).1, fun c hmem hc => hsub c hc ((h r n hr hn).2 c hmem hc)⟩

theorem Stocked.link (h : Stocked given s s₁) (c : Ref) (q : Option Ref) :
    Stocked given s (s₁.modify c (linkedTo q)) := by
  intro r n' hr hn'
  obtain ⟨n, hn, rfl⟩ := get?_modify hn'
  have hold := h r n hr hn
  split <;> exact hold

theorem Stocked.body (h : Stocked given s s₁) (hn : s₁.get? m = some n)
    (hb : s.nodes.size ≤ m → s.Drawn given (Node.values { n with body := b })) :
    Stocked given s (s₁.modify m fun n => { n with body := b }) := by
  intro r n' hr hn'
  obtain ⟨n₀, hn₀, rfl⟩ := get?_modify hn'
  split
  · next hrm =>
    subst hrm
    exact ⟨(h r n₀ hr hn₀).1, hb hr⟩
  · exact h r n₀ hr hn₀

theorem stocked_add (given : Ref → Prop) (s : Store)
    (hempty : Node.values { body := b, form := .linked } = []) :
    Stocked given s (s.add { body := b, form := .linked }).2 := by
  intro r n hr hn
  rw [get?_add] at hn
  split at hn
  · obtain rfl := Option.some.inj hn
    refine ⟨rfl, fun c hmem _ => ?_⟩
    rw [hempty] at hmem
    cases hmem
  · exact absurd (get?_lt hn) (Nat.not_lt.mpr hr)

/-- What is shown by a value that was there before was shown by it from the start. -/
theorem Spared.offers (h : Spared touched s s₁) (hs : s.Intact) (hv : s.Knows v)
    (hc : s₁.Offers c v) : s.Offers c v := by
  induction hc with
  | node hlinked =>
    obtain ⟨n, hn⟩ := hv.found
    obtain ⟨q, hq, -⟩ := h.old c n hn
    have hform := hlinked.form hq
    exact .node ⟨n, hn, hform⟩
  | pair _ ih => exact .pair (ih hv)
  | @inside r n₁ v hfound hplain hheld _ ih =>
    obtain ⟨n, hn⟩ := hv.found
    obtain ⟨q, hq, -⟩ := h.old r n hn
    obtain rfl := Option.some.inj (hq.symm.trans hfound)
    exact .inside hn hplain hheld (ih (hs.closed r n hn v hheld))

theorem Copying.write (h : Copying s vs m isMap s₁) (hs : s.Intact) (hv : v ∈ vs) (hknown : s.Knows v)
    (hw : Fitted s₁ v w s₂) (hn : s₂.get? m = some n)
    (hmap : Node.isMap { n with body := b } = isMap)
    (hb : ∀ x ∈ Node.values { n with body := b }, x = w ∨ x ∈ n.values) :
    Copying s vs m isMap (s₂.modify m fun n => { n with body := b }) where
  toSpared := by
    refine (h.toSpared.trans hw.toSpared fun c _ hc => ?_).modify_later h.later _
    exact ⟨v, hv, h.toSpared.offers hs hknown hc⟩
  intact := by
    refine hw.intact.body (n := n) (fun x hx => ?_) m
    rcases hb x hx with rfl | hold
    · exact hw.known
    · exact hw.intact.closed m n hn x hold
  new := by
    have hgiven : ∀ c, c < s.nodes.size → s₁.Offers c v → ∃ v ∈ vs, s.Offers c v :=
      fun c _ hc => ⟨v, hv, h.toSpared.offers hs hknown hc⟩
    have hnew := h.new.trans hw.new (fun r n _ hn => hw.same hn) h.size hgiven
    refine hnew.body hn fun _ c hmem => ?_
    rcases hb _ hmem with hmade | hold
    · exact hw.made.since h.size hgiven c (List.mem_singleton.mpr hmade)
    · exact (hnew m n h.later hn).2 c hold
  later := h.later
  target := by
    obtain ⟨n₁, hn₁, hform, -⟩ := h.target
    obtain ⟨n₂, hn₂, hform₂, -⟩ := hw.linked hn₁ hform
    obtain rfl := Option.some.inj (hn.symm.trans hn₂)
    exact ⟨_, get?_modify_self hn _, hform₂, hmap⟩

theorem copying_add (h : s.Intact) (vs : List Value) (b : Body)
    (hempty : Node.values { body := b, form := .linked } = [])
    (hmap : Node.isMap { body := b, form := .linked } = isMap) :
    Copying s vs s.nodes.size isMap (s.add { body := b, form := .linked }).2 where
  toSpared := spared_add _ s _
  intact := h.add hempty
  new := stocked_add _ s hempty
  later := Nat.le_refl _
  target := ⟨_, by rw [get?_add, if_pos rfl], rfl, hmap⟩

theorem Copying.stopped (h : Copying s vs m isMap s₁) (hs : s.Intact) (hv : v ∈ vs)
    (hknown : s.Knows v) {f : StoreFault} (he : Stopped (s₁.Offers · v) s₁ f s₂) :
    Stopped (fun c => ∃ v ∈ vs, s.Offers c v) s f s₂ :=
  ⟨he.1, h.toSpared.trans he.2 fun _ _ hc => ⟨v, hv, h.toSpared.offers hs hknown hc⟩⟩

section

variable {prepare : Value → StoreM Value}
  (hprepare : ∀ s v, s.Intact → s.Knows v →
    Ends (prepare v) s (Fitted s v) (Stopped (s.Offers · v) s))
include hprepare

theorem ends_storeEntries {es : List (Scalar × Value)} (hes : ∀ e ∈ es, e.2 ∈ vs ∧ s.Knows e.2)
    (hs : s.Intact) (h : Copying s vs m true s₁) :
    Ends (storeEntries prepare m es) s₁ (fun _ s' => Copying s vs m true s')
      (Stopped (fun c => ∃ v ∈ vs, s.Offers c v) s) := by
  induction es generalizing s₁ with
  | nil => exact ends_pure h
  | cons e es ih =>
    obtain ⟨key, v⟩ := e
    obtain ⟨hmem, hknown⟩ := hes (key, v) (by simp)
    refine ((hprepare s₁ v h.intact (hknown.mono h.size)).imp_error fun f s' he =>
      h.stopped hs hmem hknown he).bind fun w s₂ hw => ?_
    obtain ⟨n₁, hn₁, hform, hmap⟩ := h.target
    obtain ⟨n, hn, -, hsame⟩ := hw.linked hn₁ hform
    rw [Node.isMap, ← hsame] at hmap
    cases hbody : n.body with
    | list us =>
      rw [hbody] at hmap
      cases hmap
    | map fs =>
      have hwrite : (writeEntry m key w).run s₂ =
          (.ok (), s₂.modify m fun n => { n with body := .map (fs.insert key w) }) := by
        rw [writeEntry, run_bind (run_entries hn hbody)]
        rfl
      refine ends_bind hwrite (ih (fun e he => hes e (by simp [he])) ?_)
      refine h.write hs hmem hknown hw hn rfl fun x hx => ?_
      rw [Node.values, hbody]
      rcases Assoc.split_at fs key with ⟨before, k, a, after, rfl, -, -, hinsert⟩ | ⟨-, hinsert⟩
      all_goals
        simp only [Node.values, hinsert, List.map_append, List.map_cons, List.map_nil,
          List.mem_append, List.mem_cons, List.not_mem_nil] at hx ⊢
        tauto

theorem ends_storeItems {us : List Value} (hus : ∀ u ∈ us, u ∈ vs ∧ s.Knows u) (hs : s.Intact)
    (h : Copying s vs m false s₁) :
    Ends (storeItems prepare m us) s₁ (fun _ s' => Copying s vs m false s')
      (Stopped (fun c => ∃ v ∈ vs, s.Offers c v) s) := by
  induction us generalizing s₁ with
  | nil => exact ends_pure h
  | cons v us ih =>
    obtain ⟨hmem, hknown⟩ := hus v (by simp)
    refine ((hprepare s₁ v h.intact (hknown.mono h.size)).imp_error fun f s' he =>
      h.stopped hs hmem hknown he).bind fun w s₂ hw => ?_
    obtain ⟨n₁, hn₁, hform, hmap⟩ := h.target
    obtain ⟨n, hn, -, hsame⟩ := hw.linked hn₁ hform
    rw [Node.isMap, ← hsame] at hmap
    cases hbody : n.body with
    | map fs =>
      rw [hbody] at hmap
      cases hmap
    | list xs =>
      refine ends_bind (run_items hn hbody) (ends_bind (run_change m _ s₂) ?_)
      refine ih (fun u hu => hus u (by simp [hu])) (h.write hs hmem hknown hw hn rfl fun x hx => ?_)
      rw [Node.values, hbody]
      simpa [Node.values, or_comm] using hx

end

/-- A filled container is linked to its holder. -/
theorem Copying.ends_link (h : Copying s vs m isMap s₁) (p : Option Ref) {v : Value}
    (hvs : ∀ c, (∃ u ∈ vs, s.Offers c u) → s.Offers c v) :
    Ends (do link m p; return .node m : StoreM Value) s₁ (Fitted s v)
      (Stopped (s.Offers · v) s) := by
  obtain ⟨n, hn, hform, -⟩ := h.target
  refine ends_bind (run_link_ordinary h.intact.ordinary ⟨n, hn, hform⟩ p) (ends_pure ?_)
  refine ⟨(h.toSpared.imp fun c _ => hvs c).modify_later h.later _, h.intact.link m p, ?_, ?_,
    (h.new.imp fun c _ => hvs c).link m p⟩
  · change m < (s₁.modify m (linkedTo p)).nodes.size
    rw [size_modify]
    exact get?_lt hn
  · intro c hmem hc
    obtain rfl := Value.node.inj (List.mem_singleton.mp hmem)
    exact absurd hc (Nat.not_lt.mpr h.later)

/-- Plain data is copied with what it shows, and a linked container is linked to its new holder. -/
theorem ends_adopt (fuel : Nat) (hs : s.Intact) (hv : s.Knows v) (p : Option Ref) :
    Ends (adopt fuel v p) s (Fitted s v) (Stopped (s.Offers · v) s) := by
  induction fuel generalizing s v p with
  | zero => exact ends_throw ⟨rfl, Spared.refl _ s⟩
  | succ fuel ih =>
    have hprepare (q : Option Ref) : ∀ s v, s.Intact → s.Knows v →
        Ends (adopt fuel v q) s (Fitted s v) (Stopped (s.Offers · v) s) :=
      fun _ _ hs hv => ih hs hv q
    -- the items of lists and the parts of pairs are copied alike
    have hlist (us : List Value) (hus : ∀ u ∈ us, s.Knows u)
        (hoffers : ∀ c, (∃ u ∈ us, s.Offers c u) → s.Offers c v) : Ends (do
          let l ← StoreM.add { body := .list [], form := .linked }
          storeItems (fun u => adopt fuel u (some l)) l us
          link l p
          return .node l : StoreM Value) s (Fitted s v) (Stopped (s.Offers · v) s) := by
      have hadd : (StoreM.add { body := .list [], form := .linked }).run s =
          (.ok s.nodes.size, (s.add { body := .list [], form := .linked }).2) := rfl
      refine ends_bind hadd ?_
      refine ((ends_storeItems (hprepare _) (fun u hu => ⟨hu, hus u hu⟩) hs
        (copying_add hs us (.list []) rfl rfl)).imp_error fun _ _ he =>
          ⟨he.1, he.2.imp fun c _ => hoffers c⟩).bind fun _ s₁ hfilled => ?_
      exact hfilled.ends_link p hoffers
    cases v with
    | node r =>
      obtain ⟨n, hn⟩ := hv.found
      have hclosed := hs.closed r n hn
      rw [adopt]
      refine ends_bind (run_node hn) ?_
      by_cases hform : n.form = .plain
      · have hinside : ∀ c, (∃ u ∈ n.values, s.Offers c u) → s.Offers c (.node r) := by
          rintro c ⟨u, hu, hc⟩
          exact .inside hn hform hu hc
        simp only [hform, BEq.rfl, if_true]
        cases hbody : n.body with
        | list us =>
          have hvalues : n.values = us := by rw [Node.values, hbody]
          rw [hvalues] at hclosed hinside
          exact hlist us hclosed hinside
        | map es =>
          have hvalues : n.values = es.map Prod.snd := by rw [Node.values, hbody]
          rw [hvalues] at hclosed hinside
          have hadd : (StoreM.add { body := .map [], form := .linked }).run s =
              (.ok s.nodes.size, (s.add { body := .map [], form := .linked }).2) := rfl
          refine ends_bind hadd ?_
          refine ((ends_storeEntries (hprepare _) (fun e he => ?_) hs
            (copying_add hs (es.map Prod.snd) (.map []) rfl rfl)).imp_error fun _ _ he =>
              ⟨he.1, he.2.imp fun c _ => hinside c⟩).bind fun _ s₁ hfilled => ?_
          · have hmem := List.mem_map_of_mem (f := Prod.snd) he
            exact ⟨hmem, hclosed _ hmem⟩
          · exact hfilled.ends_link p hinside
      · have hlinked := hs.ordinary.isLinked hn hform
        have hnot : (n.form == .plain) = false := by simpa using hform
        simp only [hnot, Bool.false_eq_true, if_false]
        refine ends_bind (run_link_ordinary hs.ordinary hlinked p) (ends_pure ?_)
        refine ⟨(spared_link hs.ordinary hlinked p).imp ?_, hs.link r p, ?_, ?_,
          (stocked_refl _ s).link r p⟩
        · rintro c - rfl
          exact .node hlinked
        · exact hv.mono (Nat.le_of_eq (size_modify s r _).symm)
        · intro c hmem _
          obtain rfl := Value.node.inj (List.mem_singleton.mp hmem)
          exact .node hlinked
    | pair k u =>
      refine hlist [.scalar k, u] ?_ ?_
      · intro w hw
        rcases List.mem_cons.mp hw with rfl | hw
        · trivial
        · obtain rfl := List.mem_singleton.mp hw
          exact hv
      · rintro c ⟨w, hw, hc⟩
        rcases List.mem_cons.mp hw with rfl | hw
        · cases hc
        · obtain rfl := List.mem_singleton.mp hw
          exact .pair hc
    | _ =>
      refine ends_pure ⟨Spared.refl _ s, hs, hv, fun c hmem _ => ?_, stocked_refl _ s⟩
      cases List.mem_singleton.mp hmem

end Store
end Exemplar
