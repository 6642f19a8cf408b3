import Exemplar.Proofs.Adoption

/-! Steps of a change to a linked container: a value is made fit to be held and joins the values that
the container is to hold, or is released and leaves them. -/
namespace Exemplar
open StoreM Value

namespace Store

/-- A node that no linked container holds. -/
def Free (s : Store) (c : Ref) : Prop := ∀ r, ¬ s.Holds r (.node c)

/-- All containers are still there as they were, but for the links of linked ones; what came is linked
and holds only what came behind it. -/
structure Kept (s s' : Store) : Prop where
  size : s.nodes.size ≤ s'.nodes.size
  old : ∀ r n, s.get? r = some n →
    ∃ q, s'.get? r = some { n with parent := q } ∧ (n.form = .plain → q = n.parent)
  own : ∀ r n c, s.nodes.size ≤ r → s'.get? r = some n → .node c ∈ n.values → r < c
  new : ∀ r n, s.nodes.size ≤ r → s'.get? r = some n → n.form = .linked

variable {s s₁ s₂ : Store} {m p c r : Ref} {n : Node} {v w : Value} {vs ws : List Value}

theorem Kept.refl (s : Store) : Kept s s :=
  ⟨Nat.le_refl _, fun _ n hn => ⟨n.parent, hn, fun _ => rfl⟩,
    fun _ _ _ hr hn => absurd (get?_lt hn) (Nat.not_lt.mpr hr),
    fun _ _ hr hn => absurd (get?_lt hn) (Nat.not_lt.mpr hr)⟩

theorem Kept.trans (h : Kept s s₁) (h' : Kept s₁ s₂) : Kept s s₂ where
  size := Nat.le_trans h.size h'.size
  old r n hn := by
    obtain ⟨q, hq, hplain⟩ := h.old r n hn
    obtain ⟨q', hq', hplain'⟩ := h'.old r _ hq
    exact ⟨q', hq', fun hform => (hplain' hform).trans (hplain hform)⟩
  own r n c hr hn hmem := by
    rcases Nat.lt_or_ge r s₁.nodes.size with hlt | hge
    · cases hn₁ : s₁.get? r with
      | none => exact absurd hlt (Nat.not_lt.mpr (le_of_get?_none hn₁))
      | some n₁ =>
        obtain ⟨q, hq, -⟩ := h'.old r n₁ hn₁
        obtain rfl := Option.some.inj (hq.symm.trans hn)
        exact h.own r n₁ c hr hn₁ hmem
    · exact h'.own r n c hge hn hmem
  new r n hr hn := by
    rcases Nat.lt_or_ge r s₁.nodes.size with hlt | hge
    · cases hn₁ : s₁.get? r with
      | none => exact absurd hlt (Nat.not_lt.mpr (le_of_get?_none hn₁))
      | some n₁ =>
        obtain ⟨q, hq, -⟩ := h'.old r n₁ hn₁
        obtain rfl := Option.some.inj (hq.symm.trans hn)
        exact h.new r n₁ hr hn₁
    · exact h'.new r n hge hn

theorem Grown.ordinary (h : Grown s s₁) (hs : s.Ordinary) : s₁.Ordinary := by
  intro r n hn
  rcases Nat.lt_or_ge r s.nodes.size with hlt | hge
  · rw [h.old r hlt] at hn
    exact hs r n hn
  · obtain ⟨hform, hset, -⟩ := h.new r n hge hn
    exact Or.inr ⟨hform, hset⟩

/-- What is settled in the containers that were there is settled in all. -/
theorem Grown.settled_at (h : Grown s s₁) (hn : s₁.get? r = some n)
    (hold : s.get? r = some n → s.Settled r n.values) : s₁.Settled r n.values := by
  rcases Nat.lt_or_ge r s.nodes.size with hlt | hge
  · rw [h.old r hlt] at hn
    exact h.settled (hold hn)
  · exact (h.new r n hge hn).2.2

theorem Grown.sound (h : Grown s s₁) (hs : s.Sound) : s₁.Sound where
  ordinary := h.ordinary hs.ordinary
  settled r n hn hform := h.settled_at hn fun hn => hs.settled r n hn hform

theorem Grown.kept (h : Grown s s₁) : Kept s s₁ :=
  ⟨h.size, fun _ n hn => ⟨n.parent, h.found hn, fun _ => rfl⟩, h.own, fun r n hr hn => (h.new r n hr hn).1⟩

theorem Kept.isLinked (h : Kept s s₁) (hc : s.IsLinked c) : s₁.IsLinked c := by
  obtain ⟨n, hn, hform⟩ := hc
  obtain ⟨q, hq, -⟩ := h.old c n hn
  exact ⟨_, hq, hform⟩

theorem Kept.still_holds (h : Kept s s₁) (hr : s.Holds r v) : s₁.Holds r v := by
  obtain ⟨n, hn, hform, hmem⟩ := hr
  obtain ⟨q, hq, -⟩ := h.old r n hn
  exact ⟨_, hq, hform, hmem⟩

/-- What is held by a container that was there is held by it from the start. -/
theorem Kept.holds (h : Kept s s₁) (hc : c < s.nodes.size) (hr : s₁.Holds r (.node c)) :
    s.Holds r (.node c) := by
  obtain ⟨n₁, hn₁, hform, hmem⟩ := hr
  cases hn : s.get? r with
  | none =>
    have hge := le_of_get?_none hn
    exact absurd hc (Nat.not_lt.mpr (Nat.le_trans hge (Nat.le_of_lt (h.own r n₁ c hge hn₁ hmem))))
  | some n =>
    obtain ⟨q, hq, -⟩ := h.old r n hn
    obtain rfl := Option.some.inj (hq.symm.trans hn₁)
    exact ⟨n, hn, hform, hmem⟩

/-- The plain containers are those that were there. -/
theorem Kept.plain_before (h : Kept s s₁) (hn : s₁.get? r = some n) (hform : n.form = .plain) :
    s.get? r = some n := by
  cases hold : s.get? r with
  | none =>
    have hlinked := h.new r n (le_of_get?_none hold) hn
    rw [hform] at hlinked
    cases hlinked
  | some k =>
    obtain ⟨q, hq, hsame⟩ := h.old r k hold
    obtain rfl := Option.some.inj (hq.symm.trans hn)
    rw [hsame hform]

theorem IsLinked.found (h : s.Ordinary) (hc : s.IsLinked c) :
    ∃ n, s.get? c = some n ∧ n.form = .linked ∧ n.attributes = [] := by
  obtain ⟨n, hn, hform⟩ := hc
  rcases h c n hn with hplain | ⟨-, hset⟩
  · rw [hform] at hplain
    cases hplain
  · exact ⟨n, hn, hform, hset⟩

theorem run_link_ordinary (h : s.Ordinary) (hc : s.IsLinked c) (q : Option Ref) :
    (link c q).run s = (.ok (), s.modify c (linkedTo q)) := by
  obtain ⟨n, hn, hform, hset⟩ := hc.found h
  exact StoreM.run_link hn (by rw [hform]; trivial) hset q

structure Relinked (s s' : Store) : Prop where
  size : s'.nodes.size = s.nodes.size
  enums : s'.enums = s.enums
  old : ∀ r n, s.get? r = some n →
    ∃ q, s'.get? r = some { n with parent := q } ∧ (n.form = .plain → q = n.parent)

theorem Relinked.refl (s : Store) : Relinked s s :=
  ⟨rfl, rfl, fun _ n hn => ⟨n.parent, hn, fun _ => rfl⟩⟩

theorem Relinked.trans (h : Relinked s s₁) (h' : Relinked s₁ s₂) : Relinked s s₂ where
  size := h'.size.trans h.size
  enums := h'.enums.trans h.enums
  old r n hn := by
    obtain ⟨q, hq, hplain⟩ := h.old r n hn
    obtain ⟨q', hq', hplain'⟩ := h'.old r _ hq
    exact ⟨q', hq', fun hform => (hplain' hform).trans (hplain hform)⟩

theorem Relinked.kept (h : Relinked s s₁) : Kept s s₁ where
  size := Nat.le_of_eq h.size.symm
  old := h.old
  own r n c hr hn _ := by
    rw [← h.size] at hr
    exact absurd (get?_lt hn) (Nat.not_lt.mpr hr)
  new r n hr hn := by
    rw [← h.size] at hr
    exact absurd (get?_lt hn) (Nat.not_lt.mpr hr)

theorem relinked_link (h : s.Ordinary) (hc : s.IsLinked c) (q : Option Ref) :
    Relinked s (s.modify c (linkedTo q)) where
  size := size_modify s c _
  enums := enums_modify s c _
  old r n hn := by
    by_cases hrc : r = c
    · subst hrc
      obtain ⟨n', hn', hform, hset⟩ := hc.found h
      obtain rfl := Option.some.inj (hn'.symm.trans hn)
      refine ⟨q, ?_, fun hplain => ?_⟩
      · rw [get?_modify_self hn, linkedTo_eq hset]
      · rw [hform] at hplain
        cases hplain
    · exact ⟨n.parent, (get?_modify_ne hrc _).trans hn, fun _ => rfl⟩

theorem Ordinary.link (h : s.Ordinary) (c : Ref) (q : Option Ref) :
    (s.modify c (linkedTo q)).Ordinary := by
  intro r n' hn'
  obtain ⟨n, hn, rfl⟩ := get?_modify hn'
  rcases h r n hn with hplain | ⟨hform, hset⟩
  · left
    split <;> exact hplain
  · right
    split
    · exact ⟨hform, by simp [linkedTo, hset, Assoc.erase]⟩
    · exact ⟨hform, hset⟩

theorem Ordinary.body (h : s.Ordinary) (m : Ref) (b : Body) :
    (s.modify m fun n => { n with body := b }).Ordinary := by
  intro r n' hn'
  obtain ⟨n, hn, rfl⟩ := get?_modify hn'
  have hn := h r n hn
  split <;> exact hn

/-- Linking a node that neither the other containers hold nor the changed one is to hold. -/
theorem Working.link (h : s.Working m vs) (hc : s.IsLinked c)
    (hothers : ∀ r, r ≠ m → ¬ s.Holds r (.node c)) (hown : .node c ∉ vs) (q : Option Ref) :
    (s.modify c (linkedTo q)).Working m vs where
  ordinary := h.ordinary.link c q
  target := (relinked_link h.ordinary hc q).kept.isLinked h.target
  others r n' hn' hform hrm := by
    obtain ⟨n, hn, rfl⟩ := get?_modify hn'
    have hvalues : (if r = c then linkedTo q n else n).values = n.values := by
      split <;> rfl
    have hlinked : n.form = .linked := by
      split at hform <;> exact hform
    rw [hvalues]
    exact (h.others r n hn hlinked hrm).modify_link
      (fun hmem => hothers r hrm ⟨n, hn, hlinked, hmem⟩) fun _ => rfl
  own := h.own.modify_link hown fun _ => rfl

/-- A node that rests in a container is held by no other one. -/
theorem Working.not_holds (h : s.Working m vs) (hc : s.parent? c = some m) (hr : r ≠ m) :
    ¬ s.Holds r (.node c) := by
  rintro ⟨n, hn, hform, hmem⟩
  have hparent := ((h.others r n hn hform hr).rest _ hmem).2
  rw [hc] at hparent
  exact hr (Option.some.inj hparent).symm

theorem of_run_releaseFrom_linked (h : s.Ordinary) (hm : s.IsLinked m) (hc : s.IsLinked c) {u : Unit}
    (hrun : (releaseFrom m (.node c)).run s = (.ok u, s₁)) : s₁ = s.modify c (linkedTo none) := by
  obtain ⟨n, hn, hform, -⟩ := hm.found h
  rw [run_releaseFrom hn (by rw [hform]; rfl)] at hrun
  have hlink : (StoreM.link c none).run s = (.ok u, s₁) := hrun
  rw [run_link_ordinary h hc] at hlink
  cases hlink
  rfl

theorem of_run_releaseFrom_single (hm : s.IsLinked m) (hv : v.ref? = none) {u : Unit}
    (hrun : (releaseFrom m v).run s = (.ok u, s₁)) : s₁ = s := by
  obtain ⟨n, hn, hform⟩ := hm
  rw [run_releaseFrom hn (by rw [hform]; rfl)] at hrun
  cases v with
  | node c => cases hv
  | _ => exact (of_run_pure hrun).2

/-- What is released from a container no longer counts among what it is to hold. -/
theorem Working.release (h : s.Working m (v :: ws)) {u : Unit}
    (hrun : (releaseFrom m v).run s = (.ok u, s₁)) : s₁.Working m ws ∧ Relinked s s₁ := by
  have hws : s.Working m ws := h.subperm (List.sublist_cons_self v ws).subperm
  cases v with
  | node c =>
    obtain ⟨hc, hparent⟩ := h.own.rest (.node c) (by simp)
    obtain rfl := of_run_releaseFrom_linked h.ordinary h.target hc hrun
    exact ⟨hws.link hc (fun r hr => h.not_holds hparent hr) h.own.not_mem none,
      relinked_link h.ordinary hc none⟩
  | _ =>
    obtain rfl := of_run_releaseFrom_single h.target rfl hrun
    exact ⟨hws, Relinked.refl s₁⟩

/-- A value that a container can come to hold: a plain one, or a linked node that no container
holds. -/
def Loose (s : Store) (v : Value) : Prop := s.Plain v ∨ ∃ c, v = .node c ∧ s.IsLinked c ∧ s.Free c

/-- Values that can be stored one after the other: no linked node comes twice. -/
structure Offered (s : Store) (vs : List Value) : Prop where
  loose : ∀ v ∈ vs, s.Loose v
  once : vs.Pairwise fun v w => ∀ c, s.IsLinked c → v = .node c → w ≠ .node c

/-- What has been made of a value that a container is to hold: new containers, or the node itself. -/
def MadeOf (s : Store) (w v : Value) : Prop := ∀ c, w = .node c → v = .node c ∨ s.nodes.size ≤ c

theorem built_of_accept (h : s.Ordinary) (hm : s.IsLinked m) (hv : s.Plain v)
    (hrun : (accept m v).run s = (.ok w, s₁)) : Built s m w s₁ := by
  obtain ⟨n, hn, hform, -⟩ := hm.found h
  rw [run_accept hn (by rw [hform]; rfl), adoptInto, run_bind (run_get s)] at hrun
  exact built_of_adopt hv hrun

theorem linked_of_accept (h : s.Ordinary) (hm : s.IsLinked m) (hc : s.IsLinked c)
    (hrun : (accept m (.node c)).run s = (.ok w, s₁)) :
    w = .node c ∧ s₁ = s.modify c (linkedTo (some m)) := by
  obtain ⟨n, hn, hform, -⟩ := hm.found h
  obtain ⟨n', hn', hform', -⟩ := hc.found h
  rw [run_accept hn (by rw [hform]; rfl), adoptInto, run_bind (run_get s), StoreM.adopt,
    run_bind (run_node hn'), hform'] at hrun
  have hrun : (do
      StoreM.link c (some m)
      return .node c : StoreM Value).run s = (.ok w, s₁) := hrun
  rw [run_bind (run_link_ordinary h hc _)] at hrun
  exact of_run_pure hrun

/-- A value that is made fit to be held joins what the container is to hold. -/
theorem Working.adopt (h : s.Working m vs) (hv : s.Loose v)
    (hown : ∀ c, s.IsLinked c → v = .node c → .node c ∉ vs)
    (hrun : (accept m v).run s = (.ok w, s₁)) :
    s₁.Working m (w :: vs) ∧ Kept s s₁ ∧ MadeOf s w v := by
  rcases hv with hplain | ⟨c, rfl, hc, hfree⟩
  · have hbuilt := built_of_accept h.ordinary h.target hplain hrun
    have hgrown := hbuilt.toGrown
    refine ⟨⟨hgrown.ordinary h.ordinary, hgrown.kept.isLinked h.target, fun r n' hn' hform' hrm => ?_,
      ?_⟩, hgrown.kept, fun c hc => Or.inr (hbuilt.fresh c hc)⟩
    · exact hgrown.settled_at hn' fun hold => h.others r n' hold hform' hrm
    · refine (hbuilt.settled h.own).cons hbuilt.rests fun c hc hmem => ?_
      exact absurd (h.own.rest _ hmem).1.lt (Nat.not_lt.mpr (hbuilt.fresh c hc))
  · obtain ⟨rfl, rfl⟩ := linked_of_accept h.ordinary h.target hc hrun
    have hkept := (relinked_link h.ordinary hc (some m)).kept
    have hnew := hown c hc rfl
    have hlinked := h.link hc (fun r _ => hfree r) hnew (some m)
    refine ⟨⟨hlinked.ordinary, hlinked.target, hlinked.others, hlinked.own.cons ?_ ?_⟩, hkept,
      fun d hd => Or.inl hd⟩
    · refine ⟨hkept.isLinked hc, ?_⟩
      obtain ⟨n, hn, -⟩ := hc
      rw [parent?, get?_modify_self hn]
      rfl
    · rintro d hd
      cases hd
      exact hnew

/-- A store was changed. Linked containers hold what some container held before and what was
stored; plain containers are as they were. -/
structure Altered (s : Store) (vs : List Value) (s' : Store) : Prop where
  size : s.nodes.size ≤ s'.nodes.size
  linked : ∀ c, s.IsLinked c → s'.IsLinked c
  plain : ∀ r n, s.get? r = some n → n.form = .plain → s'.get? r = some n
  held : ∀ r c, c < s.nodes.size → s'.Holds r (.node c) → .node c ∈ vs ∨ ∃ r', s.Holds r' (.node c)

/-- A store was changed and is sound again. -/
structure Changed (s : Store) (vs : List Value) (s' : Store) : Prop extends Altered s vs s' where
  sound : s'.Sound

theorem Kept.altered (h : Kept s s₁) : s.Altered [] s₁ where
  size := h.size
  linked c hc := h.isLinked hc
  plain r n hn hform := by
    obtain ⟨q, hq, hsame⟩ := h.old r n hn
    rw [hq, hsame hform]
  held r c hc hr := Or.inr ⟨r, h.holds hc hr⟩

theorem Altered.trans (h : s.Altered vs s₁) (h' : s₁.Altered ws s₂) : s.Altered (vs ++ ws) s₂ where
  size := Nat.le_trans h.size h'.size
  linked c hc := h'.linked c (h.linked c hc)
  plain r n hn hform := h'.plain r n (h.plain r n hn hform) hform
  held r c hc hr := by
    rw [List.mem_append]
    rcases h'.held r c (Nat.lt_of_lt_of_le hc h.size) hr with hmem | ⟨r', hr'⟩
    · exact Or.inl (Or.inr hmem)
    · rcases h.held r' c hc hr' with hmem | hheld
      · exact Or.inl (Or.inl hmem)
      · exact Or.inr hheld

theorem Altered.imp (h : s.Altered ws s₁)
    (hsub : ∀ c, c < s.nodes.size → .node c ∈ ws → .node c ∈ vs) : s.Altered vs s₁ :=
  ⟨h.size, h.linked, h.plain, fun r c hc hr => (h.held r c hc hr).imp_left (hsub c hc)⟩

/-- A linked container gets another content. -/
theorem altered_body (hn : s.get? m = some n) (hform : n.form = .linked) {b : Body}
    (hb : ∀ v ∈ Node.values { n with body := b }, v ∈ n.values ∨ v ∈ vs) :
    s.Altered vs (s.modify m fun n => { n with body := b }) where
  size := Nat.le_of_eq (size_modify s m _).symm
  linked c hc :=
    (linked_modify (f := fun n => { n with body := b }) (fun _ => rfl) (fun _ _ => rfl) hc rfl).1
  plain r n' hn' hplain := by
    have hrm : r ≠ m := by
      rintro rfl
      obtain rfl := Option.some.inj (hn.symm.trans hn')
      rw [hform] at hplain
      cases hplain
    rw [get?_modify_ne hrm, hn']
  held r c _ hr := by
    obtain ⟨n', hn', hform', hmem⟩ := hr
    by_cases hrm : r = m
    · subst hrm
      rw [get?_modify_self hn] at hn'
      obtain rfl := Option.some.inj hn'
      rcases hb _ hmem with hold | hnew
      · exact Or.inr ⟨r, n, hn, hform, hold⟩
      · exact Or.inl hnew
    · rw [get?_modify_ne hrm] at hn'
      exact Or.inr ⟨r, n', hn', hform', hmem⟩

theorem Sound.changed (h : s.Sound) : s.Changed vs s :=
  ⟨(Kept.refl s).altered.imp fun _ _ hc => (List.not_mem_nil hc).elim, h⟩

theorem Changed.trans (h : s.Changed vs s₁) (h' : s₁.Changed ws s₂) : s.Changed (vs ++ ws) s₂ :=
  ⟨h.toAltered.trans h'.toAltered, h'.sound⟩

theorem Altered.loose (h : s.Altered vs s₁) (hv : s.Loose v)
    (hnew : ∀ c, s.IsLinked c → v = .node c → .node c ∉ vs) : s₁.Loose v := by
  rcases hv with hplain | ⟨c, rfl, hc, hfree⟩
  · exact Or.inl (hplain.imp h.plain)
  · refine Or.inr ⟨c, rfl, h.linked c hc, fun r hr => ?_⟩
    rcases h.held r c hc.lt hr with hmem | ⟨r', hr'⟩
    · exact hnew c hc rfl hmem
    · exact hfree r' hr'

theorem Kept.loose (h : Kept s s₁) (hv : s.Loose v) : s₁.Loose v :=
  h.altered.loose hv fun _ _ _ hmem => (List.not_mem_nil hmem).elim

/-- A value that is loose and linked later on is linked now. -/
theorem Altered.linked_before (h : s.Altered vs s₁) (hv : s.Loose (.node c)) (hc : s₁.IsLinked c) :
    s.IsLinked c := by
  rcases hv with hplain | ⟨d, hd, hlinked, -⟩
  · exact absurd hc (hplain.imp h.plain).not_linked
  · cases hd
    exact hlinked

/-- Offered values that were not stored are still offered. -/
theorem Altered.offered (h : s.Altered vs s₁) (hws : s.Offered ws)
    (hnew : ∀ w ∈ ws, ∀ c, s.IsLinked c → w = .node c → .node c ∉ vs) : s₁.Offered ws where
  loose w hw := h.loose (hws.loose w hw) (hnew w hw)
  once := by
    refine hws.once.imp_of_mem fun {w w'} hw _ hne c hc hwc => ?_
    have hloose := hws.loose w hw
    rw [hwc] at hloose
    exact hne c (h.linked_before hloose hc) hwc

/-- What is offered behind a value that was stored is still offered. -/
theorem Changed.offered (h : s.Changed [v] s₁) (hvs : s.Offered (v :: vs)) : s₁.Offered vs := by
  obtain ⟨hfirst, honce⟩ := List.pairwise_cons.mp hvs.once
  refine h.toAltered.offered ⟨fun w hw => hvs.loose w (by simp [hw]), honce⟩ ?_
  intro w hw c hc hwc hmem
  exact hfirst w hw c hc (List.mem_singleton.mp hmem).symm hwc

theorem Kept.offered (h : Kept s s₁) (hws : s.Offered ws) : s₁.Offered ws :=
  h.altered.offered hws fun _ _ _ _ _ hmem => (List.not_mem_nil hmem).elim

theorem Working.modify_body (h : s.Working m vs) (b : Body) :
    (s.modify m fun n => { n with body := b }).Working m vs where
  ordinary := h.ordinary.body m b
  target := by
    obtain ⟨n, hn, hform⟩ := h.target
    exact ⟨_, get?_modify_self hn _, hform⟩
  others r n' hn' hform hrm := by
    rw [get?_modify_ne hrm] at hn'
    exact (h.others r n' hn' hform hrm).modify_body m b
  own := h.own.modify_body m b

/-- A change of a container that ends with writing what it is to hold. -/
theorem Working.written (h : s₁.Working m ws) (hkept : Kept s s₁) (hn : s.get? m = some n)
    (hform : n.form = .linked) {b : Body} (hb : (Node.values { n with body := b }).Perm ws)
    (hws : ∀ w ∈ ws, w ∈ n.values ∨ w ∈ vs) :
    s.Changed vs (s₁.modify m fun n => { n with body := b }) := by
  obtain ⟨q, hq, -⟩ := hkept.old m n hn
  have hwritten : s₁.Altered vs (s₁.modify m fun n => { n with body := b }) :=
    altered_body hq hform fun v hv => hws v (hb.subset hv)
  exact ⟨hkept.altered.trans hwritten, (h.modify_body b).sound (get?_modify_self hq _) hb⟩

/-- A change of a container that begins with writing what it is to hold. -/
theorem Working.unwritten (h : s₁.Working m ws) {b : Body}
    (hkept : Kept (s.modify m fun n => { n with body := b }) s₁) (hn : s.get? m = some n)
    (hform : n.form = .linked) (hb : (Node.values { n with body := b }).Perm ws)
    (hws : ∀ w ∈ ws, w ∈ n.values) : s.Changed [] s₁ := by
  obtain ⟨q, hq, -⟩ := hkept.old m _ (get?_modify_self hn _)
  have hwritten : s.Altered [] (s.modify m fun n => { n with body := b }) :=
    altered_body hn hform fun v hv => Or.inl (hws v (hb.subset hv))
  exact ⟨hwritten.trans hkept.altered, h.sound hq hb⟩

/-- What is loose does not stand in a linked container. -/
theorem Sound.not_mem (h : s.Sound) (hv : s.Loose v) (hn : s.get? m = some n)
    (hform : n.form = .linked) {c : Ref} (hc : v = .node c) : .node c ∉ n.values := by
  intro hmem
  subst hc
  rcases hv with hplain | ⟨d, hd, -, hfree⟩
  · exact hplain.not_linked ((h.settled m n hn hform).rest _ hmem).1
  · cases hd
    exact hfree m ⟨n, hn, hform, hmem⟩

/-- What a container holds is the same after links were changed. -/
theorem Kept.body_eq (h : Kept s s₁) {n₁ : Node} (hn : s.get? m = some n)
    (hn₁ : s₁.get? m = some n₁) : n₁.body = n.body := by
  obtain ⟨q, hq, -⟩ := h.old m n hn
  obtain rfl := Option.some.inj (hq.symm.trans hn₁)
  rfl

/-- Releasing plain data does nothing. -/
theorem of_run_releaseFrom_plain (hv : s.Plain v) {u : Unit}
    (hrun : (releaseFrom m v).run s = (.ok u, s₁)) : s₁ = s := by
  obtain ⟨b, s₂, hplain, hrelease⟩ := of_run_bind hrun
  obtain ⟨n, hn, hpure⟩ := of_run_node_bind hplain
  obtain ⟨-, rfl⟩ := of_run_pure hpure
  cases b with
  | true => exact (of_run_pure hrelease).2
  | false =>
    cases hv with
    | single hnode hpair =>
      cases v with
      | node c => cases hnode
      | _ => exact (of_run_pure hrelease).2
    | pair _ => exact (of_run_pure hrelease).2
    | node hfound hform _ =>
      obtain ⟨n', hn', hlink⟩ := of_run_node_bind hrelease
      obtain rfl := Option.some.inj (hfound.symm.trans hn')
      rw [hform] at hlink
      exact (of_run_pure hlink).2

end Store
end Exemplar
