import Exemplar.Proofs.ContainerChanges

/-! The links of the nodes that leave a container. While a container is being changed, each node that it
held at first and is not to hold any more has lost its link, and every other node that it is not to
hold has the link it had. -/
namespace Exemplar
open StoreM Value

namespace Store

/-- The link of a node that a container does not hold after a change: lost if the container held the
node before, and as it was otherwise. -/
structure Parted (s : Store) (m c : Ref) (s' : Store) : Prop where
  lost : s.Holds m (.node c) → s'.parent? c = none
  same : ¬ s.Holds m (.node c) → s'.parent? c = s.parent? c

/-- A container of a store is being changed and is to hold the given values. -/
structure Reworking (s : Store) (m : Ref) (vs : List Value) (s₁ : Store) : Prop
    extends Working s₁ m vs where
  size : s.nodes.size ≤ s₁.nodes.size
  before : ∀ r n, s₁.get? r = some n → n.form = .plain → s.get? r = some n
  parted : ∀ c, s.IsLinked c → .node c ∉ vs → s.Parted m c s₁
  owned : s.Tidy → ∀ c q, s.nodes.size ≤ c → s₁.parent? c = some q →
    .node c ∈ vs ∨ q ≠ m ∧ s₁.Holds q (.node c)

/-- What a change of one container leaves as it was. What a container holds it held before, or it was
stored there, or it is new, and new containers hold only what came behind them. Every other container
holds what it held. -/
structure Sited (s : Store) (m : Ref) (vs : List Value) (s' : Store) : Prop where
  before : ∀ r n, s'.get? r = some n → n.form = .plain → s.get? r = some n
  linkedBefore : ∀ c, c < s.nodes.size → s'.IsLinked c → s.IsLinked c
  placed : ∀ r c, s'.Holds r (.node c) → s.Holds r (.node c) ∨
    r = m ∧ (.node c ∈ vs ∨ s.nodes.size ≤ c) ∨ s.nodes.size ≤ r ∧ r < c
  beside : ∀ r v, r ≠ m → s.Holds r v → s'.Holds r v

/-- A container was changed, and the store is sound again. What was stored or is new, and is held by
none, has no link if the plain maps are tidy. -/
structure Reworked (s : Store) (m : Ref) (vs : List Value) (s' : Store) : Prop
    extends Changed s vs s', Sited s m vs s' where
  parted : ∀ c, s.IsLinked c → .node c ∉ vs → ¬ s'.Holds m (.node c) → s.Parted m c s'
  loose : s.Tidy → ∀ c, s'.IsLinked c → s'.Free c → (s.IsLinked c → .node c ∈ vs) →
    s'.parent? c = none

/-- A container dropped some of what it held, without looking at links. -/
structure Dropped (s : Store) (m : Ref) (s' : Store) : Prop
    extends Changed s [] s', Sited s m [] s' where
  count : s'.nodes.size = s.nodes.size
  parents : ∀ c, s'.parent? c = s.parent? c

variable {s s₁ s₂ : Store} {m c r : Ref} {n : Node} {v w : Value} {vs ws : List Value} {b : Body}

theorem Parted.of_same (h : s.Parted m c s₁) (hsame : s₂.parent? c = s₁.parent? c) :
    s.Parted m c s₂ :=
  ⟨fun hheld => hsame.trans (h.lost hheld), fun hnot => hsame.trans (h.same hnot)⟩

/-- Where no plain container has come, no key has come twice. -/
theorem tidy_of_before (h : ∀ r n, s₁.get? r = some n → n.form = .plain → s.get? r = some n)
    (hs : s.Tidy) : s₁.Tidy :=
  fun r n es hn hform hbody => hs r n es (h r n hn hform) hform hbody

theorem parent?_of_le (hc : s.nodes.size ≤ c) : s.parent? c = none := by
  cases hn : s.get? c with
  | none => rw [parent?, hn]; rfl
  | some n => exact absurd (get?_lt hn) (Nat.not_lt.mpr hc)

theorem Sound.reworking (h : s.Sound) (hn : s.get? m = some n) (hform : n.form = .linked) :
    s.Reworking m n.values s where
  toWorking := h.working hn hform
  size := Nat.le_refl _
  before _ _ hn _ := hn
  parted c _ hnot := by
    refine ⟨fun hheld => ?_, fun _ => rfl⟩
    obtain ⟨n', hn', -, hmem⟩ := hheld
    obtain rfl := Option.some.inj (hn.symm.trans hn')
    exact absurd hmem hnot
  owned _ c q hc hparent := by
    rw [parent?_of_le hc] at hparent
    cases hparent

theorem Reworking.perm (h : s.Reworking m vs s₁) (hperm : ws.Perm vs) : s.Reworking m ws s₁ :=
  ⟨h.toWorking.perm hperm, h.size, h.before,
    fun c hc hnot => h.parted c hc (mt hperm.mem_iff.mpr hnot),
    fun htidy c q hc hparent => (h.owned htidy c q hc hparent).imp_left hperm.mem_iff.mpr⟩

theorem Reworking.modify_body (h : s.Reworking m vs s₁) (b : Body) :
    s.Reworking m vs (s₁.modify m fun n => { n with body := b }) where
  toWorking := h.toWorking.modify_body b
  size := by
    rw [size_modify]
    exact h.size
  before r n hn hform := by
    by_cases hrm : r = m
    · subst hrm
      have hlinked := (h.toWorking.modify_body b).target.form hn
      rw [hform] at hlinked
      cases hlinked
    · exact h.before r n ((get?_modify_ne hrm _).symm.trans hn) hform
  parted c hc hnot := (h.parted c hc hnot).of_same (parent?_body s₁ m c b)
  owned htidy c q hc hparent := by
    rw [parent?_body] at hparent
    refine (h.owned htidy c q hc hparent).imp_right fun ⟨hqm, n, hn, hheld⟩ => ⟨hqm, n, ?_, hheld⟩
    rw [get?_modify_ne hqm, hn]

/-- What is released was held at first, and has lost its link. -/
theorem Reworking.release (h : s.Reworking m (v :: ws) s₁)
    (hv : ∀ c, v = .node c → s.Holds m (.node c)) {u : Unit}
    (hrun : (releaseFrom m v).run s₁ = (.ok u, s₂)) : s.Reworking m ws s₂ ∧ Relinked s₁ s₂ := by
  obtain ⟨hworking, hrelinked⟩ := h.toWorking.release hrun
  refine ⟨⟨hworking, ?_, fun r n hn hform => ?_, fun c hc hnot => ?_, fun htidy c q hc hparent => ?_⟩,
    hrelinked⟩
  · rw [hrelinked.size]
    exact h.size
  · exact h.before r n (hrelinked.kept.plain_before hn hform) hform
  · have hlater (hvc : v ≠ .node c) : s.Parted m c s₁ :=
      h.parted c hc fun hmem => (List.mem_cons.mp hmem).elim (fun hcv => hvc hcv.symm) hnot
    cases hd : v.ref? with
    | none =>
      obtain rfl := of_run_releaseFrom_single h.target hd hrun
      exact hlater (by rintro rfl; cases hd)
    | some d =>
      obtain rfl := ref?_eq_some.mp hd
      have hlinked := (h.own.rest (.node d) (by simp)).1
      obtain rfl := of_run_releaseFrom_linked h.ordinary h.target hlinked hrun
      by_cases hcd : c = d
      · subst hcd
        refine ⟨fun _ => ?_, fun hnot => absurd (hv c rfl) hnot⟩
        obtain ⟨k, hk, -⟩ := hlinked
        rw [parent?, get?_modify_self hk]
        rfl
      · refine (hlater fun hdc => hcd (Value.node.inj hdc).symm).of_same ?_
        rw [parent?, parent?, get?_modify_ne hcd]
  · have hlater (hvc : v ≠ .node c) (hparent : s₁.parent? c = some q) :
        .node c ∈ ws ∨ q ≠ m ∧ s₂.Holds q (.node c) :=
      (h.owned htidy c q hc hparent).imp
        (fun hmem => (List.mem_cons.mp hmem).resolve_left fun hcv => hvc hcv.symm)
        (And.imp_right hrelinked.kept.still_holds)
    cases hd : v.ref? with
    | none =>
      obtain rfl := of_run_releaseFrom_single h.target hd hrun
      exact hlater (by rintro rfl; cases hd) hparent
    | some d =>
      obtain rfl := ref?_eq_some.mp hd
      have hlinked := (h.own.rest (.node d) (by simp)).1
      obtain rfl := of_run_releaseFrom_linked h.ordinary h.target hlinked hrun
      by_cases hcd : c = d
      · subst hcd
        obtain ⟨k, hk, -⟩ := hlinked
        rw [parent?, get?_modify_self hk] at hparent
        cases hparent
      · rw [parent?, get?_modify_ne hcd] at hparent
        exact hlater (fun hdc => hcd (Value.node.inj hdc).symm) hparent

/-- What is made fit to be held keeps the links of all nodes but its own. -/
theorem Reworking.adopt (h : s.Reworking m vs s₁) (hv : s₁.Loose v)
    (hown : ∀ c, s₁.IsLinked c → v = .node c → .node c ∉ vs)
    (hrun : (accept m v).run s₁ = (.ok w, s₂)) :
    s.Reworking m (w :: vs) s₂ ∧ Kept s₁ s₂ ∧ MadeOf s₁ w v := by
  obtain ⟨hworking, hkept, hmade⟩ := h.toWorking.adopt hv hown hrun
  refine ⟨⟨hworking, Nat.le_trans h.size hkept.size, fun r n hn hform => ?_, fun c hc hnot => ?_,
    fun htidy c q hc hparent => ?_⟩, hkept, hmade⟩
  · exact h.before r n (hkept.plain_before hn hform) hform
  · refine (h.parted c hc fun hmem => hnot (List.mem_cons_of_mem w hmem)).of_same ?_
    rcases hv with hplain | ⟨d, rfl, hd, -⟩
    · have hgrown := (built_of_accept h.ordinary h.target hplain hrun).toGrown
      rw [parent?, parent?, hgrown.old c (Nat.lt_of_lt_of_le hc.lt h.size)]
    · obtain ⟨rfl, rfl⟩ := linked_of_accept h.ordinary h.target hd hrun
      have hcd : c ≠ d := by
        rintro rfl
        exact hnot List.mem_cons_self
      rw [parent?, parent?, get?_modify_ne hcd]
  · have hlater (hparent : s₁.parent? c = some q) :
        .node c ∈ w :: vs ∨ q ≠ m ∧ s₂.Holds q (.node c) :=
      (h.owned htidy c q hc hparent).imp (List.mem_cons_of_mem w)
        (And.imp_right hkept.still_holds)
    rcases hv with hplain | ⟨d, rfl, hd, -⟩
    · have hbuilt := built_of_accept h.ordinary h.target hplain hrun
      rcases Nat.lt_or_ge c s₁.nodes.size with hlt | hge
      · rw [parent?, hbuilt.old c hlt] at hparent
        exact hlater hparent
      · rcases hbuilt.owned (tidy_of_before h.before htidy) c q hge hparent with rfl | ⟨hq, hheld⟩
        · exact .inl List.mem_cons_self
        · exact .inr ⟨Nat.ne_of_gt (Nat.lt_of_lt_of_le h.target.lt hq), hheld⟩
    · obtain ⟨rfl, rfl⟩ := linked_of_accept h.ordinary h.target hd hrun
      by_cases hcd : c = d
      · exact .inl (hcd ▸ List.mem_cons_self)
      · rw [parent?, get?_modify_ne hcd] at hparent
        exact hlater hparent

theorem Sited.refl (s : Store) (m : Ref) (vs : List Value) : s.Sited m vs s :=
  ⟨fun _ _ hn _ => hn, fun _ _ hc => hc, fun _ _ hheld => Or.inl hheld, fun _ _ _ hheld => hheld⟩

theorem Sited.trans (h : s.Sited m vs s₁) (hsize : s.nodes.size ≤ s₁.nodes.size)
    (h' : s₁.Sited m ws s₂) : s.Sited m (vs ++ ws) s₂ where
  before r n hn hform := h.before r n (h'.before r n hn hform) hform
  linkedBefore c hc hlinked :=
    h.linkedBefore c hc (h'.linkedBefore c (Nat.lt_of_lt_of_le hc hsize) hlinked)
  placed r c hheld := by
    rw [List.mem_append]
    rcases h'.placed r c hheld with hheld | ⟨hrm, hws⟩ | ⟨hnew, hlt⟩
    · rcases h.placed r c hheld with hheld | ⟨hrm, hvs⟩ | hnew
      · exact Or.inl hheld
      · exact Or.inr (Or.inl ⟨hrm, hvs.imp_left Or.inl⟩)
      · exact Or.inr (Or.inr hnew)
    · exact Or.inr (Or.inl ⟨hrm, hws.imp Or.inr (Nat.le_trans hsize)⟩)
    · exact Or.inr (Or.inr ⟨Nat.le_trans hsize hnew, hlt⟩)
  beside r v hrm hheld := h'.beside r v hrm (h.beside r v hrm hheld)

theorem Kept.sited (h : Kept s s₁) (m : Ref) (vs : List Value) : s.Sited m vs s₁ where
  before _ _ hn hform := h.plain_before hn hform
  linkedBefore c hc hlinked := by
    obtain ⟨n, hn⟩ : ∃ n, s.get? c = some n := by
      cases hn : s.get? c with
      | none => exact absurd hc (Nat.not_lt.mpr (le_of_get?_none hn))
      | some n => exact ⟨n, rfl⟩
    obtain ⟨q, hq, -⟩ := h.old c n hn
    have hform := hlinked.form hq
    exact ⟨n, hn, hform⟩
  placed r c hheld := by
    obtain ⟨n₁, hn₁, hform, hmem⟩ := hheld
    cases hn : s.get? r with
    | none =>
      have hge := le_of_get?_none hn
      exact Or.inr (Or.inr ⟨hge, h.own r n₁ c hge hn₁ hmem⟩)
    | some n =>
      obtain ⟨q, hq, -⟩ := h.old r n hn
      obtain rfl := Option.some.inj (hq.symm.trans hn₁)
      exact Or.inl ⟨n, hn, hform, hmem⟩
  beside _ _ _ hheld := h.still_holds hheld

/-- A linked container gets another content. -/
theorem sited_body (hn : s.get? m = some n) (hform : n.form = .linked)
    (hb : ∀ v ∈ Node.values { n with body := b }, v ∈ n.values ∨ v ∈ vs) :
    s.Sited m vs (s.modify m fun n => { n with body := b }) where
  before r k hk hplain := by
    have hrm : r ≠ m := by
      rintro rfl
      rw [get?_modify_self hn] at hk
      obtain rfl := Option.some.inj hk
      cases hform.symm.trans hplain
    rwa [get?_modify_ne hrm] at hk
  linkedBefore c _ hlinked := by
    obtain ⟨k', hk', hlinked⟩ := hlinked
    obtain ⟨k, hk, rfl⟩ := get?_modify hk'
    refine ⟨k, hk, ?_⟩
    split at hlinked <;> exact hlinked
  placed r c hheld := by
    obtain ⟨k, hk, hlinked, hmem⟩ := hheld
    by_cases hrm : r = m
    · subst hrm
      rw [get?_modify_self hn] at hk
      obtain rfl := Option.some.inj hk
      exact (hb _ hmem).imp (fun hmem => ⟨n, hn, hform, hmem⟩) fun hmem => Or.inl ⟨rfl, Or.inl hmem⟩
    · rw [get?_modify_ne hrm] at hk
      exact Or.inl ⟨k, hk, hlinked, hmem⟩
  beside r v hrm hheld := by
    obtain ⟨k, hk, hheld⟩ := hheld
    exact ⟨k, (get?_modify_ne hrm _).trans hk, hheld⟩

/-- A change that is done. Of what was there, everything that was stored is held. -/
theorem Reworking.reworked (h : s.Reworking m ws s₁) (hchanged : s.Changed vs s₁)
    (hsited : s.Sited m vs s₁) (hn : s₁.get? m = some n) (hperm : n.values.Perm ws)
    (hstored : vs ⊆ ws) : s.Reworked m vs s₁ where
  toChanged := hchanged
  toSited := hsited
  parted c hc _ hnot := by
    refine h.parted c hc fun hmem => hnot ⟨n, hn, ?_, hperm.symm.subset hmem⟩
    exact h.target.form hn
  loose htidy c hc hfree hvs := by
    have hnot : .node c ∉ ws := fun hmem =>
      hfree m ⟨n, hn, h.target.form hn, hperm.symm.subset hmem⟩
    have hnew : s.nodes.size ≤ c := by
      by_contra hlt
      exact hnot (hstored (hvs (hsited.linkedBefore c (Nat.not_le.mp hlt) hc)))
    cases hparent : s₁.parent? c with
    | none => rfl
    | some q =>
      rcases h.owned htidy c q hnew hparent with hmem | ⟨-, hheld⟩
      · exact absurd hmem hnot
      · exact absurd hheld (hfree q)

/-- A change of a container that ends with writing what it is to hold. -/
theorem Reworking.written (h : s.Reworking m ws s₁) (hkept : Kept s s₁) (hn : s.get? m = some n)
    (hform : n.form = .linked) (hb : (Node.values { n with body := b }).Perm ws)
    (hws : ∀ w ∈ ws, w ∈ n.values ∨ w ∈ vs) (hstored : vs ⊆ ws) :
    s.Reworked m vs (s₁.modify m fun n => { n with body := b }) := by
  obtain ⟨q, hq, -⟩ := hkept.old m n hn
  have hchanged := h.toWorking.written hkept hn hform hb hws
  have hsited : s₁.Sited m vs (s₁.modify m fun n => { n with body := b }) :=
    sited_body hq hform fun v hv => hws v (hb.subset hv)
  exact (h.modify_body b).reworked hchanged ((hkept.sited m []).trans hkept.size hsited)
    (get?_modify_self hq _) hb hstored

/-- A change of a container that begins with writing what it is to hold. -/
theorem Reworking.unwritten (h : s.Reworking m ws s₁)
    (hkept : Kept (s.modify m fun n => { n with body := b }) s₁) (hn : s.get? m = some n)
    (hform : n.form = .linked) (hb : (Node.values { n with body := b }).Perm ws)
    (hws : ∀ w ∈ ws, w ∈ n.values) : s.Reworked m [] s₁ := by
  obtain ⟨q, hq, -⟩ := hkept.old m _ (get?_modify_self hn _)
  have hchanged := h.toWorking.unwritten hkept hn hform hb hws
  have hsited : s.Sited m [] (s.modify m fun n => { n with body := b }) :=
    sited_body hn hform fun v hv => Or.inl (hws v (hb.subset hv))
  have hsize := Nat.le_of_eq (size_modify s m fun n => { n with body := b }).symm
  exact h.reworked hchanged (hsited.trans hsize (hkept.sited m [])) hq hb (List.nil_subset ws)

theorem Sound.reworked (h : s.Sound) : s.Reworked m [] s where
  toChanged := h.changed
  toSited := Sited.refl s m []
  parted _ _ _ hnot := ⟨fun hheld => absurd hheld hnot, fun _ => rfl⟩
  loose _ _ hc _ hvs := (List.not_mem_nil (hvs hc)).elim

/-- What a container holds that was there before the change, it held before, or it was stored. -/
theorem Sited.within (h : s.Sited m vs s₁) (hc : c < s.nodes.size) (hheld : s₁.Holds m (.node c)) :
    .node c ∈ vs ∨ s.Holds m (.node c) := by
  rcases h.placed m c hheld with hheld | ⟨-, hvs | hnew⟩ | ⟨hnew, hlt⟩
  · exact Or.inr hheld
  · exact Or.inl hvs
  · exact absurd hc (Nat.not_lt.mpr hnew)
  · exact absurd hc (Nat.not_lt.mpr (Nat.le_trans hnew (Nat.le_of_lt hlt)))

theorem Reworked.trans (h : s.Reworked m vs s₁) (h' : s₁.Reworked m ws s₂) :
    s.Reworked m (vs ++ ws) s₂ where
  toChanged := h.toChanged.trans h'.toChanged
  toSited := h.toSited.trans h.size h'.toSited
  parted c hc hnot hout := by
    rw [List.mem_append, not_or] at hnot
    have hlater := h'.parted c (h.linked c hc) hnot.2 hout
    refine ⟨fun hheld => ?_, fun hfree => ?_⟩
    · by_cases hmid : s₁.Holds m (.node c)
      · exact hlater.lost hmid
      · exact (hlater.same hmid).trans ((h.parted c hc hnot.1 hmid).lost hheld)
    · have hmid : ¬ s₁.Holds m (.node c) :=
        fun hmid => (h.toSited.within hc.lt hmid).elim hnot.1 hfree
      exact (hlater.same hmid).trans ((h.parted c hc hnot.1 hmid).same hfree)
  loose htidy c hc hfree hvs := by
    by_cases hmid : s₁.IsLinked c ∧ .node c ∉ ws
    · -- what the second change does not store was held by none before it, or has lost its link
      obtain ⟨hlinked, hnot⟩ := hmid
      have hlater := h'.parted c hlinked hnot (hfree m)
      by_cases hheld : s₁.Holds m (.node c)
      · exact hlater.lost hheld
      · rw [hlater.same hheld]
        refine h.loose htidy c hlinked (fun r hr => ?_) fun hs =>
          (List.mem_append.mp (hvs hs)).resolve_right hnot
        by_cases hrm : r = m
        · exact hheld (hrm ▸ hr)
        · exact hfree r (h'.beside r _ hrm hr)
    · exact h'.loose (tidy_of_before h.before htidy) c hc hfree fun hlinked =>
        by_contra fun hnot => hmid ⟨hlinked, hnot⟩

/-- A node that a container holds after a change was linked before, if it was there. -/
theorem Changed.linked_before (h : s.Changed vs s₁) (hs : s.Sound) (hc : c < s.nodes.size)
    (hheld : s₁.Holds r (.node c)) : s.IsLinked c := by
  obtain ⟨n₁, hn₁, hform₁, hmem⟩ := hheld
  have hlinked := ((h.sound.settled r n₁ hn₁ hform₁).rest _ hmem).1
  cases hn : s.get? c with
  | none => exact absurd hc (Nat.not_lt.mpr (le_of_get?_none hn))
  | some n =>
    rcases hs.ordinary c n hn with hplain | ⟨hform, -⟩
    · have hform := hlinked.form (h.plain c n hn hplain)
      rw [hplain] at hform
      cases hform
    · exact ⟨n, hn, hform⟩

/-- Only the linked nodes among the stored values count. -/
theorem Reworked.imp (h : s.Reworked m ws s₁) (hs : s.Sound)
    (hsame : ∀ c, s.IsLinked c → (.node c ∈ ws ↔ .node c ∈ vs)) : s.Reworked m vs s₁ where
  size := h.size
  linked := h.linked
  plain := h.plain
  held r c hc hheld :=
    (h.held r c hc hheld).imp_left (hsame c (h.toChanged.linked_before hs hc hheld)).mp
  sound := h.sound
  before := h.before
  linkedBefore := h.linkedBefore
  placed r c hheld := by
    refine (h.placed r c hheld).imp_right (Or.imp_left (And.imp_right ?_))
    rintro (hws | hnew)
    · rcases Nat.lt_or_ge c s.nodes.size with hlt | hge
      · exact Or.inl ((hsame c (h.toChanged.linked_before hs hlt hheld)).mp hws)
      · exact Or.inr hge
    · exact Or.inr hnew
  beside := h.beside
  parted c hc hnot := h.parted c hc (mt (hsame c hc).mp hnot)
  loose htidy c hc hfree hvs :=
    h.loose htidy c hc hfree fun hlinked => (hsame c hlinked).mpr (hvs hlinked)

theorem Sound.dropped (h : s.Sound) (hn : s.get? m = some n) (hform : n.form = .linked)
    (hb : (Node.values { n with body := b }).Subperm n.values) :
    s.Dropped m (s.modify m fun n => { n with body := b }) where
  toChanged := ((h.working hn hform).subperm hb).written (Kept.refl s) hn hform (List.Perm.refl _)
    fun _ hw => Or.inl (hb.subset hw)
  toSited := sited_body hn hform fun _ hv => Or.inl (hb.subset hv)
  count := size_modify s m _
  parents c := parent?_body s m c b

/-- A new container is held by none. -/
theorem Sound.added (h : s.Sound) (hempty : Node.values { body := b, form := .linked } = []) :
    s.Reworked m [] (s.add { body := b, form := .linked }).2 ∧
      (s.add { body := b, form := .linked }).2.Loose (.node s.nodes.size) := by
  have hadded := filling_add s b hempty
  refine ⟨⟨⟨hadded.kept.altered, hadded.toGrown.sound h⟩, hadded.kept.sited m [], fun c hc _ hnot => ?_,
    fun _ c hc _ hvs => ?_⟩, Or.inr ⟨_, rfl, ⟨_, hadded.found, rfl⟩, ?_⟩⟩
  · refine ⟨fun hheld => absurd (hadded.kept.still_holds hheld) hnot, fun _ => ?_⟩
    rw [parent?, parent?, get?_add_lt hc.lt]
  · rcases Nat.lt_or_ge c s.nodes.size with hlt | hge
    · exact (List.not_mem_nil (hvs ((hadded.kept.sited m []).linkedBefore c hlt hc))).elim
    · obtain ⟨n, hn, -⟩ := hc
      rw [get?_add] at hn
      split at hn
      · obtain rfl := Option.some.inj hn
        next hcs => rw [hcs, parent?, hadded.found]; rfl
      · exact absurd (get?_lt hn) (Nat.not_lt.mpr hge)
  · rintro r ⟨n, hn, hform, hmem⟩
    rw [get?_add] at hn
    split at hn
    · obtain rfl := Option.some.inj hn
      simp [hempty] at hmem
    · have hlt := ((h.settled r n hn hform).rest _ hmem).1.lt
      exact Nat.lt_irrefl _ hlt

/-- A value is made fit to be held and written into the container, next to what is left in it. -/
theorem Reworking.store (h : s.Reworking m ws s₁) (hs : s.Sound) (hkept : Kept s s₁)
    (hn : s.get? m = some n) (hform : n.form = .linked) (hv : s.Loose v)
    (hsub : ∀ w ∈ ws, w ∈ n.values) (haccept : (accept m v).run s₁ = (.ok w, s₂)) :
    Kept s s₂ ∧ ∀ {b : Body}, (Node.values { n with body := b }).Perm (w :: ws) →
      s.Reworked m [v] (s₂.modify m fun n => { n with body := b }) := by
  have hnew : ∀ c, s₁.IsLinked c → v = .node c → .node c ∉ ws :=
    fun c _ hc hmem => hs.not_mem hv hn hform hc (hsub _ hmem)
  obtain ⟨hjoined, hkept', hmade⟩ := h.adopt (hkept.loose hv) hnew haccept
  have hkept₂ := hkept.trans hkept'
  refine ⟨hkept₂, fun {b} hb => ?_⟩
  have hreworked : s.Reworked m [w] (s₂.modify m fun n => { n with body := b }) := by
    refine hjoined.written hkept₂ hn hform hb (fun x hx => ?_) (by simp)
    rcases List.mem_cons.mp hx with rfl | hold
    · exact Or.inr (by simp)
    · exact Or.inl (hsub x hold)
  refine hreworked.imp hs fun c hc => ?_
  rw [List.mem_singleton, List.mem_singleton]
  constructor
  · intro hw
    exact ((hmade c hw.symm).resolve_right fun hfresh => absurd hc.lt
      (Nat.not_lt.mpr (Nat.le_trans hkept.size hfresh))).symm
  · rintro rfl
    exact (linked_of_accept h.ordinary h.target (hkept.isLinked hc) haccept).1.symm

end Store
end Exemplar
