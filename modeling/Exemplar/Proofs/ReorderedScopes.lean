import Exemplar.Proofs.AliasBlocks

/-! Scopes inside a block of aliases and inside the same block in another order. They know the same
aliases, which stand for names that meet; nothing that is declared further inside sets them apart, as
long as no alias of the block is declared again. -/
namespace Exemplar.Inference
open Json TypeTable

/-- Two tables of one set of aliases, which stand for names that meet. -/
structure Rivals (taken : List Scalar) (t t' : Aliases) : Prop where
  inside : ∀ a, Scalar.str a ∈ taken → ∃ known known', t.get? (.str a) = some known ∧
    t'.get? (.str a) = some known' ∧ Meets t t' known known'
  outside : ∀ a, Scalar.str a ∉ taken → t.get? (.str a) = none ∧ t'.get? (.str a) = none
  named : t.get? (.str "") ≠ some ""
  named' : t'.get? (.str "") ≠ some ""

/-- A scope inside each of two such tables. -/
structure ScopesBeside (taken : List Scalar) (t t' : Aliases) (s s' : AliasScope) : Prop where
  tidy : s.Tidy
  tidy' : s'.Tidy
  opened : s.tables ≠ []
  opened' : s'.tables ≠ []
  own : ∀ a, Scalar.str a ∈ taken → s.resolve (.str a) = t.get? (.str a)
  own' : ∀ a, Scalar.str a ∈ taken → s'.resolve (.str a) = t'.get? (.str a)
  others : ∀ a, Scalar.str a ∉ taken →
    (s.resolve (.str a) = none ∧ s'.resolve (.str a) = none) ∨
      ∃ known known', s.resolve (.str a) = some known ∧ s'.resolve (.str a) = some known' ∧
        Meets t t' known known' ∧ (known = "" ↔ known' = "")

section Beside

variable {taken : List Scalar} {t t' : Aliases} {s s' : AliasScope} {name a target : String}

/-- A text leads to what it stands for as a target, and to whatever that leads to. -/
theorem leads_bound {known middle : String} (hknown : t.get? (.str target) = some known)
    (hresolve : s.resolve (.str target) = t.get? (.str target)) (hleads : Leads t known middle) :
    Leads t (s.bound target) middle := by
  rw [hknown] at hresolve
  rw [AliasScope.bound_of_some hresolve]
  split
  · exact .step hknown hleads
  · exact hleads

theorem bound_ne_empty (hnamed : t.get? (.str "") ≠ some "") {known : String}
    (hknown : t.get? (.str target) = some known)
    (hresolve : s.resolve (.str target) = t.get? (.str target)) : s.bound target ≠ "" := by
  rw [hknown] at hresolve
  rw [AliasScope.bound_of_some hresolve]
  split
  · next hempty =>
    rintro rfl
    rw [hknown, hempty] at hnamed
    exact hnamed rfl
  · next hne => exact hne

theorem ScopesBeside.meets_bound (h : ScopesBeside taken t t' s s') (ht : Rivals taken t t')
    (target : String) :
    Meets t t' (s.bound target) (s'.bound target) ∧ (s.bound target = "" ↔ s'.bound target = "") := by
  by_cases htaken : Scalar.str target ∈ taken
  · obtain ⟨known, known', hknown, hknown', middle, hto, hto'⟩ := ht.inside target htaken
    have hown := h.own target htaken
    have hown' := h.own' target htaken
    refine ⟨⟨middle, leads_bound hknown hown hto, leads_bound hknown' hown' hto'⟩, ?_⟩
    have hne := bound_ne_empty ht.named hknown hown
    have hne' := bound_ne_empty ht.named' hknown' hown'
    exact ⟨fun h => (hne h).elim, fun h => (hne' h).elim⟩
  · rcases h.others target htaken with ⟨hnone, hnone'⟩ | ⟨known, known', hsome, hsome', hmeets, hempty⟩
    · rw [AliasScope.bound_of_none hnone, AliasScope.bound_of_none hnone']
      exact ⟨.refl t t' target, Iff.rfl⟩
    · rw [AliasScope.bound_of_some hsome, AliasScope.bound_of_some hsome']
      by_cases hknown : known = ""
      · rw [if_pos hknown, if_pos (hempty.mp hknown)]
        exact ⟨.refl t t' target, Iff.rfl⟩
      · rw [if_neg hknown, if_neg fun h => hknown (hempty.mpr h)]
        exact ⟨hmeets, hempty⟩

theorem tables_declare (hopen : s.tables ≠ []) (a : Scalar) (name : String) :
    (s.declare a name).tables ≠ [] := by
  obtain ⟨tables⟩ := s
  cases tables with
  | nil => exact (hopen rfl).elim
  | cons t tables => exact List.cons_ne_nil _ _

theorem ScopesBeside.declare (h : ScopesBeside taken t t' s s') (ha : Scalar.str a ∉ taken)
    {known known' : String} (hmeets : Meets t t' known known') (hempty : known = "" ↔ known' = "") :
    ScopesBeside taken t t' (s.declare (.str a) known) (s'.declare (.str a) known') where
  tidy := h.tidy.declare a known
  tidy' := h.tidy'.declare a known'
  opened := tables_declare h.opened _ _
  opened' := tables_declare h.opened' _ _
  own b hb := by
    have hne : a ≠ b := by
      rintro rfl
      exact ha hb
    rw [AliasScope.resolve_declare h.opened, if_neg hne]
    exact h.own b hb
  own' b hb := by
    have hne : a ≠ b := by
      rintro rfl
      exact ha hb
    rw [AliasScope.resolve_declare h.opened', if_neg hne]
    exact h.own' b hb
  others b hb := by
    rw [AliasScope.resolve_declare h.opened, AliasScope.resolve_declare h.opened']
    by_cases hname : a = b
    · rw [if_pos hname, if_pos hname]
      exact .inr ⟨known, known', rfl, rfl, hmeets, hempty⟩
    · rw [if_neg hname, if_neg hname]
      exact h.others b hb

theorem ScopesBeside.push (h : ScopesBeside taken t t' s s') :
    ScopesBeside taken t t' (s.push []) (s'.push []) := by
  have hsame (s : AliasScope) (b : String) : (s.push []).resolve (.str b) = s.resolve (.str b) :=
    AliasScope.resolve_push s [] b
  refine ⟨h.tidy.push Assoc.tidy_nil, h.tidy'.push Assoc.tidy_nil, List.cons_ne_nil _ _,
    List.cons_ne_nil _ _, fun b hb => ?_, fun b hb => ?_, fun b hb => ?_⟩
  · rw [hsame]
    exact h.own b hb
  · rw [hsame]
    exact h.own' b hb
  · rw [hsame, hsame]
    exact h.others b hb

theorem ScopesBeside.agree (h : ScopesBeside taken t t' s s') (ht : Rivals taken t t')
    (hends : Ends s.snapshot) : Agree s.snapshot s'.snapshot := by
  have htaken {b known : String} (hknown : t.get? (.str b) = some known) : Scalar.str b ∈ taken := by
    by_contra hout
    rw [(ht.outside b hout).1] at hknown
    cases hknown
  have htaken' {b known : String} (hknown : t'.get? (.str b) = some known) :
      Scalar.str b ∈ taken := by
    by_contra hout
    rw [(ht.outside b hout).2] at hknown
    cases hknown
  have hbeside : Beside t t' s.snapshot s'.snapshot := by
    refine ⟨fun b known hknown => ?_, fun b known hknown => ?_, fun b => ?_⟩
    · rw [AliasScope.get?_snapshot h.tidy, h.own b (htaken hknown), hknown]
    · rw [AliasScope.get?_snapshot h.tidy', h.own' b (htaken' hknown), hknown]
    · rw [AliasScope.get?_snapshot h.tidy, AliasScope.get?_snapshot h.tidy']
      by_cases hb : Scalar.str b ∈ taken
      · obtain ⟨known, known', hknown, hknown', hmeets⟩ := ht.inside b hb
        right
        rw [h.own b hb, h.own' b hb]
        exact ⟨known, known', hknown, hknown', hmeets⟩
      · rcases h.others b hb with hnone | ⟨known, known', hsome, hsome', hmeets, -⟩
        · exact .inl hnone
        · exact .inr ⟨known, known', hsome, hsome', hmeets⟩
  exact hbeside.agree hends

/-- Scopes that are kept beside each other give structs whose aliases stand for the same names. -/
theorem simulates_beside (ht : Rivals taken t t') :
    Simulates taken (ScopesBeside taken t t') fun _ t t' => Ends t → Agree t t' where
  push h := h.push
  declare a name h ha := h.declare ha (.refl t t' name) Iff.rfl
  bind a target h ha := by
    obtain ⟨hmeets, hempty⟩ := h.meets_bound ht target
    exact h.declare ha hmeets hempty
  snapshot _ h hends := h.agree ht hends

end Beside

section Reordered

variable {s : AliasScope} {name : String} {block block' : List (Scalar × Json)}

theorem get?_snapshot_push {t : Aliases} (hs : s.Tidy) (ht : t.Tidy) (a : String) :
    (s.push t).snapshot.get? (.str a) = (t.get? (.str a)).or (s.resolve (.str a)) := by
  rw [AliasScope.get?_snapshot (hs.push ht), AliasScope.resolve_push]

/-- The tables of a block in two orders, if the aliases inside the block lead somewhere. -/
theorem Fresh.rivals (h : Fresh s block) (hperm : block'.Perm block)
    (hends : Ends (s.push (blockTable s name [] block)).snapshot) :
    Rivals (Assoc.keys block) (blockTable s name [] block) (blockTable s name [] block') := by
  let t := blockTable s name [] block
  let t' := blockTable s name [] block'
  have hnames' : ∀ e ∈ block', ∃ a, e.1 = .str a := fun e he => h.names e (hperm.mem_iff.mp he)
  have hkeys : (Assoc.keys block').Perm (Assoc.keys block) := hperm.map Prod.fst
  have htidy : t.Tidy := tidy_blockTable h.names Assoc.tidy_nil
  have hshown {a known : String} (hknown : t.get? (.str a) = some known) :
      (s.push t).snapshot.get? (.str a) = some known := by
    rw [get?_snapshot_push h.tidy htidy, hknown]
    rfl
  have hinside (a : String) (ha : Scalar.str a ∈ Assoc.keys block) : ∃ known known',
      t.get? (.str a) = some known ∧ t'.get? (.str a) = some known' ∧ Meets t t' known known' := by
    obtain ⟨v, pre, post, hblock⟩ := exists_entry ha
    have hhas : (s.push t).snapshot.has (.str a) = true := by
      rw [Assoc.has, hshown (h.get?_table hblock)]
      rfl
    obtain ⟨last, ⟨n, hleads⟩, hlast⟩ := hends.leads hhas
    exact h.meets_entry hperm hlast hleads hblock
  have houtside (a : String) (ha : Scalar.str a ∉ Assoc.keys block) :
      t.get? (.str a) = none ∧ t'.get? (.str a) = none :=
    ⟨get?_blockTable_other h.names ha, get?_blockTable_other hnames' (hkeys.mem_iff.not.mpr ha)⟩
  refine ⟨hinside, houtside, fun hself => ?_, fun hself' => ?_⟩
  · exact hends.not_leads_back (hshown hself) (.refl _ "")
  · -- What the empty alias leads to in the other order leads back to it in this one.
    have hmem : Scalar.str "" ∈ Assoc.keys block := by
      by_contra hout
      rw [(houtside "" hout).2] at hself'
      cases hself'
    obtain ⟨known, known', hknown, hknown', middle, hto, hto'⟩ := hinside "" hmem
    rw [hself'] at hknown'
    obtain rfl : "" = known' := Option.some.inj hknown'
    have hmiddle : middle = "" := hto'.eq_of_self hself'
    rw [hmiddle] at hto
    exact hends.not_leads_back (hshown hknown) (hto.mono fun _ _ => hshown)

theorem Fresh.beside (h : Fresh s block) (hperm : block'.Perm block)
    (hrivals : Rivals (Assoc.keys block) (blockTable s name [] block) (blockTable s name [] block')) :
    ScopesBeside (Assoc.keys block) (blockTable s name [] block) (blockTable s name [] block')
      (s.push (blockTable s name [] block)) (s.push (blockTable s name [] block')) := by
  have hnames' : ∀ e ∈ block', ∃ a, e.1 = .str a := fun e he => h.names e (hperm.mem_iff.mp he)
  refine ⟨h.tidy.push (tidy_blockTable h.names Assoc.tidy_nil),
    h.tidy.push (tidy_blockTable hnames' Assoc.tidy_nil), List.cons_ne_nil _ _,
    List.cons_ne_nil _ _, fun a ha => ?_, fun a ha => ?_, fun a ha => ?_⟩
  · obtain ⟨known, known', hknown, -, -⟩ := hrivals.inside a ha
    rw [AliasScope.resolve_push, hknown]
    rfl
  · obtain ⟨known, known', -, hknown', -⟩ := hrivals.inside a ha
    rw [AliasScope.resolve_push, hknown']
    rfl
  · obtain ⟨hnone, hnone'⟩ := hrivals.outside a ha
    rw [AliasScope.resolve_push, AliasScope.resolve_push, hnone, hnone']
    cases s.resolve (.str a) with
    | none => exact .inl ⟨rfl, rfl⟩
    | some known => exact .inr ⟨known, known, rfl, rfl, .refl _ _ known, Iff.rfl⟩

end Reordered

end Exemplar.Inference
