import Exemplar.Proofs.LostLinks
import Exemplar.Store.Way

/-! Operations on a linked map of a sound store: each leaves a sound store in which the map holds
nothing but what it held before and what was stored. What left the map has lost its link, unless the
map was cleared or its last entry was taken. -/
namespace Exemplar
open StoreM Value

namespace MapNode

variable {s s' : Store} {m : Ref} {key : Scalar} {v : Value} {u : Unit}

theorem of_run_get {o : Option Value} (h : (get? m key).run s = (.ok o, s')) :
    ∃ n es, s.get? m = some n ∧ n.body = .map es ∧ o = es.get? key ∧ s' = s := by
  obtain ⟨n, es, hn, hbody, hpure⟩ := of_run_entries_bind h
  obtain ⟨ho, hs⟩ := of_run_pure hpure
  exact ⟨n, es, hn, hbody, ho, hs⟩

theorem of_run_contains {b : Bool} (h : (contains m key).run s = (.ok b, s')) :
    ∃ n es, s.get? m = some n ∧ n.body = .map es ∧ b = (es.get? key).isSome ∧ s' = s := by
  obtain ⟨o, s₁, hget, hpure⟩ := of_run_bind h
  obtain ⟨n, es, hn, hbody, rfl, rfl⟩ := of_run_get hget
  obtain ⟨hb, hs⟩ := of_run_pure hpure
  exact ⟨n, es, hn, hbody, hb, hs⟩

theorem of_run_get! (h : (get! m key).run s = (.ok v, s')) : s' = s := by
  obtain ⟨o, s₁, hget, hrest⟩ := of_run_bind h
  obtain ⟨-, -, -, -, -, rfl⟩ := of_run_get hget
  cases o with
  | some w => exact (of_run_pure hrest).2
  | none => exact (not_run_throw hrest).elim

theorem of_run_writeEntry (h : (writeEntry m key v).run s = (.ok u, s')) :
    ∃ n es, s.get? m = some n ∧ n.body = .map es ∧
      s' = s.modify m fun n => { n with body := .map (es.insert key v) } := by
  obtain ⟨n, es, hn, hbody, hset⟩ := of_run_entries_bind h
  exact ⟨n, es, hn, hbody, of_run_change hset⟩

end MapNode

def Seed.given : Seed → List Value
  | .value d => [d]
  | .map | .list => []

namespace Store
open MapNode

variable {s s' s₁ : Store} {m : Ref} {n n₁ : Node} {key : Scalar} {v w : Value} {u : Unit}
  {vs ws : List Value}

theorem Kept.entries_eq (h : Kept s s₁) {es es₁ : Assoc Scalar Value} (hn : s.get? m = some n)
    (hbody : n.body = .map es) (hn₁ : s₁.get? m = some n₁) (hbody₁ : n₁.body = .map es₁) :
    es₁ = es := by
  have hsame := h.body_eq hn hn₁
  rw [hbody, hbody₁] at hsame
  exact Body.map.inj hsame

/-- What stands under a key is held. -/
theorem holds_entry {es : Assoc Scalar Value} (hn : s.get? m = some n) (hform : n.form = .linked)
    (hbody : n.body = .map es) {before after : List (Scalar × Value)} {k : Scalar}
    (hes : es = before ++ (k, v) :: after) : s.Holds m v := by
  refine ⟨n, hn, hform, ?_⟩
  rw [Node.values, hbody, hes]
  simp

/-- The entries without the one under a key are what is left when its value is released. -/
theorem Sound.taking (h : s.Sound) {es : Assoc Scalar Value} (hn : s.get? m = some n)
    (hform : n.form = .linked) (hbody : n.body = .map es) {before after : List (Scalar × Value)}
    {k : Scalar} (hes : es = before ++ (k, v) :: after) :
    s.Reworking m (v :: (before ++ after).map Prod.snd) s := by
  refine (h.reworking hn hform).perm ?_
  rw [Node.values, hbody, hes]
  simpa using List.perm_middle.symm

theorem mem_values_of_taken {es : Assoc Scalar Value} (hbody : n.body = .map es)
    {before after : List (Scalar × Value)} {k : Scalar} (hes : es = before ++ (k, v) :: after)
    (hw : w ∈ (before ++ after).map Prod.snd) : w ∈ n.values := by
  rw [Node.values, hbody, hes]
  simp only [List.map_append, List.map_cons, List.mem_append, List.mem_cons] at hw ⊢
  tauto

/-- A value is made fit to be held and written under its key. -/
theorem Reworking.storeEntry (h : s.Reworking m ws s₁) (hs : s.Sound) (hkept : Kept s s₁)
    {es : Assoc Scalar Value} (hn : s.get? m = some n) (hform : n.form = .linked)
    (hbody : n.body = .map es) (hv : s.Loose v) (hsub : ∀ w ∈ ws, w ∈ n.values)
    (hinsert : ∀ w, ((es.insert key w).map Prod.snd).Perm (w :: ws))
    (hrun : (accept m v >>= writeEntry m key).run s₁ = (.ok u, s')) : s.Reworked m [v] s' := by
  obtain ⟨w, s₂, haccept, hwrite⟩ := of_run_bind hrun
  obtain ⟨n₂, es₂, hn₂, hbody₂, rfl⟩ := of_run_writeEntry hwrite
  obtain ⟨hkept', hreworked⟩ := h.store hs hkept hn hform hv hsub haccept
  obtain rfl := hkept'.entries_eq hn hbody hn₂ hbody₂
  exact hreworked (hinsert w)

theorem Sound.map_set (h : s.Sound) (hm : s.IsLinked m) (hv : s.Loose v)
    (hrun : (MapNode.set m key v).run s = (.ok u, s')) : s.Reworked m [v] s' := by
  obtain ⟨o, s₀, hget, hrest⟩ := of_run_bind hrun
  obtain ⟨n, es, hn, hbody, rfl, rfl⟩ := of_run_get hget
  have hform := hm.form hn
  rcases Assoc.split_at es key with ⟨before, k, old, after, hes, hold, -, hinsert⟩ | ⟨hnone, hinsert⟩
  · rw [hold] at hrest
    obtain ⟨u', s₁, hrelease, hstore⟩ := of_run_bind hrest
    obtain ⟨hreleased, hrelinked⟩ := (h.taking hn hform hbody hes).release
      (fun c hc => hc ▸ holds_entry hn hform hbody hes) hrelease
    refine hreleased.storeEntry h hrelinked.kept hn hform hbody hv
      (fun w hw => mem_values_of_taken hbody hes hw) (fun w => ?_) hstore
    rw [hinsert w]
    simp
  · rw [hnone] at hrest
    refine (h.reworking hn hform).storeEntry h (Kept.refl _) hn hform hbody hv (fun w hw => hw)
      (fun w => ?_) hrest
    rw [hinsert w, Node.values, hbody]
    simp

theorem Sound.map_setAll (h : s.Sound) (hm : s.IsLinked m) {es : List (Scalar × Value)}
    (hes : s.Offered (es.map Prod.snd)) (hrun : (setAll m es).run s = (.ok u, s')) :
    s.Reworked m (es.map Prod.snd) s' := by
  induction es generalizing s with
  | nil =>
    obtain ⟨-, rfl⟩ := of_run_pure hrun
    exact h.reworked
  | cons e es ih =>
    obtain ⟨u', s₁, hset, hrest⟩ := of_run_bind hrun
    have hfirst := h.map_set hm (hes.loose e.2 (by simp)) hset
    have hothers := ih hfirst.sound (hfirst.linked m hm) (hfirst.toChanged.offered hes) hrest
    exact hfirst.trans hothers

theorem Sound.map_delete (h : s.Sound) (hm : s.IsLinked m)
    (hrun : (MapNode.delete m key).run s = (.ok u, s')) : s.Reworked m [] s' := by
  obtain ⟨o, s₀, hget, hrest⟩ := of_run_bind hrun
  obtain ⟨n, es, hn, hbody, rfl, rfl⟩ := of_run_get hget
  have hform := hm.form hn
  rcases Assoc.split_at es key with ⟨before, k, old, after, hes, hold, herase, -⟩ | ⟨hnone, -⟩
  · rw [hold] at hrest
    obtain ⟨u', s₁, hrelease, hwrite⟩ := of_run_bind hrest
    obtain ⟨n₁, es₁, hn₁, hbody₁, hset⟩ := of_run_entries_bind hwrite
    obtain ⟨hreleased, hrelinked⟩ := (h.taking hn hform hbody hes).release
      (fun c hc => hc ▸ holds_entry hn hform hbody hes) hrelease
    have hkept := hrelinked.kept
    obtain rfl := hkept.entries_eq hn hbody hn₁ hbody₁
    rw [of_run_change hset, herase]
    exact hreleased.written hkept hn hform (List.Perm.refl _)
      (fun w hw => Or.inl (mem_values_of_taken hbody hes hw)) (List.nil_subset _)
  · rw [hnone] at hrest
    exact (not_run_throw hrest).elim

theorem Sound.map_pop (h : s.Sound) (hm : s.IsLinked m) {default : Option Value}
    (hdefault : ∀ d, default = some d → s.Plain d)
    (hrun : (MapNode.pop m key default).run s = (.ok v, s')) : s.Reworked m [] s' := by
  obtain ⟨o, s₀, hget, hrest⟩ := of_run_bind hrun
  obtain ⟨n, es, hn, hbody, rfl, rfl⟩ := of_run_get hget
  have hform := hm.form hn
  rcases Assoc.split_at es key with ⟨before, k, old, after, hes, hold, herase, -⟩ | ⟨hnone, -⟩
  · rw [hold] at hrest
    obtain ⟨n₁, es₁, hn₁, hbody₁, hwrite⟩ := of_run_entries_bind hrest
    obtain rfl := Option.some.inj (hn.symm.trans hn₁)
    obtain rfl := Body.map.inj (hbody.symm.trans hbody₁)
    obtain ⟨u', s₁, hset, hout⟩ := of_run_bind hwrite
    obtain rfl := of_run_change hset
    obtain ⟨u'', s₂, hrelease, hpure⟩ := of_run_bind hout
    obtain ⟨-, rfl⟩ := of_run_pure hpure
    obtain ⟨hreleased, hrelinked⟩ := ((h.taking hn hform hbody hes).modify_body _).release
      (fun c hc => hc ▸ holds_entry hn hform hbody hes) hrelease
    rw [herase] at hrelinked
    exact hreleased.unwritten hrelinked.kept hn hform (List.Perm.refl _)
      fun w hw => mem_values_of_taken hbody hes hw
  · rw [hnone] at hrest
    cases default with
    | none => exact (not_run_throw hrest).elim
    | some d =>
      obtain ⟨u', s₁, hrelease, hpure⟩ := of_run_bind hrest
      obtain ⟨-, rfl⟩ := of_run_pure hpure
      rw [of_run_releaseFrom_plain (hdefault d rfl) hrelease]
      exact h.reworked

theorem Sound.map_remove (h : s.Sound) (hm : s.IsLinked m)
    (hrun : (MapNode.remove m key).run s = (.ok v, s')) : s.Reworked m [] s' := by
  obtain ⟨u', s₁, hlinked, hrest⟩ := of_run_bind hrun
  obtain rfl := (reads_requireLinked m).of_ok hlinked
  refine h.map_pop hm ?_ (of_run_named hrest)
  rintro d hd
  obtain rfl := Option.some.inj hd
  exact .single rfl nofun

theorem Sound.map_put (h : s.Sound) (hm : s.IsLinked m) (hv : s.Loose v)
    (hrun : (MapNode.put m key v).run s = (.ok u, s')) : s.Reworked m [v] s' := by
  obtain ⟨u', s₁, hlinked, hset⟩ := of_run_bind hrun
  obtain rfl := (reads_requireLinked m).of_ok hlinked
  exact h.map_set hm hv hset

theorem Sound.map_popLast (h : s.Sound) (hm : s.IsLinked m) {e : Scalar × Value}
    (hrun : (MapNode.popLast m).run s = (.ok e, s')) : s.Dropped m s' := by
  obtain ⟨n, es, hn, hbody, hrest⟩ := of_run_entries_bind hrun
  cases hlast : es.getLast? with
  | none =>
    rw [hlast] at hrest
    exact (not_run_throw hrest).elim
  | some e' =>
    rw [hlast] at hrest
    obtain ⟨n₁, es₁, hn₁, hbody₁, hwrite⟩ := of_run_entries_bind hrest
    obtain rfl := Option.some.inj (hn.symm.trans hn₁)
    obtain rfl := Body.map.inj (hbody.symm.trans hbody₁)
    obtain ⟨u', s₁, hset, hpure⟩ := of_run_bind hwrite
    obtain ⟨-, rfl⟩ := of_run_pure hpure
    rw [of_run_change hset]
    refine h.dropped hn (hm.form hn) ?_
    have hsub : (es.dropLast.map Prod.snd).Sublist (es.map Prod.snd) := es.dropLast_sublist.map _
    rw [Node.values, Node.values, hbody]
    exact hsub.subperm

theorem Sound.map_clear (h : s.Sound) (hm : s.IsLinked m)
    (hrun : (MapNode.clear m).run s = (.ok u, s')) : s.Dropped m s' := by
  obtain ⟨n, hn, hform⟩ := hm
  rw [of_run_change hrun]
  exact h.dropped hn hform (List.nil_sublist _).subperm

/-- What a seed makes is stored under the absent key. Only what it was given is older than this. -/
theorem Sound.seed (h : s.Sound) {seed : Seed} (hseed : ∀ d, seed = .value d → s.Loose d)
    (hrun : seed.make.run s = (.ok v, s')) : s.Reworked m [] s' ∧ s'.Loose v ∧
      ∀ c, s.IsLinked c → (v = .node c ↔ seed = .value (.node c)) := by
  cases seed with
  | value d =>
    obtain ⟨rfl, rfl⟩ := of_run_pure hrun
    exact ⟨h.reworked, hseed v rfl, fun _ _ => by rw [Seed.value.injEq]⟩
  | map =>
    obtain ⟨c, s₁, hadd, hpure⟩ := of_run_bind hrun
    obtain ⟨rfl, rfl⟩ := of_run_add hadd
    obtain ⟨rfl, rfl⟩ := of_run_pure hpure
    obtain ⟨hadded, hloose⟩ := h.added (m := m) (b := .map []) rfl
    refine ⟨hadded, hloose, fun c hc => ⟨?_, nofun⟩⟩
    rintro ⟨⟩
    exact absurd hc.lt (Nat.lt_irrefl _)
  | list =>
    obtain ⟨c, s₁, hadd, hpure⟩ := of_run_bind hrun
    obtain ⟨rfl, rfl⟩ := of_run_add hadd
    obtain ⟨rfl, rfl⟩ := of_run_pure hpure
    obtain ⟨hadded, hloose⟩ := h.added (m := m) (b := .list []) rfl
    refine ⟨hadded, hloose, fun c hc => ⟨?_, nofun⟩⟩
    rintro ⟨⟩
    exact absurd hc.lt (Nat.lt_irrefl _)

theorem Sound.map_setDefault (h : s.Sound) (hm : s.IsLinked m)
    (hv : s.held? (.node m) key = none → s.Loose v)
    (hrun : (setDefault m key v).run s = (.ok w, s')) :
    s.Reworked m (if (s.held? (.node m) key).isSome then [] else [v]) s' := by
  obtain ⟨b, s₀, hcontains, hrest⟩ := of_run_bind hrun
  obtain ⟨n, es, hn, hbody, rfl, rfl⟩ := of_run_contains hcontains
  have hheld : s₀.held? (.node m) key = es.get? key := by
    simp only [held?, hn, Option.map_some, hbody]
  cases hget : es.get? key with
  | some old =>
    rw [hget] at hrest
    rw [of_run_get! hrest, hheld, hget]
    exact h.reworked
  | none =>
    rw [hget] at hrest
    obtain ⟨u', s₁, hset, hread⟩ := of_run_bind hrest
    rw [of_run_get! hread]
    have hloose := hv (hheld.trans hget)
    rw [hheld, hget]
    exact h.map_set hm hloose hset

theorem Sound.map_autocreate (h : s.Sound) (hm : s.IsLinked m) {seed : Seed}
    (hseed : s.held? (.node m) key = none → ∀ d, seed = .value d → s.Loose d)
    (hrun : (autocreate m key seed.make).run s = (.ok w, s')) :
    s.Reworked m (if (s.held? (.node m) key).isSome then [] else seed.given) s' := by
  obtain ⟨u', s₀, hlinked, hrest⟩ := of_run_bind hrun
  obtain rfl := (reads_requireLinked m).of_ok hlinked
  obtain ⟨b, s₁, hcontains, hcreate⟩ := of_run_bind hrest
  obtain ⟨n, es, hn, hbody, rfl, rfl⟩ := of_run_contains hcontains
  have hheld : s₁.held? (.node m) key = es.get? key := by
    simp only [held?, hn, Option.map_some, hbody]
  cases hget : es.get? key with
  | some old =>
    rw [hget] at hcreate
    rw [of_run_get! hcreate, hheld, hget]
    exact h.reworked
  | none =>
    rw [hget] at hcreate
    obtain ⟨v, s₂, hmake, hset⟩ := of_run_bind hcreate
    obtain ⟨hmade, hloose, hgiven⟩ := h.seed (m := m) (hseed (hheld.trans hget)) hmake
    obtain ⟨u'', s₃, hset, hread⟩ := of_run_bind hset
    rw [of_run_get! hread, hheld, hget]
    have hset := hmade.sound.map_set (hmade.linked m hm) hloose hset
    refine (hmade.trans hset).imp h fun c hc => ?_
    rw [List.nil_append, List.mem_singleton, eq_comm, hgiven c hc]
    cases seed with
    | value d => simp [Seed.given, eq_comm]
    | map => exact ⟨nofun, nofun⟩
    | list => exact ⟨nofun, nofun⟩

end Store
end Exemplar
