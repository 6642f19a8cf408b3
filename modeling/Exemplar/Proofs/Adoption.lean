import Exemplar.Proofs.Holdings
import Exemplar.Proofs.Tables

/-! Plain values are copied into new linked containers when a linked container is to hold them. The
copy is settled in itself and the nodes that were there before are left as they are. -/
namespace Exemplar
open StoreM Value

namespace Store

/-- A value without linked containers, all the way down. -/
inductive Plain (s : Store) : Value → Prop
  | single {v : Value} (node : v.ref? = none) (pair : ∀ k w, v ≠ .pair k w) : Plain s v
  | pair {k : Scalar} {v : Value} (part : Plain s v) : Plain s (.pair k v)
  | node {r : Ref} {n : Node} (found : s.get? r = some n) (form : n.form = .plain)
      (parts : ∀ v ∈ n.values, Plain s v) : Plain s (.node r)

theorem Plain.imp {s s' : Store} {v : Value} (h : s.Plain v)
    (hkeep : ∀ r n, s.get? r = some n → n.form = .plain → s'.get? r = some n) : s'.Plain v := by
  induction h with
  | single hnode hpair => exact .single hnode hpair
  | pair _ ih => exact .pair ih
  | node found form _ ih => exact .node (hkeep _ _ found form) form ih

theorem Plain.not_linked {s : Store} {c : Ref} (h : s.Plain (.node c)) : ¬ s.IsLinked c := by
  intro hc
  cases h with
  | single hnode => cases hnode
  | node hfound hplain =>
    have hform := hc.form hfound
    rw [hplain] at hform
    cases hform

def Tidy (s : Store) : Prop := ∀ r n es, s.get? r = some n → n.form = .plain → n.body = .map es →
  (Assoc.keys es).Pairwise fun k k' => (k == k') = false

/-- Since a store, only settled linked containers have come, which hold only what came behind them. -/
structure Grown (s s' : Store) : Prop where
  size : s.nodes.size ≤ s'.nodes.size
  old : ∀ r, r < s.nodes.size → s'.get? r = s.get? r
  new : ∀ r n, s.nodes.size ≤ r → s'.get? r = some n →
    n.form = .linked ∧ n.attributes = [] ∧ s'.Settled r n.values
  own : ∀ r n c, s.nodes.size ≤ r → s'.get? r = some n → .node c ∈ n.values → r < c

/-- A value was made fit to be held, from what was there before and what came. From tidy data nothing
comes but the value and what stands in it. -/
structure Built (s : Store) (holder : Ref) (v : Value) (s' : Store) : Prop extends Grown s s' where
  rests : s'.Rests holder v
  fresh : ∀ c, v = .node c → s.nodes.size ≤ c
  owned : s.Tidy → ∀ c q, s.nodes.size ≤ c → s'.parent? c = some q →
    v = .node c ∨ s.nodes.size ≤ q ∧ s'.Holds q (.node c)

/-- A new container is being filled: nothing is above it yet. -/
structure Filling (s : Store) (m : Ref) (n : Node) (s' : Store) : Prop extends Grown s s' where
  later : s.nodes.size ≤ m
  found : s'.get? m = some n
  top : n.parent = none
  owned : s.Tidy → ∀ c q, s.nodes.size ≤ c → s'.parent? c = some q →
    s.nodes.size ≤ q ∧ s'.Holds q (.node c)

variable {s s₁ s₂ : Store} {m p c : Ref} {n : Node} {v : Value} {vs : List Value} {b : Body}

theorem Grown.refl (s : Store) : Grown s s :=
  ⟨Nat.le_refl _, fun _ _ => rfl, fun _ _ hr hn => absurd (get?_lt hn) (Nat.not_lt.mpr hr),
    fun _ _ _ hr hn => absurd (get?_lt hn) (Nat.not_lt.mpr hr)⟩

theorem Grown.found {r : Ref} (h : Grown s s₁) (hn : s.get? r = some n) : s₁.get? r = some n :=
  (h.old r (get?_lt hn)).trans hn

/-- What is new is linked, so the plain maps are those that were there. -/
theorem Grown.tidy (h : Grown s s₁) (hs : s.Tidy) : s₁.Tidy := by
  intro r n es hn hform hbody
  rcases Nat.lt_or_ge r s.nodes.size with hlt | hge
  · rw [h.old r hlt] at hn
    exact hs r n es hn hform hbody
  · rw [(h.new r n hge hn).1] at hform
    cases hform

theorem Grown.holds {r : Ref} (h : Grown s s₁) (hr : s.Holds r v) : s₁.Holds r v := by
  obtain ⟨n, hn, hheld⟩ := hr
  exact ⟨n, h.found hn, hheld⟩

theorem Grown.plain (h : Grown s s₁) (hv : s.Plain v) : s₁.Plain v :=
  hv.imp fun _ _ hn _ => h.found hn

theorem Grown.settled (h : Grown s s₁) (hvs : s.Settled m vs) : s₁.Settled m vs := by
  refine hvs.imp fun c _ hc hp => ?_
  have hsame := h.old c hc.lt
  obtain ⟨n, hn, hlinked⟩ := hc
  refine ⟨⟨n, hsame.trans hn, hlinked⟩, ?_⟩
  rw [parent?, hsame]
  exact hp

theorem filling_add (s : Store) (b : Body) (hempty : Node.values { body := b, form := .linked } = []) :
    Filling s s.nodes.size { body := b, form := .linked } (s.add { body := b, form := .linked }).2 where
  size := by
    rw [size_add]
    exact Nat.le_succ _
  old r hr := get?_add_lt hr
  new r n hr hn := by
    rw [get?_add] at hn
    split at hn
    · obtain rfl := Option.some.inj hn
      refine ⟨rfl, rfl, ?_⟩
      rw [hempty]
      exact ⟨by simp, List.nodup_nil⟩
    · exact absurd (get?_lt hn) (Nat.not_lt.mpr hr)
  own r n c hr hn hmem := by
    rw [get?_add] at hn
    split at hn
    · obtain rfl := Option.some.inj hn
      simp [hempty] at hmem
    · exact absurd (get?_lt hn) (Nat.not_lt.mpr hr)
  later := Nat.le_refl _
  found := by rw [get?_add, if_pos rfl]
  top := rfl
  owned _ c q hc hparent := by
    rw [parent?, get?_add] at hparent
    split at hparent
    · cases hparent
    · cases hn : s.get? c with
      | none =>
        rw [hn] at hparent
        cases hparent
      | some n => exact absurd (get?_lt hn) (Nat.not_lt.mpr hc)

/-- A container that is written anew holds what it held, if it was not taken out. -/
theorem holds_modify_body {r : Ref} {w : Value} (hm : s.get? m = some n)
    (hb : ∀ w ∈ n.values, w ∈ Node.values { n with body := b }) (hheld : s.Holds r w) :
    (s.modify m fun n => { n with body := b }).Holds r w := by
  obtain ⟨k, hk, hform, hmem⟩ := hheld
  by_cases hrm : r = m
  · subst hrm
    obtain rfl := Option.some.inj (hm.symm.trans hk)
    exact ⟨_, get?_modify_self hk _, hform, hb w hmem⟩
  · exact ⟨k, (get?_modify_ne hrm _).trans hk, hform, hmem⟩

theorem parent?_body (s : Store) (m c : Ref) (b : Body) :
    (s.modify m fun n => { n with body := b }).parent? c = s.parent? c := by
  by_cases hcm : c = m
  · subst hcm
    cases hn : s.get? c with
    | none => rw [modify, hn]
    | some n =>
      rw [parent?, parent?, get?_modify_self hn, hn]
      rfl
  · rw [parent?, parent?, get?_modify_ne hcm]

/-- One more value is written into a container that is being filled. -/
theorem Filling.write (h : Filling s m n s₁) (hv : Built s₁ m v s₂)
    (hb : (Node.values { n with body := b }).Subperm (v :: n.values))
    (hall : s.Tidy → ∀ w ∈ v :: n.values, w ∈ Node.values { n with body := b }) :
    Filling s m { n with body := b } (s₂.modify m fun n => { n with body := b }) := by
  have hm₁ : m < s₁.nodes.size := get?_lt h.found
  have hm₂ : s₂.get? m = some n := hv.found h.found
  refine ⟨⟨?_, fun r hr => ?_, fun r n' hr hn' => ?_, fun r n' c hr hn' hmem => ?_⟩, h.later,
    get?_modify_self hm₂ _, h.top, fun htidy c q hc hparent => ?_⟩
  · rw [size_modify]
    exact Nat.le_trans h.size hv.size
  · have hrm : r ≠ m := Nat.ne_of_lt (Nat.lt_of_lt_of_le hr h.later)
    rw [get?_modify_ne hrm, hv.old r (Nat.lt_of_lt_of_le hr h.size), h.old r hr]
  · obtain ⟨n₂, hn₂, rfl⟩ := get?_modify hn'
    by_cases hrm : r = m
    · subst hrm
      obtain rfl := Option.some.inj (hm₂.symm.trans hn₂)
      obtain ⟨hform, hset, hsettled⟩ := h.new r n hr h.found
      have hnew : ∀ c, v = .node c → .node c ∉ n.values := by
        intro c hc hmem
        have hlt := (hsettled.rest _ hmem).1.lt
        exact absurd hlt (Nat.not_lt.mpr (hv.fresh c hc))
      have hall := (((hv.settled hsettled).cons hv.rests hnew).subperm hb).modify_body r b
      rw [if_pos rfl]
      exact ⟨hform, hset, hall⟩
    · rw [if_neg hrm]
      rcases Nat.lt_or_ge r s₁.nodes.size with hlt | hge
      · rw [hv.old r hlt] at hn₂
        obtain ⟨hform, hset, hsettled⟩ := h.new r n₂ hr hn₂
        exact ⟨hform, hset, (hv.settled hsettled).modify_body m b⟩
      · obtain ⟨hform, hset, hsettled⟩ := hv.new r n₂ hge hn₂
        exact ⟨hform, hset, hsettled.modify_body m b⟩
  · obtain ⟨n₂, hn₂, rfl⟩ := get?_modify hn'
    by_cases hrm : r = m
    · subst hrm
      obtain rfl := Option.some.inj (hm₂.symm.trans hn₂)
      rw [if_pos rfl] at hmem
      rcases List.mem_cons.mp (hb.subset hmem) with hc | hmem
      · exact Nat.lt_of_lt_of_le hm₁ (hv.fresh c hc.symm)
      · exact h.own r n c hr h.found hmem
    · rw [if_neg hrm] at hmem
      rcases Nat.lt_or_ge r s₁.nodes.size with hlt | hge
      · exact h.own r n₂ c hr ((hv.old r hlt).symm.trans hn₂) hmem
      · exact hv.own r n₂ c hge hn₂ hmem
  · rw [parent?_body] at hparent
    have hform := (h.new m n h.later h.found).1
    have hkeep {r : Ref} {w : Value} (hheld : s₂.Holds r w) :
        (s₂.modify m fun n => { n with body := b }).Holds r w :=
      holds_modify_body hm₂ (fun w hw => hall htidy w (List.mem_cons_of_mem v hw)) hheld
    rcases Nat.lt_or_ge c s₁.nodes.size with hlt | hge
    · rw [parent?, hv.old c hlt] at hparent
      obtain ⟨hq, hheld⟩ := h.owned htidy c q hc hparent
      exact ⟨hq, hkeep (hv.holds hheld)⟩
    · rcases hv.owned (h.tidy htidy) c q hge hparent with rfl | ⟨hq, hheld⟩
      · have hlinked := hv.rests.2
        rw [hparent] at hlinked
        obtain rfl := Option.some.inj hlinked
        exact ⟨h.later, _, get?_modify_self hm₂ _, hform, hall htidy _ List.mem_cons_self⟩
      · exact ⟨Nat.le_trans h.size hq, hkeep hheld⟩

def linkedTo (parent : Option Ref) (n : Node) : Node :=
  { n with parent, attributes := n.attributes.erase parentLink }

theorem linkedTo_eq (hset : n.attributes = []) (q : Option Ref) :
    linkedTo q n = { n with parent := q } := by
  rw [linkedTo, hset]
  cases n
  simp only at hset
  subst hset
  rfl

/-- When a container is filled it is linked to its holder. -/
theorem Filling.linked (h : Filling s m n s₁) (p : Ref) :
    Built s p (.node m) (s₁.modify m (linkedTo (some p))) := by
  obtain ⟨hform, hset, hsettled⟩ := h.new m n h.later h.found
  have hfound := get?_modify_self h.found (linkedTo (some p))
  have habsent : ∀ r n', s.nodes.size ≤ r → s₁.get? r = some n' → .node m ∉ n'.values := by
    intro r n' hr hn' hmem
    have hparent := ((h.new r n' hr hn').2.2.rest _ hmem).2
    rw [parent?, h.found] at hparent
    exact absurd (h.top.symm.trans hparent) (by simp)
  refine ⟨⟨?_, fun r hr => ?_, fun r n' hr hn' => ?_, fun r n' c hr hn' hmem => ?_⟩,
    ⟨⟨_, hfound, hform⟩, ?_⟩, ?_, fun htidy c q hc hparent => ?_⟩
  · rw [size_modify]
    exact h.size
  · rw [get?_modify_ne (Nat.ne_of_lt (Nat.lt_of_lt_of_le hr h.later)), h.old r hr]
  · obtain ⟨n₁, hn₁, rfl⟩ := get?_modify hn'
    obtain ⟨hform₁, hset₁, hsettled₁⟩ := h.new r n₁ hr hn₁
    have hstill := hsettled₁.modify_link (habsent r n₁ hr hn₁) (f := linkedTo (some p)) fun _ => rfl
    split
    · refine ⟨hform₁, ?_, hstill⟩
      simp [linkedTo, hset₁, Assoc.erase]
    · exact ⟨hform₁, hset₁, hstill⟩
  · obtain ⟨n₁, hn₁, rfl⟩ := get?_modify hn'
    refine h.own r n₁ c hr hn₁ ?_
    split at hmem
    · exact hmem
    · exact hmem
  · rw [parent?, hfound]
    rfl
  · intro c hc
    cases hc
    exact h.later
  · by_cases hcm : c = m
    · exact .inl (hcm ▸ rfl)
    · rw [parent?, get?_modify_ne hcm] at hparent
      obtain ⟨hq, r, hr, hlinked, hmem⟩ := h.owned htidy c q hc hparent
      refine .inr ⟨hq, ?_⟩
      by_cases hqm : q = m
      · subst hqm
        exact ⟨_, get?_modify_self hr _, hlinked, hmem⟩
      · exact ⟨r, (get?_modify_ne hqm _).trans hr, hlinked, hmem⟩

section

variable {prepare : Value → StoreM Value}

/-- What each of the entries becomes is written into the map that is being filled. -/
theorem filling_storeEntries {es : List (Scalar × Value)}
    (hprepare : ∀ e ∈ es, ∀ s₁ v s₂, Grown s s₁ → (prepare e.2).run s₁ = (.ok v, s₂) → Built s₁ m v s₂)
    (h : Filling s m n s₁) (hkeys : s.Tidy → ∀ fs, n.body = .map fs →
      (Assoc.keys fs ++ Assoc.keys es).Pairwise fun k k' => (k == k') = false)
    {u : Unit} (hrun : (storeEntries prepare m es).run s₁ = (.ok u, s₂)) :
    ∃ n', Filling s m n' s₂ := by
  induction es generalizing s₁ n with
  | nil =>
    obtain ⟨-, rfl⟩ := of_run_pure hrun
    exact ⟨n, h⟩
  | cons e es ih =>
    obtain ⟨key, w⟩ := e
    obtain ⟨v, s₃, hv, hrest⟩ := of_run_bind hrun
    have hbuilt := hprepare (key, w) (by simp) s₁ v s₃ h.toGrown hv
    obtain ⟨_, s₄, hwrite, hrest⟩ := of_run_bind hrest
    obtain ⟨n₃, fs, hn₃, hbody, hwrite⟩ := of_run_entries_bind hwrite
    obtain rfl := of_run_change hwrite
    obtain rfl := Option.some.inj ((hbuilt.found h.found).symm.trans hn₃)
    have hvalues : (Node.values { n with body := .map (fs.insert key v) }).Subperm (v :: n.values) := by
      simp only [Node.values, hbody]
      rcases Assoc.split_at fs key with ⟨before, k, a, after, rfl, -, -, hinsert⟩ | ⟨-, hinsert⟩
      · rw [hinsert]
        simp only [List.map_append, List.map_cons]
        refine List.perm_middle.subperm.trans (List.Sublist.subperm ?_)
        exact ((List.sublist_cons_self _ _).append_left _).cons_cons v
      · rw [hinsert]
        simpa using (List.perm_append_singleton v _).subperm
    have hinsert (htidy : s.Tidy) : fs.insert key v = fs ++ [(key, v)] := by
      refine Assoc.insert_new (fun e he => ?_) v
      exact (List.pairwise_append.mp (hkeys htidy fs hbody)).2.2 e.1 (List.mem_map_of_mem he) key
        List.mem_cons_self
    refine ih (fun e he => hprepare e (by simp [he])) (h.write hbuilt hvalues fun htidy w hw => ?_)
      (fun htidy fs' hfs' => ?_) hrest
    · rw [Node.values, hinsert htidy]
      rw [Node.values, hbody] at hw
      simpa [or_comm] using hw
    · obtain rfl := Body.map.inj hfs'
      have hall := hkeys htidy fs hbody
      rw [hinsert htidy, Assoc.keys, List.map_append]
      simpa [Assoc.keys] using hall

/-- What each of the items becomes is appended to the list that is being filled. -/
theorem filling_storeItems {ws : List Value}
    (hprepare : ∀ w ∈ ws, ∀ s₁ v s₂, Grown s s₁ → (prepare w).run s₁ = (.ok v, s₂) → Built s₁ m v s₂)
    (h : Filling s m n s₁) {u : Unit} (hrun : (storeItems prepare m ws).run s₁ = (.ok u, s₂)) :
    ∃ n', Filling s m n' s₂ := by
  induction ws generalizing s₁ n with
  | nil =>
    obtain ⟨-, rfl⟩ := of_run_pure hrun
    exact ⟨n, h⟩
  | cons w ws ih =>
    obtain ⟨v, s₃, hv, hrest⟩ := of_run_bind hrun
    have hbuilt := hprepare w (by simp) s₁ v s₃ h.toGrown hv
    obtain ⟨n₃, us, hn₃, hbody, hrest⟩ := of_run_items_bind hrest
    obtain ⟨_, s₄, hwrite, hrest⟩ := of_run_bind hrest
    obtain rfl := of_run_change hwrite
    obtain rfl := Option.some.inj ((hbuilt.found h.found).symm.trans hn₃)
    have hvalues : (Node.values { n with body := .list (us ++ [v]) }).Subperm (v :: n.values) := by
      simp only [Node.values, hbody]
      exact (List.perm_append_singleton v us).subperm
    refine ih (fun w hw => hprepare w (by simp [hw])) (h.write hbuilt hvalues fun _ w hw => ?_) hrest
    rw [Node.values]
    rw [Node.values, hbody] at hw
    simpa [or_comm] using hw

end

theorem Filling.run_link (h : Filling s m n s₁) (p : Ref) :
    (link m (some p)).run s₁ = (.ok (), s₁.modify m (linkedTo (some p))) := by
  obtain ⟨hform, hset, -⟩ := h.new m n h.later h.found
  exact StoreM.run_link h.found (by rw [hform]; trivial) hset (some p)

/-- What is neither a node nor a pair is held as it is. -/
theorem built_single (hnode : v.ref? = none) (hpair : ∀ k w, v ≠ .pair k w) : Built s p v s where
  toGrown := Grown.refl s
  rests := by
    cases v with
    | node c => cases hnode
    | pair k w => exact absurd rfl (hpair k w)
    | _ => trivial
  fresh c hc := by
    subst hc
    cases hnode
  owned _ c q hc hparent := by
    cases hn : s.get? c with
    | none =>
      rw [parent?, hn] at hparent
      cases hparent
    | some n => exact absurd (get?_lt hn) (Nat.not_lt.mpr hc)

/-- A plain value that is adopted is rebuilt from new containers. -/
theorem built_of_adopt {fuel : Nat} {w : Value} (hw : s.Plain w)
    (hrun : (adopt fuel w (some p)).run s = (.ok v, s₁)) : Built s p v s₁ := by
  induction fuel generalizing s w v p s₁ with
  | zero => exact (not_run_throw hrun).elim
  | succ fuel ih =>
    have hprepare {us : List Value} (hus : ∀ u ∈ us, s.Plain u) {m : Ref} : ∀ u ∈ us, ∀ s₁ v s₂,
        Grown s s₁ → (adopt fuel u (some m)).run s₁ = (.ok v, s₂) → Built s₁ m v s₂ :=
      fun u hu s₁ v s₂ hgrown hu' => ih (hgrown.plain (hus u hu)) hu'
    -- a copy is made of the items of lists and of pairs alike
    have hlist (us : List Value) (hus : ∀ u ∈ us, s.Plain u) (hrun : (do
        let l ← StoreM.add { body := .list [], form := .linked }
        storeItems (fun u => adopt fuel u (some l)) l us
        link l (some p)
        return .node l : StoreM Value).run s = (.ok v, s₁)) : Built s p v s₁ := by
      obtain ⟨l, s₂, hadd, hrun⟩ := of_run_bind hrun
      obtain ⟨rfl, rfl⟩ := of_run_add hadd
      obtain ⟨_, s₃, hstore, hrun⟩ := of_run_bind hrun
      obtain ⟨n, hfilled⟩ := filling_storeItems (hprepare hus) (filling_add s (.list []) rfl) hstore
      rw [run_bind (hfilled.run_link p)] at hrun
      obtain ⟨rfl, rfl⟩ := of_run_pure hrun
      exact hfilled.linked p
    cases hw with
    | single hnode hpair =>
      cases w with
      | node c => cases hnode
      | pair k u => exact absurd rfl (hpair k u)
      | _ =>
        obtain ⟨rfl, rfl⟩ := of_run_pure hrun
        exact built_single hnode hpair
    | @pair k u hu =>
      refine hlist [.scalar k, u] ?_ hrun
      intro w hw
      rcases List.mem_cons.mp hw with rfl | hw
      · exact .single rfl (by simp)
      · obtain rfl := List.mem_singleton.mp hw
        exact hu
    | @node r n hn hform hparts =>
      rw [adopt, run_bind (run_node hn), hform] at hrun
      simp only [BEq.rfl, if_true] at hrun
      cases hbody : n.body with
      | list us =>
        rw [hbody] at hrun
        refine hlist us (fun u hu => hparts u ?_) hrun
        simpa only [Node.values, hbody] using hu
      | map es =>
        rw [hbody] at hrun
        obtain ⟨m, s₂, hadd, hrun⟩ := of_run_bind hrun
        obtain ⟨rfl, rfl⟩ := of_run_add hadd
        obtain ⟨_, s₃, hstore, hrun⟩ := of_run_bind hrun
        have hparts : ∀ e ∈ es, s.Plain e.2 := by
          intro e he
          refine hparts e.2 ?_
          simp only [Node.values, hbody]
          exact List.mem_map_of_mem he
        have hkeys (htidy : s.Tidy) (fs : Assoc Scalar Value) (hfs : Body.map [] = .map fs) :
            (Assoc.keys fs ++ Assoc.keys es).Pairwise fun k k' => (k == k') = false := by
          obtain rfl := Body.map.inj hfs
          exact htidy r n es hn hform hbody
        obtain ⟨n, hfilled⟩ := filling_storeEntries (m := s.nodes.size)
          (fun e he s₁ v s₂ hgrown hrun => ih (hgrown.plain (hparts e he)) hrun)
          (filling_add s (.map []) rfl) hkeys hstore
        rw [run_bind (hfilled.run_link p)] at hrun
        obtain ⟨rfl, rfl⟩ := of_run_pure hrun
        exact hfilled.linked p

end Store
end Exemplar
