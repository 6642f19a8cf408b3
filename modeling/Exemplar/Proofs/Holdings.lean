import Exemplar.Proofs.SuccessfulRuns
import Exemplar.Store.Parent
import Mathlib.Data.List.Perm.Subperm

/-! What linked containers hold. In a sound store every node that a linked container holds is linked
to it and stands there once. While one container is being changed, the others stay as they are and
the values that it is to hold are kept apart from what it holds at the moment. -/
namespace Exemplar

def Node.values (n : Node) : List Value :=
  match n.body with
  | .map es => es.map Prod.snd
  | .list vs => vs

namespace Value

def ref? : Value → Option Ref
  | .node r => some r
  | _ => none

def refs (vs : List Value) : List Ref := vs.filterMap ref?

theorem ref?_eq_some {v : Value} {c : Ref} : v.ref? = some c ↔ v = .node c := by
  cases v <;> simp [ref?]

theorem mem_refs {vs : List Value} {c : Ref} : c ∈ refs vs ↔ .node c ∈ vs := by
  simp [refs, ref?_eq_some]

theorem refs_cons_node (c : Ref) (vs : List Value) : refs (.node c :: vs) = c :: refs vs := rfl

theorem refs_cons_other {v : Value} (h : v.ref? = none) (vs : List Value) :
    refs (v :: vs) = refs vs := by
  simp [refs, h]

end Value

namespace Store
open Value

/-- Every container is plain, or linked with nothing set on it. -/
def Ordinary (s : Store) : Prop :=
  ∀ r n, s.get? r = some n → n.form = .plain ∨ n.form = .linked ∧ n.attributes = []

def IsLinked (s : Store) (r : Ref) : Prop := ∃ n, s.get? r = some n ∧ n.form = .linked

def Holds (s : Store) (r : Ref) (v : Value) : Prop :=
  ∃ n, s.get? r = some n ∧ n.form = .linked ∧ v ∈ n.values

/-- A value is fit to stand in a linked container: a node is linked to the container. -/
def Rests (s : Store) (holder : Ref) : Value → Prop
  | .node c => s.IsLinked c ∧ s.parent? c = some holder
  | .pair _ _ => False
  | _ => True

structure Settled (s : Store) (holder : Ref) (vs : List Value) : Prop where
  rest : ∀ v ∈ vs, s.Rests holder v
  once : (refs vs).Nodup

/-- In every linked container the values rest, each node once. -/
structure Sound (s : Store) : Prop where
  ordinary : s.Ordinary
  settled : ∀ r n, s.get? r = some n → n.form = .linked → s.Settled r n.values

/-- A linked container is being changed and is to hold the given values; whatever it holds at the
moment, the other containers are settled. -/
structure Working (s : Store) (m : Ref) (vs : List Value) : Prop where
  ordinary : s.Ordinary
  target : s.IsLinked m
  others : ∀ r n, s.get? r = some n → n.form = .linked → r ≠ m → s.Settled r n.values
  own : s.Settled m vs

variable {s s' : Store} {m c : Ref} {v : Value} {vs ws : List Value} {n : Node}

theorem IsLinked.lt (h : s.IsLinked c) : c < s.nodes.size := by
  obtain ⟨n, hn, -⟩ := h
  exact get?_lt hn

theorem IsLinked.form (h : s.IsLinked c) (hn : s.get? c = some n) : n.form = .linked := by
  obtain ⟨n', hn', hform⟩ := h
  obtain rfl := Option.some.inj (hn.symm.trans hn')
  exact hform

theorem Holds.isLinked {r : Ref} (h : s.Holds r v) : s.IsLinked r := by
  obtain ⟨n, hn, hform, -⟩ := h
  exact ⟨n, hn, hform⟩

theorem Settled.subperm (h : s.Settled m vs) (hsub : ws.Subperm vs) : s.Settled m ws where
  rest v hv := h.rest v (hsub.subset hv)
  once := by
    obtain ⟨us, hperm, hsublist⟩ := hsub
    have hus : (refs us).Nodup := h.once.sublist (hsublist.filterMap ref?)
    exact (hperm.filterMap ref?).nodup_iff.mp hus

theorem Settled.cons (h : s.Settled m vs) (hv : s.Rests m v) (hnew : ∀ c, v = .node c → .node c ∉ vs) :
    s.Settled m (v :: vs) where
  rest w hw := by
    rcases List.mem_cons.mp hw with rfl | hw
    · exact hv
    · exact h.rest w hw
  once := by
    cases hc : v.ref? with
    | none =>
      rw [refs_cons_other hc]
      exact h.once
    | some c =>
      obtain rfl := ref?_eq_some.mp hc
      rw [refs_cons_node, List.nodup_cons, mem_refs]
      exact ⟨hnew c rfl, h.once⟩

theorem Settled.not_mem (h : s.Settled m (.node c :: vs)) : .node c ∉ vs := by
  have honce := h.once
  rw [refs_cons_node, List.nodup_cons, mem_refs] at honce
  exact honce.1

/-- Values that rest still rest where the nodes among them did not change their links. -/
theorem Settled.imp (h : s.Settled m vs)
    (hkeep : ∀ c, .node c ∈ vs → s.IsLinked c → s.parent? c = some m →
      s'.IsLinked c ∧ s'.parent? c = some m) : s'.Settled m vs where
  rest v hv := by
    have hrests := h.rest v hv
    cases v with
    | node c => exact hkeep c hv hrests.1 hrests.2
    | pair k v => exact hrests.elim
    | _ => trivial
  once := h.once

theorem Working.subperm (h : s.Working m vs) (hsub : ws.Subperm vs) : s.Working m ws :=
  ⟨h.ordinary, h.target, h.others, h.own.subperm hsub⟩

theorem Working.perm (h : s.Working m vs) (hperm : ws.Perm vs) : s.Working m ws :=
  h.subperm hperm.subperm

theorem Sound.working (h : s.Sound) (hn : s.get? m = some n) (hform : n.form = .linked) :
    s.Working m n.values where
  ordinary := h.ordinary
  target := ⟨n, hn, hform⟩
  others r n' hr hlinked _ := h.settled r n' hr hlinked
  own := h.settled m n hn hform

/-- The change is done when the container holds what it is to hold. -/
theorem Working.sound (h : s.Working m vs) (hn : s.get? m = some n) (hperm : n.values.Perm vs) :
    s.Sound where
  ordinary := h.ordinary
  settled r n' hr hform := by
    by_cases hrm : r = m
    · subst hrm
      obtain rfl := Option.some.inj (hn.symm.trans hr)
      exact h.own.subperm hperm.subperm
    · exact h.others r n' hr hform hrm

/-- What is found in a store in which one node was changed. -/
theorem get?_modify {f : Node → Node} {r : Ref} {n' : Node} (h : (s.modify c f).get? r = some n') :
    ∃ n, s.get? r = some n ∧ n' = if r = c then f n else n := by
  by_cases hr : r = c
  · subst hr
    cases hn : s.get? r with
    | none =>
      rw [modify, hn] at h
      simp only [hn] at h
      cases h
    | some n =>
      rw [get?_modify_self hn] at h
      exact ⟨n, rfl, by rw [if_pos rfl]; exact (Option.some.inj h).symm⟩
  · rw [get?_modify_ne hr] at h
    exact ⟨n', h, by rw [if_neg hr]⟩

/-- Changing one node leaves the links of the others alone, and its own if the change does. -/
theorem linked_modify {f : Node → Node} (hform : ∀ n, (f n).form = n.form)
    (hparent : m = c → ∀ n, (f n).parent = n.parent) {p : Option Ref} (hc : s.IsLinked c)
    (hp : s.parent? c = p) : (s.modify m f).IsLinked c ∧ (s.modify m f).parent? c = p := by
  obtain ⟨n, hn, hlinked⟩ := hc
  by_cases hmc : m = c
  · subst hmc
    rw [parent?, hn] at hp
    refine ⟨⟨f n, get?_modify_self hn f, by rw [hform, hlinked]⟩, ?_⟩
    rw [parent?, get?_modify_self hn]
    exact (hparent rfl n).trans hp
  · have hsame := get?_modify_ne (s := s) (Ne.symm hmc) f
    refine ⟨⟨n, hsame.trans hn, hlinked⟩, ?_⟩
    rw [parent?, hsame]
    exact hp

theorem Settled.modify_body (h : s.Settled m vs) (r : Ref) (b : Body) :
    (s.modify r fun n => { n with body := b }).Settled m vs :=
  h.imp fun _ _ hc hp =>
    linked_modify (f := fun n => { n with body := b }) (fun _ => rfl) (fun _ _ => rfl) hc hp

/-- Linking a node elsewhere disturbs no container that does not hold it. -/
theorem Settled.modify_link (h : s.Settled m vs) (hc : .node c ∉ vs) {f : Node → Node}
    (hform : ∀ n, (f n).form = n.form) : (s.modify c f).Settled m vs :=
  h.imp fun _ hd hlinked hp =>
    linked_modify hform (fun hcd => absurd (hcd ▸ hd) hc) hlinked hp

end Store
end Exemplar
