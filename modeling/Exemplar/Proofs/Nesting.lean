import Exemplar.Proofs.ParentLinks
import Mathlib.Data.Fintype.EquivFin
import Mathlib.Data.List.Chain

/-! Nesting of linked containers. No container comes to contain itself as long as what is stored into it
does not contain it, so from every node the containers that hold one another lead up to one that none
holds. -/
namespace Exemplar
open StoreM Relation

namespace Store

variable {s s' : Store} {m a b c r : Ref} {vs : List Value} {releases : Bool}
  {bindItem : ListNode.BindItem}

/-- A node stands in a container. -/
def HeldBy (s : Store) (c r : Ref) : Prop := s.Holds r (.node c)

/-- A node is another one, or stands in it at some depth. -/
def Inside (s : Store) (c r : Ref) : Prop := ReflTransGen s.HeldBy c r

/-- No container stands in itself. -/
def Nested (s : Store) : Prop := ∀ c, ¬ TransGen s.HeldBy c c

theorem Sound.linked_of_heldBy (h : s.Sound) (hc : s.HeldBy c r) : s.IsLinked c ∧ s.IsLinked r := by
  obtain ⟨n, hn, hform, hmem⟩ := hc
  exact ⟨((h.settled r n hn hform).rest _ hmem).1, n, hn, hform⟩

theorem Sound.linked_of_inside (h : s.Sound) (hc : s.IsLinked c) (hr : s.Inside c r) :
    s.IsLinked r := by
  induction hr with
  | refl => exact hc
  | tail _ hstep _ => exact (h.linked_of_heldBy hstep).2

/-- A way up after a change was there before, or leads through the changed container, or from something
new to something new. -/
theorem Sited.way (h : s.Sited m vs s') (hs : s.Sound) (hm : s.IsLinked m)
    (hapart : ∀ c, .node c ∈ vs → ¬ s.Inside m c) (hab : TransGen s'.HeldBy a b) :
    TransGen s.HeldBy a b ∨
      s.Inside m b ∧ (s.nodes.size ≤ a ∨ ∃ c, .node c ∈ vs ∧ s.Inside a c) ∨
      s.nodes.size ≤ b ∧ b < a := by
  induction hab with
  | @single b hstep =>
    rcases h.placed b a hstep with hold | ⟨rfl, hstored | hnew⟩ | hnew
    · exact .inl (.single hold)
    · exact .inr (.inl ⟨.refl, .inr ⟨a, hstored, .refl⟩⟩)
    · exact .inr (.inl ⟨.refl, .inl hnew⟩)
    · exact .inr (.inr hnew)
  | @tail b d _ hstep ih =>
    have hplaced := h.placed d b hstep
    rcases ih with hold | ⟨hinside, hfrom⟩ | ⟨hnew, hlt⟩
    · have hb : b < s.nodes.size := by
        obtain ⟨e, -, he⟩ := TransGen.tail'_iff.mp hold
        exact (hs.linked_of_heldBy he).2.lt
      rcases hplaced with hstep | ⟨rfl, hstored | hge⟩ | ⟨hge, hlt⟩
      · exact .inl (hold.tail hstep)
      · exact .inr (.inl ⟨.refl, .inr ⟨b, hstored, hold.to_reflTransGen⟩⟩)
      · exact absurd hb (Nat.not_lt.mpr hge)
      · exact absurd hb (Nat.not_lt.mpr (Nat.le_trans hge (Nat.le_of_lt hlt)))
    · have hb := (hs.linked_of_inside hm hinside).lt
      rcases hplaced with hstep | ⟨rfl, hstored | hge⟩ | ⟨hge, hlt⟩
      · exact .inr (.inl ⟨hinside.tail hstep, hfrom⟩)
      · exact absurd hinside (hapart b hstored)
      · exact absurd hb (Nat.not_lt.mpr hge)
      · exact absurd hb (Nat.not_lt.mpr (Nat.le_trans hge (Nat.le_of_lt hlt)))
    · rcases hplaced with hstep | ⟨rfl, -⟩ | ⟨hge, hlt'⟩
      · exact absurd (hs.linked_of_heldBy hstep).1.lt (Nat.not_lt.mpr hnew)
      · exact .inr (.inl ⟨.refl, .inl (Nat.le_trans hnew (Nat.le_of_lt hlt))⟩)
      · exact .inr (.inr ⟨hge, Nat.lt_trans hlt' hlt⟩)

/-- What does not contain the container can be stored there. -/
theorem Sited.nested (h : s.Sited m vs s') (hs : s.Sound) (hm : s.IsLinked m)
    (hapart : ∀ c, .node c ∈ vs → ¬ s.Inside m c) (hn : s.Nested) : s'.Nested := by
  intro c hcircle
  rcases h.way hs hm hapart hcircle with hold | ⟨hinside, hnew | ⟨d, hd, hcd⟩⟩ | ⟨-, hlt⟩
  · exact hn c hold
  · exact absurd (hs.linked_of_inside hm hinside).lt (Nat.not_lt.mpr hnew)
  · exact hapart d hd (hinside.trans hcd)
  · exact absurd hlt (Nat.lt_irrefl c)

theorem After.sited (h : s.After m vs releases s') : s.Sited m vs s' := by
  cases releases with
  | true => exact h.toSited
  | false =>
    refine ⟨h.before, h.linkedBefore, fun r c hheld => ?_, h.beside⟩
    exact (h.placed r c hheld).imp_right (Or.imp_left (And.imp_right
      (Or.imp_left fun hc => (List.not_mem_nil hc).elim)))

/-- A step of a run that stores nothing into what it contains. Plain data that is supplied is tidy. -/
inductive NestedStep (bindItem : ListNode.BindItem) (s s' : Store) : Prop
  | supply (supplied : Supplied s s') (tidy : s'.Tidy)
  | map {m : Ref} {op : MapOperation} {v : Value} (linked : s.IsLinked m) (fair : s.FairToMap m op)
    (apart : ∀ c, .node c ∈ op.stored s m → ¬ s.Inside m c) (run : (op.run m).run s = (.ok v, s'))
  | list {l : Ref} {op : ListOperation} {v : Value} (linked : s.IsLinked l) (fair : s.FairToList op)
    (apart : ∀ c, .node c ∈ op.stored s → ¬ s.Inside l c)
    (run : (op.run bindItem l).run s = (.ok v, s'))

/-- The stores of runs: sound, nested and tidy. -/
structure Orderly (s : Store) : Prop extends Sound s where
  nested : s.Nested
  tidy : s.Tidy

theorem orderly_empty : Store.empty.Orderly where
  toSound := sound_empty
  nested c hcircle := by
    obtain ⟨d, ⟨n, hn, -⟩, -⟩ := TransGen.head'_iff.mp hcircle
    cases hn
  tidy r n es hn := by cases hn

theorem Orderly.after (h : s.Orderly) (hm : s.IsLinked m)
    (hapart : ∀ c, .node c ∈ vs → ¬ s.Inside m c) (hafter : s.After m vs releases s') :
    s'.Orderly where
  toSound := hafter.changed.sound
  nested := hafter.sited.nested h.toSound hm hapart h.nested
  tidy := tidy_of_before hafter.sited.before h.tidy

theorem Orderly.step (h : s.Orderly) (hstep : NestedStep bindItem s s') : s'.Orderly := by
  cases hstep with
  | supply hs htidy =>
    refine ⟨h.toSound.supplied hs, fun c hcircle => h.nested c ?_, htidy⟩
    exact TransGen.mono (fun _ _ => hs.holds.mp) c c hcircle
  | map hm hop hapart hrun => exact h.after hm hapart (h.toSound.map_run hm hop hrun)
  | list hl hop hapart hrun => exact h.after hl hapart (h.toSound.list_run hl hop hrun)

theorem Orderly.steps (h : s.Orderly) (hsteps : ReflTransGen (NestedStep bindItem) s s') :
    s'.Orderly := by
  induction hsteps with
  | refl => exact h
  | tail _ hstep ih => exact ih.step hstep

/-- From a node the containers that hold one another lead up to one that none holds. -/
theorem Orderly.way (h : s.Orderly) (hc : s.IsLinked c) :
    ∃ way r, (c :: way).IsChain s.HeldBy ∧ r ∈ (c :: way).getLast? ∧ s.IsLinked r ∧ s.Free r := by
  have hwf : WellFounded fun b a : Fin s.nodes.size => TransGen s.HeldBy a b := by
    have : IsTrans (Fin s.nodes.size) fun b a => TransGen s.HeldBy a b :=
      ⟨fun _ _ _ hd he => he.trans hd⟩
    have : Std.Irrefl fun b a : Fin s.nodes.size => TransGen s.HeldBy a b := ⟨fun a => h.nested a⟩
    exact Finite.wellFounded_of_trans_of_irrefl _
  suffices hup : ∀ b : Fin s.nodes.size, s.IsLinked b → ∃ way r,
      (b.1 :: way).IsChain s.HeldBy ∧ r ∈ (b.1 :: way).getLast? ∧ s.IsLinked r ∧ s.Free r from
    hup ⟨c, hc.lt⟩ hc
  intro b
  induction b using hwf.induction with
  | _ b ih =>
    intro hb
    by_cases hfree : s.Free b
    · exact ⟨[], b, .singleton _, rfl, hb, hfree⟩
    · obtain ⟨a, ha⟩ : ∃ a, s.HeldBy b a := not_forall_not.mp hfree
      have hlinked := (h.linked_of_heldBy ha).2
      obtain ⟨way, r, hchain, hlast, hr⟩ := ih ⟨a, hlinked.lt⟩ (.single ha) hlinked
      exact ⟨a :: way, r, hchain.cons_cons ha, hlast, hr⟩

/-- A way up meets no node twice. -/
theorem Orderly.length_way (h : s.Orderly) (hc : s.IsLinked c) {way : List Ref}
    (hway : (c :: way).IsChain s.HeldBy) : way.length < s.nodes.size := by
  have hpairwise : (c :: way).Pairwise (TransGen s.HeldBy) :=
    (hway.imp fun _ _ => .single).pairwise
  have hnodup : (c :: way).Nodup := hpairwise.imp fun {a b} hab => by
    rintro rfl
    exact h.nested a hab
  have hlinked : ∀ r ∈ c :: way, s.IsLinked r := by
    intro r hr
    rcases List.mem_cons.mp hr with rfl | hr
    · exact hc
    · have habove := List.rel_of_pairwise_cons hpairwise hr
      obtain ⟨b, -, hb⟩ := TransGen.tail'_iff.mp habove
      exact (h.linked_of_heldBy hb).2
  have hsub : (c :: way) ⊆ List.range s.nodes.size := fun r hr => List.mem_range.mpr (hlinked r hr).lt
  have hlength := (hnodup.subperm hsub).length_le
  rwa [List.length_range] at hlength

end Store
end Exemplar
