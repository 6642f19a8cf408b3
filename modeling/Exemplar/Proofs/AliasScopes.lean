import Exemplar.Proofs.AliasChains
import Exemplar.Proofs.EqualScalars
import Exemplar.Schema.Inference

/-! Scopes whose tables declare each alias once. What is visible in such a scope is what its snapshot
shows. Documents lead to scopes in which all aliases are strings, too. -/
namespace Exemplar
open Json

namespace Assoc

variable {t : Aliases} {a name : String}

theorem get?_insert_str {α : Type} (t : Assoc Scalar α) (a name : String) (value : α) :
    (t.insert (.str a) value).get? (.str name) =
      if a = name then some value else t.get? (.str name) := by
  rw [get?_insert_beq]
  simp only [same_str]

structure Tidy (t : Aliases) : Prop where
  names : ∀ e ∈ t, ∃ a, e.1 = .str a
  once : t.keys.Nodup

theorem tidy_nil : Tidy [] := ⟨nofun, List.nodup_nil⟩

theorem Tidy.apart (h : Tidy t) : t.Pairwise fun e e' => (e.1 == e'.1) = false :=
  pairwise_keys h.names h.once

theorem mem_keys_insert {key : Scalar} (h : key ∈ (t.insert (.str a) name).keys) :
    key = .str a ∨ key ∈ t.keys := by
  induction t with
  | nil => exact .inl (List.mem_singleton.mp h)
  | cons e t ih =>
    rw [insert] at h
    split at h
    · exact .inr h
    · rcases List.mem_cons.mp h with rfl | h
      · exact .inr List.mem_cons_self
      · exact (ih h).imp_right (List.mem_cons_of_mem _)

theorem Tidy.insert (h : Tidy t) (a value : String) : Tidy (t.insert (.str a) value) := by
  have hnames : ∀ e ∈ t.insert (.str a) value, ∃ b, e.1 = .str b := by
    intro e he
    rcases mem_keys_insert (List.mem_map_of_mem (f := Prod.fst) he) with hkey | hkey
    · exact ⟨a, hkey⟩
    · obtain ⟨e', he', hsame⟩ := List.mem_map.mp hkey
      obtain ⟨b, hb⟩ := h.names e' he'
      exact ⟨b, hsame.symm.trans hb⟩
  -- Keys that compare different are different, since they are strings.
  refine ⟨hnames, List.pairwise_map.mpr ((pairwise_insert h.apart (.str a) value).imp_of_mem ?_)⟩
  intro e e' he _ hne hsame
  obtain ⟨b, hb⟩ := hnames e he
  rw [← hsame, hb, (same_str b b).mpr rfl] at hne
  cases hne

end Assoc

namespace AliasScope

variable {s : AliasScope} {a name : String}

/-- A scope in which no table has two aliases that compare equal. -/
def Apart (s : AliasScope) : Prop :=
  ∀ t ∈ s.tables, t.Pairwise fun e e' => (e.1 == e'.1) = false

theorem Apart.get?_snapshot (h : Apart s) (a : Scalar) : s.snapshot.get? a = s.resolve a := by
  obtain ⟨tables⟩ := s
  rw [snapshot, resolve]
  induction tables with
  | nil => rfl
  | cons t tables ih =>
    have htables : Apart ⟨tables⟩ := fun t' ht' => h t' (List.mem_cons_of_mem t ht')
    rw [List.foldr_cons, Assoc.get?_insertAll (h t List.mem_cons_self), ih htables,
      List.findSome?_cons]
    cases Assoc.get? t a <;> rfl

def Tidy (s : AliasScope) : Prop := ∀ t ∈ s.tables, Assoc.Tidy t

/-- What a text stands for as the target of an alias: what is known of it, unless that is empty. -/
def bound (s : AliasScope) (target : String) : String :=
  match s.resolve (.str target) with
  | some "" => target
  | some known => known
  | none => target

theorem bound_of_some {target known : String} (h : s.resolve (.str target) = some known) :
    s.bound target = if known = "" then target else known := by
  rw [bound, h]
  split
  · next heq => rw [if_pos (Option.some.inj heq)]
  · next known' hne heq =>
    obtain rfl := Option.some.inj heq
    rw [if_neg fun hempty => hne hempty]
  · next heq => cases heq

theorem bound_of_none {target : String} (h : s.resolve (.str target) = none) :
    s.bound target = target := by
  rw [bound, h]

theorem bound_congr {s' : AliasScope} {target : String}
    (h : s.resolve (.str target) = s'.resolve (.str target)) : s.bound target = s'.bound target := by
  rw [bound, bound, h]

theorem tidy_empty : Tidy empty := nofun

theorem Tidy.push (h : Tidy s) {t : Aliases} (ht : Assoc.Tidy t) : Tidy (s.push t) := by
  intro t' ht'
  rcases List.mem_cons.mp ht' with rfl | ht'
  · exact ht
  · exact h t' ht'

theorem Tidy.declare (h : Tidy s) (a value : String) : Tidy (s.declare (.str a) value) := by
  obtain ⟨tables⟩ := s
  cases tables with
  | nil => exact h
  | cons t tables =>
    intro t' ht'
    rcases List.mem_cons.mp ht' with rfl | ht'
    · exact (h t List.mem_cons_self).insert a value
    · exact h t' (List.mem_cons_of_mem t ht')

theorem get?_snapshot (h : Tidy s) (name : String) :
    s.snapshot.get? (.str name) = s.resolve (.str name) :=
  Apart.get?_snapshot (fun t ht => (h t ht).apart) (.str name)

theorem resolve_push (s : AliasScope) (t : Aliases) (a : String) :
    (s.push t).resolve (.str a) = (t.get? (.str a)).or (s.resolve (.str a)) := by
  rw [resolve, push, List.findSome?_cons]
  cases Assoc.get? t (.str a) <;> rfl

theorem resolve_declare (hopen : s.tables ≠ []) (a value name : String) :
    (s.declare (.str a) value).resolve (.str name) =
      if a = name then some value else s.resolve (.str name) := by
  obtain ⟨tables⟩ := s
  cases tables with
  | nil => exact (hopen rfl).elim
  | cons t tables =>
    have hdeclare : declare ⟨t :: tables⟩ (.str a) value = ⟨t.insert (.str a) value :: tables⟩ := rfl
    rw [hdeclare, resolve, resolve, List.findSome?_cons, List.findSome?_cons, Assoc.get?_insert_str]
    by_cases hname : a = name
    · rw [if_pos hname, if_pos hname]
    · rw [if_neg hname, if_neg hname]

end AliasScope

namespace Inference

theorem ofAliasEntries_scalar (c : Context) (s : AliasScope) (name : String) (a x : Scalar)
    (rest : List (Scalar × Json)) : ofAliasEntries c s name ((a, .scalar x) :: rest) =
      ofAliasEntries c (s.declare a (s.bound x.plainText)) name rest := by
  rw [ofAliasEntries]
  rfl

end Inference
end Exemplar
