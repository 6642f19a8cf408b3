import Exemplar.Json.Document
import Exemplar.Proofs.PartialReading

/-! Whatever is read is a document, also when reading stops early. The stack of open containers keeps
one promise: a map below the top of the stack, and a map that a value is due in, has read a key. The
events of every tree keep it. -/
namespace Exemplar.Json

namespace Partial

abbrev Whole (v : Json) : Prop := IsDocument (fun _ => True) v

/-- A value can be stored into an open container: if it is a map, it has read a key. -/
def Keyed : Frame → Prop
  | .map _ key => ∃ s, key = .str s
  | .list _ => True

/-- What was read so far gives documents, and each open container waits for the one inside it. -/
structure Steady (p : Partial) : Prop where
  root : Whole p.root
  whole : ∀ f ∈ p.frames, Whole (close f)
  keyed : ∀ f ∈ p.frames.tail, Keyed f

/-- A value can come: it has a place. -/
def Awaits (p : Partial) : Prop := Steady p ∧ ∀ f ∈ p.frames, Keyed f

variable {p : Partial} {v : Json} {f : Frame} {frames : List Frame}

theorem mem_insert {entries : Assoc Scalar Json} {s : String} {e : Scalar × Json}
    (he : e ∈ Assoc.insert entries (.str s) v) :
    e ∈ entries ∨ e = (.str s, v) := by
  induction entries with
  | nil => exact Or.inr (List.mem_singleton.mp he)
  | cons d entries ih =>
    unfold Assoc.insert at he
    split at he
    · next hsame =>
      rcases List.mem_cons.mp he with rfl | he
      · rw [eq_str_of_same hsame]
        exact Or.inr rfl
      · exact Or.inl (List.mem_cons_of_mem d he)
    · rcases List.mem_cons.mp he with rfl | he
      · exact Or.inl List.mem_cons_self
      · exact (ih he).imp_left (List.mem_cons_of_mem d)

/-- Writing under a string leaves every key single. -/
theorem nodup_insert {entries : Assoc Scalar Json} {s : String}
    (h : (Assoc.keys entries).Nodup) : (Assoc.keys (Assoc.insert entries (.str s) v)).Nodup := by
  induction entries with
  | nil => exact List.pairwise_singleton _ _
  | cons d entries ih =>
    have hd := List.nodup_cons.mp h
    unfold Assoc.insert
    split
    · exact h
    · next hne =>
      refine List.nodup_cons.mpr ⟨?_, ih hd.2⟩
      intro hmem
      obtain ⟨e, he, hkey⟩ := List.mem_map.mp hmem
      rcases mem_insert he with hold | rfl
      · exact hd.1 (List.mem_map.mpr ⟨e, hold, hkey⟩)
      · rw [← hkey] at hne
        exact hne ((same_str s s).mpr rfl)

theorem whole_store (hf : Whole (close f)) (hkeyed : Keyed f) (hv : Whole v) :
    Whole (close (store v f)) := by
  cases f with
  | list items =>
    cases hf with
    | list parts =>
      refine .list fun x hx => ?_
      rcases List.mem_append.mp hx with hx | hx
      · exact parts x hx
      · rw [List.mem_singleton.mp hx]
        exact hv
  | map entries key =>
    obtain ⟨s, rfl⟩ := hkeyed
    cases hf with
    | map names once parts =>
      refine .map (fun e he => ?_) (nodup_insert once) fun e he => ?_
      · rcases mem_insert he with hold | rfl
        · exact names e hold
        · exact ⟨s, rfl⟩
      · rcases mem_insert he with hold | rfl
        · exact parts e hold
        · exact hv

theorem keyed_store (hkeyed : Keyed f) : Keyed (store v f) := by
  cases f with
  | list items => trivial
  | map entries key => exact hkeyed

theorem Awaits.attach (h : p.Awaits) (hv : Whole v) : (p.attach v).Awaits := by
  obtain ⟨root, frames⟩ := p
  obtain ⟨⟨hroot, hwhole, htail⟩, hkeyed⟩ := h
  cases frames with
  | nil => exact ⟨⟨hv, nofun, nofun⟩, nofun⟩
  | cons f outer =>
    have hf := hkeyed f List.mem_cons_self
    refine ⟨⟨hroot, fun g hg => ?_, htail⟩, fun g hg => ?_⟩
    · rcases List.mem_cons.mp hg with rfl | hg
      · exact whole_store (hwhole f List.mem_cons_self) hf hv
      · exact hwhole g (List.mem_cons_of_mem f hg)
    · rcases List.mem_cons.mp hg with rfl | hg
      · exact keyed_store hf
      · exact hkeyed g (List.mem_cons_of_mem f hg)

theorem Steady.pop (h : p.Steady) : p.pop.Awaits := by
  obtain ⟨root, frames⟩ := p
  obtain ⟨hroot, hwhole, htail⟩ := h
  cases frames with
  | nil => exact ⟨⟨hroot, nofun, nofun⟩, nofun⟩
  | cons f outer =>
    have houter : Awaits ⟨root, outer⟩ := by
      refine ⟨⟨hroot, fun g hg => hwhole g (List.mem_cons_of_mem f hg), fun g hg => ?_⟩, htail⟩
      exact htail g (List.mem_of_mem_tail hg)
    exact houter.attach (hwhole f List.mem_cons_self)

theorem Awaits.open (h : p.Awaits) (hf : Whole (close f)) : Steady ⟨p.root, f :: p.frames⟩ := by
  refine ⟨h.1.root, fun g hg => ?_, h.2⟩
  rcases List.mem_cons.mp hg with rfl | hg
  · exact hf
  · exact h.1.whole g hg

/-- A key gives the map on top of the stack its place for the next value. -/
theorem Steady.key (h : p.Steady) (name : String) : (p.push (.key name)).Awaits := by
  obtain ⟨root, frames⟩ := p
  obtain ⟨hroot, hwhole, htail⟩ := h
  cases frames with
  | nil => exact ⟨⟨hroot, nofun, nofun⟩, nofun⟩
  | cons f outer =>
    cases f with
    | list items =>
      refine ⟨⟨hroot, hwhole, htail⟩, fun g hg => ?_⟩
      rcases List.mem_cons.mp hg with rfl | hg
      · trivial
      · exact htail g hg
    | map entries key =>
      refine ⟨⟨hroot, fun g hg => ?_, htail⟩, fun g hg => ?_⟩
      · have hmap : Whole (close (.map entries key)) := hwhole _ List.mem_cons_self
        rcases List.mem_cons.mp hg with rfl | hg
        · exact hmap
        · exact hwhole g (List.mem_cons_of_mem _ hg)
      · rcases List.mem_cons.mp hg with rfl | hg
        · exact ⟨name, rfl⟩
        · exact htail g hg

theorem Steady.tree (h : p.Steady) : Whole p.tree := by
  obtain ⟨root, frames⟩ := p
  obtain ⟨hroot, hwhole, htail⟩ := h
  rw [Partial.tree]
  simp only at hroot hwhole htail ⊢
  induction hn : frames.length generalizing frames with
  | zero =>
    rw [List.length_eq_zero_iff.mp hn, collapse]
    exact hroot
  | succ n ih =>
    rcases frames with _ | ⟨inner, _ | ⟨outer, rest⟩⟩
    · cases hn
    · rw [collapse]
      exact hwhole inner List.mem_cons_self
    · have hinner := hwhole inner (by simp)
      have houter := hwhole outer (by simp)
      have hkeyed := htail outer (by simp)
      rw [collapse]
      refine ih _ (fun g hg => ?_) (fun g hg => htail g (List.mem_cons_of_mem outer hg))
        (Nat.succ.inj hn)
      rcases List.mem_cons.mp hg with rfl | hg
      · exact whole_store houter hkeyed hinner
      · exact hwhole g (by simp [hg])

theorem Awaits.startList (h : p.Awaits) : (p.push .startList).Awaits := by
  have hempty : Whole (close (.list [])) := .list nofun
  refine ⟨h.open hempty, fun g hg => ?_⟩
  rcases List.mem_cons.mp hg with rfl | hg
  · trivial
  · exact h.2 g hg

theorem Awaits.startMap (h : p.Awaits) : (p.push .startMap).Steady := by
  have hempty : Whole (close (.map [] .null)) := .map nofun List.Pairwise.nil nofun
  exact h.open hempty

mutual
/-- Behind the events of a value, another one can come. -/
theorem Awaits.value {p : Partial} (h : p.Awaits) : (v : Json) → (v.events.foldl push p).Awaits
  | .scalar s => h.attach (.scalar trivial)
  | .list items => by
    rw [events, List.foldl_append, List.foldl_cons]
    exact (h.startList.items items).1.pop
  | .map entries => by
    rw [events, List.foldl_append, List.foldl_cons]
    exact (h.startMap.entries entries).pop
theorem Awaits.items {p : Partial} (h : p.Awaits) :
    (xs : List Json) → ((itemEvents xs).foldl push p).Awaits
  | [] => h
  | x :: xs => by
    rw [itemEvents, List.foldl_append]
    exact (h.value x).items xs
theorem Steady.entries {p : Partial} (h : p.Steady) :
    (xs : List (Scalar × Json)) → ((entryEvents xs).foldl push p).Steady
  | [] => h
  | (k, x) :: xs => by
    rw [entryEvents, List.foldl_cons, List.foldl_append]
    exact ((h.key _).value x).1.entries xs
end

mutual
/-- Wherever the events of a value stop, what was read so far gives documents. -/
theorem Awaits.stopped {p : Partial} {read : List Event} (hp : p.Awaits) :
    (v : Json) → read <+: v.events → (read.foldl push p).Steady
  | .scalar s, h => by
    rcases List.prefix_cons_iff.mp h with rfl | ⟨more, rfl, hmore⟩
    · exact hp.1
    · rw [List.prefix_nil.mp hmore]
      exact (hp.attach (.scalar trivial)).1
  | .list items, h => by
    rcases List.prefix_concat_iff.mp h with rfl | h
    · exact (hp.value (.list items)).1
    · rcases List.prefix_cons_iff.mp h with rfl | ⟨more, rfl, hmore⟩
      · exact hp.1
      · exact hp.startList.stoppedItems items hmore
  | .map entries, h => by
    rcases List.prefix_concat_iff.mp h with rfl | h
    · exact (hp.value (.map entries)).1
    · rcases List.prefix_cons_iff.mp h with rfl | ⟨more, rfl, hmore⟩
      · exact hp.1
      · exact hp.startMap.stoppedEntries entries hmore
theorem Awaits.stoppedItems {p : Partial} {read : List Event} (hp : p.Awaits) :
    (xs : List Json) → read <+: itemEvents xs → (read.foldl push p).Steady
  | [], h => by
    rw [List.prefix_nil.mp h]
    exact hp.1
  | x :: xs, h => by
    rcases prefix_append_cases h with h | ⟨more, -, rfl, hmore⟩
    · exact hp.stopped x h
    · rw [List.foldl_append]
      exact (hp.value x).stoppedItems xs hmore
theorem Steady.stoppedEntries {p : Partial} {read : List Event} (hp : p.Steady) :
    (xs : List (Scalar × Json)) → read <+: entryEvents xs → (read.foldl push p).Steady
  | [], h => by
    rw [List.prefix_nil.mp h]
    exact hp
  | (k, x) :: xs, h => by
    rcases List.prefix_cons_iff.mp h with rfl | ⟨rest, rfl, hrest⟩
    · exact hp
    · rcases prefix_append_cases hrest with h | ⟨more, -, rfl, hmore⟩
      · exact (hp.key _).stopped x h
      · rw [List.foldl_cons, List.foldl_append]
        exact ((hp.key _).value x).1.stoppedEntries xs hmore
end

end Partial

open Partial

/-- What is read of any octets is a document. -/
theorem isDocument_parse [Reader] (data : List UInt8) :
    IsDocument (fun _ => True) (parse data).value := by
  have hempty : Partial.empty.Awaits := ⟨⟨.scalar trivial, nofun, nofun⟩, nofun⟩
  obtain ⟨v, hv⟩ := Reader.begins data
  exact (hempty.stopped v hv).tree

end Exemplar.Json
