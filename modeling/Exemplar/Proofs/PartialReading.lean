import Exemplar.Proofs.Rebuilding
import Mathlib.Data.List.Infix

/-! Events that stop early. Wherever the events of a document stop, what was read is an initial part
of it: of the containers on the way to the stop the last parts are incomplete, and all others are as
they are in the document. -/
namespace Exemplar.Json
open Partial

/-- A tree is an initial part of another one: each of its containers holds the first parts of what
the other holds in its place, complete but for the last one. -/
inductive Begins : Json → Json → Prop
  | whole (x : Json) : Begins x x
  | list (done rest : List Json) : Begins (.list done) (.list (done ++ rest))
  | inList (done : List Json) {j x : Json} (rest : List Json) (last : Begins j x) :
      Begins (.list (done ++ [j])) (.list (done ++ x :: rest))
  | map (done rest : List (Scalar × Json)) : Begins (.map done) (.map (done ++ rest))
  | inMap (done : List (Scalar × Json)) (k : Scalar) {j x : Json} (rest : List (Scalar × Json))
      (last : Begins j x) : Begins (.map (done ++ [(k, j)])) (.map (done ++ (k, x) :: rest))

/-- All that was read is in a tree, and nothing else: its events are those that were read, without a
key at the end, followed by the ends of the containers that were open. -/
def Shown (read : List Event) (j : Json) : Prop :=
  ∃ shown pending ends, read = shown ++ pending ∧ events j = shown ++ ends ∧
    (pending = [] ∨ ∃ name, pending = [.key name]) ∧ ∀ e ∈ ends, e = .endMap ∨ e = .endList

/-- The first events of a document, at least one, and what they give: the document itself, or a
container that is open behind complete parts, behind a key, or inside a part. -/
inductive Read : Json → List Event → Json → Prop
  | whole (x : Json) : Read x (events x) x
  | list (done rest : List Json) :
      Read (.list (done ++ rest)) (.startList :: itemEvents done) (.list done)
  | inList (done : List Json) {x j : Json} {read : List Event} (rest : List Json)
      (last : Read x read j) :
      Read (.list (done ++ x :: rest)) (.startList :: (itemEvents done ++ read))
        (.list (done ++ [j]))
  | map (done rest : List (Scalar × Json)) :
      Read (.map (done ++ rest)) (.startMap :: entryEvents done) (.map done)
  | atKey (done : List (Scalar × Json)) (k : Scalar) (x : Json) (rest : List (Scalar × Json)) :
      Read (.map (done ++ (k, x) :: rest))
        (.startMap :: (entryEvents done ++ [.key (String.ofList (writePlain k))])) (.map done)
  | inMap (done : List (Scalar × Json)) (k : Scalar) {x j : Json} {read : List Event}
      (rest : List (Scalar × Json)) (last : Read x read j) :
      Read (.map (done ++ (k, x) :: rest))
        (.startMap :: (entryEvents done ++ .key (String.ofList (writePlain k)) :: read))
        (.map (done ++ [(k, j)]))

section

variable {t j x : Json} {read : List Event}

theorem Read.begins (h : Read t read j) : Begins j t := by
  induction h with
  | whole x => exact .whole x
  | list done rest => exact .list done rest
  | inList done rest _ ih => exact .inList done rest ih
  | map done rest => exact .map done rest
  | atKey done k x rest => exact .map done _
  | inMap done k rest _ ih => exact .inMap done k rest ih

/-- The end of one more open container comes behind the others. -/
theorem Shown.within (h : Shown read j) (before : List Event) {e : Event}
    (he : e = .endMap ∨ e = .endList) {outer : Json}
    (houter : events outer = before ++ events j ++ [e]) : Shown (before ++ read) outer := by
  obtain ⟨shown, pending, ends, rfl, hj, hpending, hends⟩ := h
  refine ⟨before ++ shown, pending, ends ++ [e], by rw [List.append_assoc], ?_, hpending, ?_⟩
  · rw [houter, hj, List.append_assoc, List.append_assoc, List.append_assoc]
  · intro e' he'
    rcases List.mem_append.mp he' with he' | he'
    · exact hends e' he'
    · rwa [List.mem_singleton.mp he']

theorem Read.shown (h : Read t read j) : Shown read j := by
  induction h with
  | whole x => exact ⟨events x, [], [], by simp, by simp, .inl rfl, by simp⟩
  | list done rest =>
    exact ⟨.startList :: itemEvents done, [], [.endList], by simp, rfl, .inl rfl, by simp⟩
  | inList done rest _ ih =>
    refine ih.within (.startList :: itemEvents done) (.inr rfl) ?_
    simp [events, itemEvents_append, itemEvents]
  | map done rest =>
    exact ⟨.startMap :: entryEvents done, [], [.endMap], by simp, rfl, .inl rfl, by simp⟩
  | atKey done k x rest =>
    exact ⟨.startMap :: entryEvents done, [.key (String.ofList (writePlain k))], [.endMap], by simp,
      rfl, .inr ⟨_, rfl⟩, by simp⟩
  | @inMap done k x j read rest _ ih =>
    have houter : events (.map (done ++ [(k, j)])) =
        (.startMap :: (entryEvents done ++ [.key (String.ofList (writePlain k))])) ++ events j ++
          [.endMap] := by
      simp [events, entryEvents_append, entryEvents]
    simpa using ih.within _ (.inl rfl) houter

/-- A list that begins an appended one stops in its first part or goes on into the second. -/
theorem prefix_append_cases {α : Type} {pre xs ys : List α} (h : pre <+: xs ++ ys) :
    pre <+: xs ∨ ∃ more, more ≠ [] ∧ pre = xs ++ more ∧ more <+: ys := by
  obtain ⟨rest, hrest⟩ := h
  rcases List.append_eq_append_iff.mp hrest with ⟨more, rfl, -⟩ | ⟨more, rfl, hys⟩
  · exact .inl ⟨more, rfl⟩
  · cases more with
    | nil => exact .inl ⟨[], by simp⟩
    | cons e more => exact .inr ⟨e :: more, by simp, rfl, rest, hys.symm⟩

/-- The first events of items are those of complete items, or stop inside one. -/
theorem prefix_items {xs : List Json} (h : read <+: itemEvents xs) :
    (∃ done rest, xs = done ++ rest ∧ read = itemEvents done) ∨
      ∃ done x rest more, xs = done ++ x :: rest ∧ read = itemEvents done ++ more ∧ more ≠ [] ∧
        more <+: events x := by
  induction xs generalizing read with
  | nil => exact .inl ⟨[], [], rfl, List.prefix_nil.mp h⟩
  | cons x xs ih =>
    rcases prefix_append_cases h with hstop | ⟨more, -, rfl, hmore⟩
    · cases read with
      | nil => exact .inl ⟨[], x :: xs, rfl, rfl⟩
      | cons e read => exact .inr ⟨[], x, xs, e :: read, rfl, rfl, by simp, hstop⟩
    · rcases ih hmore with ⟨done, rest, rfl, rfl⟩ | ⟨done, y, rest, more, rfl, rfl, hy⟩
      · exact .inl ⟨x :: done, rest, rfl, rfl⟩
      · exact .inr ⟨x :: done, y, rest, more, rfl, by rw [itemEvents, List.append_assoc], hy⟩

/-- The first events of entries are those of complete entries, or stop behind a key or inside a
value. -/
theorem prefix_entries {xs : List (Scalar × Json)} (h : read <+: entryEvents xs) :
    (∃ done rest, xs = done ++ rest ∧ read = entryEvents done) ∨
      ∃ done k x rest more, xs = done ++ (k, x) :: rest ∧
        read = entryEvents done ++ .key (String.ofList (writePlain k)) :: more ∧
        more <+: events x := by
  induction xs generalizing read with
  | nil => exact .inl ⟨[], [], rfl, List.prefix_nil.mp h⟩
  | cons entry xs ih =>
    obtain ⟨k, x⟩ := entry
    rcases List.prefix_cons_iff.mp h with rfl | ⟨read, rfl, hread⟩
    · exact .inl ⟨[], (k, x) :: xs, rfl, rfl⟩
    · rcases prefix_append_cases hread with hstop | ⟨more, -, rfl, hmore⟩
      · exact .inr ⟨[], k, x, xs, read, rfl, rfl, hstop⟩
      · rcases ih hmore with ⟨done, rest, rfl, rfl⟩ | ⟨done, k', y, rest, more, rfl, rfl, hy⟩
        · exact .inl ⟨(k, x) :: done, rest, rfl, rfl⟩
        · exact .inr ⟨(k, x) :: done, k', y, rest, more, rfl, by simp [entryEvents], hy⟩

variable {q : Scalar → Prop}

/-- Whatever first events of a document were read, they give something. -/
theorem exists_read (ht : IsDocument q t) (hread : read <+: events t) (hne : read ≠ []) :
    ∃ j, Read t read j := by
  induction ht generalizing read with
  | @scalar s _ =>
    have hread : read <+: [] ++ [Event.scalar s] := hread
    rcases List.prefix_concat_iff.mp hread with rfl | h
    · exact ⟨_, .whole (.scalar s)⟩
    · exact absurd (List.prefix_nil.mp h) hne
  | @list items _ ih =>
    rcases List.prefix_concat_iff.mp hread with rfl | h
    · exact ⟨_, .whole (.list items)⟩
    · obtain rfl | ⟨read, rfl, hitems⟩ := List.prefix_cons_iff.mp h
      · exact absurd rfl hne
      · rcases prefix_items hitems with ⟨done, rest, rfl, rfl⟩ |
          ⟨done, x, rest, more, rfl, rfl, hmore, hx⟩
        · exact ⟨_, .list done rest⟩
        · obtain ⟨j, hj⟩ := ih x (by simp) hx hmore
          exact ⟨_, .inList done rest hj⟩
  | @map entries _ _ _ ih =>
    rcases List.prefix_concat_iff.mp hread with rfl | h
    · exact ⟨_, .whole (.map entries)⟩
    · obtain rfl | ⟨read, rfl, hentries⟩ := List.prefix_cons_iff.mp h
      · exact absurd rfl hne
      · rcases prefix_entries hentries with ⟨done, rest, rfl, rfl⟩ |
          ⟨done, k, x, rest, more, rfl, rfl, hx⟩
        · exact ⟨_, .map done rest⟩
        · cases more with
          | nil => exact ⟨_, .atKey done k x rest⟩
          | cons e more =>
            obtain ⟨j, hj⟩ := ih (k, x) (by simp) hx (by simp)
            exact ⟨_, .inMap done k rest hj⟩

end

theorem tree_frame (root : Json) (frame : Frame) (outer : List Frame) :
    Partial.tree ⟨root, frame :: outer⟩ = (attach ⟨root, outer⟩ (close frame)).tree := by
  cases outer with
  | nil => simp [tree, attach, collapse]
  | cons f outer => simp [tree, attach, collapse]

variable {q : Scalar → Prop} {t j : Json} {read : List Event}

/-- Reading the first events of a part of a document gives the document with what was read of the
part. -/
theorem Read.tree_push (h : Read t read j) (ht : IsDocument q t) (p : Partial) :
    (read.foldl push p).tree = (p.attach j).tree := by
  induction h generalizing p with
  | whole x => rw [push_events ht]
  | list done rest =>
    cases ht with | list parts =>
    rw [List.foldl_cons, push,
      push_items (fun x hx p => push_events (parts x (by simp [hx])) p), tree_frame]
    rfl
  | inList done rest _ ih =>
    cases ht with | list parts =>
    rw [List.foldl_cons, push, List.foldl_append,
      push_items (fun x hx p => push_events (parts x (by simp [hx])) p), ih (parts _ (by simp)),
      attach, tree_frame]
    rfl
  | map done rest =>
    cases ht with | map names once parts =>
    obtain ⟨key, hread⟩ := push_entries (fun e he p => push_events (parts e (by simp [he])) p)
      (fun e he => names e (by simp [he])) p.root [] .null p.frames
      (List.pairwise_append.mp (pairwise_keys names once)).1
    rw [List.foldl_cons, push, hread, tree_frame]
    rfl
  | atKey done k x rest =>
    cases ht with | map names once parts =>
    obtain ⟨key, hread⟩ := push_entries (fun e he p => push_events (parts e (by simp [he])) p)
      (fun e he => names e (by simp [he])) p.root [] .null p.frames
      (List.pairwise_append.mp (pairwise_keys names once)).1
    rw [List.foldl_cons, push, List.foldl_append, hread, List.foldl_cons, List.foldl_nil, push,
      tree_frame]
    rfl
  | @inMap done k x j read rest _ ih =>
    cases ht with | map names once parts =>
    have hpairs := List.pairwise_append.mp (pairwise_keys names once)
    obtain ⟨key, hread⟩ := push_entries (fun e he p => push_events (parts e (by simp [he])) p)
      (fun e he => names e (by simp [he])) p.root [] .null p.frames hpairs.1
    obtain ⟨name, rfl⟩ : ∃ name, k = .str name := names (k, x) (by simp)
    have hname : String.ofList (writePlain (.str name)) = name := String.ofList_toList
    have hinsert (v : Json) : Assoc.insert done (.str name) v = done ++ [(.str name, v)] :=
      Assoc.insert_new (fun e he => hpairs.2.2 e he (.str name, x) (by simp)) v
    rw [List.foldl_cons, push, List.foldl_append, hread, List.foldl_cons, push, hname]
    simp only [List.nil_append]
    rw [ih (parts (.str name, x) (by simp)), attach, tree_frame, store, hinsert]
    rfl

theorem Read.ofEvents_eq (h : Read t read j) (ht : IsDocument q t) : ofEvents read = j := by
  rw [ofEvents, h.tree_push ht, empty, attach, tree, collapse]

end Exemplar.Json
