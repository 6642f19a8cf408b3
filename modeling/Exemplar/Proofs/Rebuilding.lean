import Exemplar.Json.Tree
import Exemplar.Proofs.Document

/-! Building trees from their events. Taking in all events of a document puts the document where a
value is due, and leaves the containers around it open. -/
namespace Exemplar.Json
open Partial

variable {q : Scalar → Prop}

theorem push_items {xs : List Json}
    (hxs : ∀ x ∈ xs, ∀ p : Partial, (events x).foldl push p = p.attach x)
    (root : Json) (acc : List Json) (frames : List Frame) :
    (itemEvents xs).foldl push ⟨root, .list acc :: frames⟩ = ⟨root, .list (acc ++ xs) :: frames⟩ := by
  induction xs generalizing acc with
  | nil => simp [itemEvents]
  | cons x xs ih =>
    rw [itemEvents, List.foldl_append, hxs x (by simp)]
    simp only [attach, store]
    rw [ih (fun y hy => hxs y (by simp [hy])), List.append_assoc, List.singleton_append]

/-- The entries go behind those that were read before, as long as no key comes up again. -/
theorem push_entries {xs : List (Scalar × Json)}
    (hxs : ∀ e ∈ xs, ∀ p : Partial, (events e.2).foldl push p = p.attach e.2)
    (hnames : ∀ e ∈ xs, ∃ s, e.1 = .str s) (root : Json) (acc : List (Scalar × Json)) (key : Scalar)
    (frames : List Frame) (hnew : (acc ++ xs).Pairwise fun e e' => (e.1 == e'.1) = false) :
    ∃ key', (entryEvents xs).foldl push ⟨root, .map acc key :: frames⟩ =
      ⟨root, .map (acc ++ xs) key' :: frames⟩ := by
  induction xs generalizing acc key with
  | nil => exact ⟨key, by simp [entryEvents]⟩
  | cons e xs ih =>
    obtain ⟨k, x⟩ := e
    obtain ⟨s, hk⟩ := hnames (k, x) (by simp)
    have hk : k = .str s := hk
    subst hk
    have hkey : String.ofList (writePlain (.str s)) = s := String.ofList_toList
    have hinsert : Assoc.insert acc (.str s) x = acc ++ [(.str s, x)] :=
      Assoc.insert_new (fun e he => (List.pairwise_append.mp hnew).2.2 e he (.str s, x) (by simp)) x
    have hsplit : acc ++ (Scalar.str s, x) :: xs = acc ++ [(.str s, x)] ++ xs := by simp
    rw [hsplit] at hnew ⊢
    obtain ⟨key', hread⟩ := ih (fun e he => hxs e (by simp [he])) (fun e he => hnames e (by simp [he]))
      (acc ++ [(.str s, x)]) (.str s) hnew
    refine ⟨key', ?_⟩
    have hvalue := hxs (.str s, x) (by simp)
    rw [entryEvents, List.foldl_cons, List.foldl_append, push, hkey]
    simp only [hvalue, attach, store, hinsert]
    exact hread

theorem push_events {v : Json} (hv : IsDocument q v) (p : Partial) :
    (events v).foldl push p = p.attach v := by
  induction hv generalizing p with
  | scalar => rfl
  | list _ ih =>
    rw [events, List.cons_append, List.foldl_cons, List.foldl_append, push, push_items ih]
    rfl
  | map names once _ ih =>
    obtain ⟨key, hread⟩ := push_entries ih names p.root [] .null p.frames
      (pairwise_keys names once)
    rw [events, List.cons_append, List.foldl_cons, List.foldl_append, push, hread]
    rfl

/-- The events of a document build the document. -/
theorem ofEvents_events {v : Json} (hv : IsDocument q v) : ofEvents (events v) = v := by
  rw [ofEvents, push_events hv]
  simp [attach, empty, tree, collapse]

end Exemplar.Json
