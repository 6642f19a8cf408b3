import Exemplar.Json.Basic
import Exemplar.Proofs.Tables

/-! Documents: trees whose maps have strings as keys, each of them once. -/
namespace Exemplar.Json

/-- A tree in which every map has different strings as keys and every scalar meets a condition. -/
inductive IsDocument (p : Scalar → Prop) : Json → Prop
  | scalar {s : Scalar} (holds : p s) : IsDocument p (.scalar s)
  | list {items : List Json} (parts : ∀ x ∈ items, IsDocument p x) : IsDocument p (.list items)
  | map {entries : List (Scalar × Json)} (names : ∀ e ∈ entries, ∃ s, e.1 = .str s)
      (once : (Assoc.keys entries).Nodup) (parts : ∀ e ∈ entries, IsDocument p e.2) :
      IsDocument p (.map entries)

/-- What holds of all scalars of a document can be weakened. -/
theorem IsDocument.imp {p q : Scalar → Prop} (h : ∀ s, p s → q s) {v : Json}
    (hv : IsDocument p v) : IsDocument q v := by
  induction hv with
  | scalar hs => exact .scalar (h _ hs)
  | list _ ih => exact .list ih
  | map names once _ ih => exact .map names once ih

section

variable (p : Scalar → Prop) [DecidablePred p]

mutual
def isDocument : Json → Bool
  | .scalar s => decide (p s)
  | .list items => itemsAreDocuments items
  | .map entries => decide (Assoc.keys entries).Nodup && entriesAreDocuments entries
def itemsAreDocuments : List Json → Bool
  | [] => true
  | x :: xs => isDocument x && itemsAreDocuments xs
def entriesAreDocuments : List (Scalar × Json) → Bool
  | [] => true
  | (.str _, x) :: xs => isDocument x && entriesAreDocuments xs
  | _ :: _ => false
end

variable {p}

mutual
theorem isDocument_iff : (v : Json) → (isDocument p v = true ↔ IsDocument p v)
  | .scalar s => by
    rw [isDocument, decide_eq_true_iff]
    exact ⟨.scalar, fun | .scalar hs => hs⟩
  | .list items => by
    rw [isDocument, itemsAreDocuments_iff items]
    exact ⟨.list, fun | .list parts => parts⟩
  | .map entries => by
    rw [isDocument, Bool.and_eq_true, decide_eq_true_iff, entriesAreDocuments_iff entries]
    exact ⟨fun ⟨once, names, parts⟩ => .map names once parts,
      fun | .map names once parts => ⟨once, names, parts⟩⟩
theorem itemsAreDocuments_iff : (items : List Json) →
    (itemsAreDocuments p items = true ↔ ∀ x ∈ items, IsDocument p x)
  | [] => by simp [itemsAreDocuments]
  | x :: xs => by
    rw [itemsAreDocuments, Bool.and_eq_true, isDocument_iff x, itemsAreDocuments_iff xs,
      List.forall_mem_cons]
theorem entriesAreDocuments_iff : (entries : List (Scalar × Json)) →
    (entriesAreDocuments p entries = true ↔
      (∀ e ∈ entries, ∃ s, e.1 = .str s) ∧ ∀ e ∈ entries, IsDocument p e.2)
  | [] => by simp [entriesAreDocuments]
  | (key, x) :: xs => by
    rw [List.forall_mem_cons, List.forall_mem_cons]
    cases key with
    | str s =>
      rw [entriesAreDocuments, Bool.and_eq_true, isDocument_iff x, entriesAreDocuments_iff xs]
      exact ⟨fun ⟨hx, names, parts⟩ => ⟨⟨⟨s, rfl⟩, names⟩, hx, parts⟩,
        fun ⟨⟨_, names⟩, hx, parts⟩ => ⟨hx, names, parts⟩⟩
    | _ => simp [entriesAreDocuments]
end

instance (v : Json) : Decidable (IsDocument p v) := decidable_of_iff _ (isDocument_iff v)

end

theorem same_str (a b : String) : ((Scalar.str a == Scalar.str b) = true) ↔ a = b := by
  change decide (a = b) = true ↔ a = b
  exact decide_eq_true_iff

/-- Nothing but a string is the same key as a string. -/
theorem eq_str_of_same {k : Scalar} {s : String} (h : (k == .str s) = true) : k = .str s := by
  cases k with
  | str t => rw [(same_str t s).mp h]
  | null => cases h
  | bool b => cases h
  | int i => cases h
  | float x => cases h

/-- Different strings are different keys. -/
theorem pairwise_keys {α : Type} {entries : List (Scalar × α)}
    (names : ∀ e ∈ entries, ∃ s, e.1 = .str s) (once : (Assoc.keys entries).Nodup) :
    entries.Pairwise fun e e' => (e.1 == e'.1) = false := by
  have hne : entries.Pairwise fun e e' => e.1 ≠ e'.1 := List.pairwise_map.mp once
  refine List.Pairwise.imp_of_mem (fun {e e'} he he' h => ?_) hne
  obtain ⟨s, hs⟩ := names e he
  obtain ⟨s', hs'⟩ := names e' he'
  rw [hs, hs'] at h ⊢
  rw [← Bool.not_eq_true, same_str]
  rintro rfl
  exact h rfl

end Exemplar.Json
