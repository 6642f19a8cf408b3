import Exemplar.Identifier.Names
import Exemplar.Proofs.Digits
import Exemplar.Proofs.Document
import Mathlib.Data.List.Nodup
import Mathlib.Tactic.SplitIfs

/-! Names of keys. Different keys get different names, and no name has a character that could not
stand in an identifier. -/
namespace Exemplar

namespace Identifier

def IsWord (s : String) : Prop := ∀ c ∈ s.toList, isWordChar c = true

theorem isWordChar_of_isDigit {c : Char} (h : Decimal.isDigit c = true) : isWordChar c = true := by
  simp [isWordChar, h]

theorem isWord_append {s t : String} (hs : IsWord s) (ht : IsWord t) : IsWord (s ++ t) := by
  intro c hc
  rw [String.toList_append, List.mem_append] at hc
  rcases hc with hc | hc
  · exact hs c hc
  · exact ht c hc

theorem mem_stripUnderscores {s : List Char} {c : Char} (h : c ∈ stripUnderscores s) : c ∈ s := by
  have h := (List.dropWhile_sublist _).subset (List.mem_reverse.mp h)
  exact (List.dropWhile_sublist _).subset (List.mem_reverse.mp h)

theorem isWordChar_of_mem_sanitize {text : String} {c : Char} (h : c ∈ sanitize text) :
    isWordChar c = true := by
  have hplain {c : Char}
      (h : c ∈ (Text.asciiResidue text.toList).map fun c => if isWordChar c then c else '_') :
      isWordChar c = true := by
    obtain ⟨c', -, rfl⟩ := List.mem_map.mp h
    split_ifs with hc
    · exact hc
    · decide
  have hstripped {c : Char} (h : c ∈
      let name := (Text.asciiResidue text.toList).map fun c => if isWordChar c then c else '_'
      if isDunder name then stripUnderscores name else name) : isWordChar c = true := by
    dsimp only at h
    split_ifs at h
    · exact hplain (mem_stripUnderscores h)
    · exact hplain h
  rw [sanitize] at h
  split at h
  · obtain rfl := List.mem_singleton.mp h
    decide
  · rename_i heq
    have hkeep {d : Char} (hd : d ∈ _ :: _) := hstripped (heq ▸ hd)
    split_ifs at h
    · rcases List.mem_cons.mp h with rfl | h
      · decide
      · exact hkeep h
    · exact hkeep h

theorem isWord_ofText (text : String) : IsWord (ofText text) := by
  have hname : IsWord (String.ofList (sanitize text)) := by
    intro c hc
    rw [String.toList_ofList] at hc
    exact isWordChar_of_mem_sanitize hc
  rw [ofText]
  split_ifs
  · exact isWord_append hname (by simp [IsWord]; decide)
  · exact hname

end Identifier

open Identifier

theorem toList_numberedName (name : String) (number : Nat) :
    (numberedName name number).toList = name.toList ++ '_' :: Decimal.digits number := by
  have hshown (s : String) : toString s = s := rfl
  simp [numberedName, hshown, String.toList_append, Decimal.natText]

theorem numberedName_injective {name : String} {m n : Nat}
    (h : numberedName name m = numberedName name n) : m = n := by
  have h := congrArg String.toList h
  rw [toList_numberedName, toList_numberedName] at h
  exact Decimal.digits_injective (List.cons.inj (List.append_cancel_left h)).2

theorem isWord_numberedName {name : String} (h : IsWord name) (number : Nat) :
    IsWord (numberedName name number) := by
  intro c hc
  rw [toList_numberedName, List.mem_append, List.mem_cons] at hc
  rcases hc with hc | rfl | hc
  · exact h c hc
  · decide
  · exact isWordChar_of_isDigit (Decimal.isDigit_of_mem_digits hc)

/-- As long as the search meets taken names only, all numbers up to its end are taken. -/
theorem taken_of_firstFreeName {name : String} {taken : List String} {tries number : Nat}
    (h : firstFreeName name taken tries number ∈ taken) {i : Nat} (hi : i ≤ tries) :
    numberedName name (number + i) ∈ taken := by
  induction tries generalizing number i with
  | zero =>
    obtain rfl : i = 0 := Nat.le_zero.mp hi
    exact h
  | succ tries ih =>
    rw [firstFreeName] at h
    split_ifs at h with hfirst
    · cases i with
      | zero => simpa using hfirst
      | succ i =>
        have hrest := ih h (Nat.le_of_succ_le_succ hi)
        rwa [Nat.add_assoc, Nat.add_comm 1 i] at hrest
    · exact absurd (by simpa using h) hfirst

/-- There are more numbers to try than names that are taken. -/
theorem firstFreeName_not_mem (name : String) (taken : List String) (number : Nat) :
    firstFreeName name taken taken.length number ∉ taken := by
  intro h
  have hsubset : (List.range (taken.length + 1)).map (fun i => numberedName name (number + i)) ⊆
      taken := by
    intro n hn
    obtain ⟨i, hi, rfl⟩ := List.mem_map.mp hn
    exact taken_of_firstFreeName h (Nat.le_of_lt_succ (List.mem_range.mp hi))
  have hnodup : ((List.range (taken.length + 1)).map
      fun i => numberedName name (number + i)).Nodup :=
    List.Nodup.map (fun i j hij => Nat.add_left_cancel (numberedName_injective hij))
      List.nodup_range
  have hlength := hnodup.length_le_of_subset hsubset
  rw [List.length_map, List.length_range] at hlength
  exact Nat.not_succ_le_self _ hlength

theorem freeName_not_mem (name : String) (taken : List String) : freeName name taken ∉ taken := by
  rw [freeName]
  split_ifs with h
  · exact firstFreeName_not_mem name taken 2
  · simpa using h

theorem isWord_firstFreeName {name : String} (h : IsWord name) (taken : List String)
    (tries number : Nat) : IsWord (firstFreeName name taken tries number) := by
  induction tries generalizing number with
  | zero => exact isWord_numberedName h number
  | succ tries ih =>
    rw [firstFreeName]
    split_ifs
    · exact ih (number + 1)
    · exact isWord_numberedName h number

theorem isWord_freeName {name : String} (h : IsWord name) (taken : List String) :
    IsWord (freeName name taken) := by
  rw [freeName]
  split_ifs
  · exact isWord_firstFreeName h taken _ _
  · exact h

namespace NameTable

/-- A table that names keys in order: each has one name, no two have the same, and the other
direction says the same. -/
structure Names (t : NameTable) (keys : List Scalar) : Prop where
  keys_eq : Assoc.keys t.names = keys
  mirrored : t.keys = t.names.map Prod.swap
  once : (t.names.map Prod.snd).Nodup
  words : ∀ e ∈ t.names, IsWord e.2

theorem names_empty : empty.Names [] := ⟨rfl, rfl, List.nodup_nil, by simp [empty]⟩

variable {convert : String → String} {t : NameTable} {keys : List Scalar}

/-- Whatever keys get names, the names are as all free names are. -/
theorem all_ofKeys {P : String → Prop} (hfree : ∀ text taken, P (freeName (convert text) taken))
    (keys : List Scalar) : ∀ e ∈ (ofKeys convert keys).names, P e.2 := by
  have hall (t : NameTable) (ht : ∀ e ∈ t.names, P e.2) :
      ∀ e ∈ (keys.foldl (add convert) t).names, P e.2 := by
    induction keys generalizing t with
    | nil => exact ht
    | cons key keys ih =>
      refine ih _ ?_
      rw [NameTable.add]
      split
      · exact ht
      · next hcontains =>
        have habsent : Assoc.get? t.names key = none := by
          simpa [contains, Assoc.has] using hcontains
        rw [NameTable.bind, Assoc.insert_new (Assoc.get?_none.mp habsent)]
        intro e he
        rcases List.mem_append.mp he with he | he
        · exact ht e he
        · rw [List.mem_singleton.mp he]
          exact hfree _ _
  exact hall empty (by simp [empty])

theorem words_ofKeys (hconvert : ∀ s, IsWord (convert s)) (keys : List Scalar) :
    ∀ e ∈ (ofKeys convert keys).names, IsWord e.2 :=
  all_ofKeys (fun text taken => isWord_freeName (hconvert text) taken) keys

/-- Naming a key that is not there yet. -/
theorem Names.add (hconvert : ∀ s, IsWord (convert s)) (h : t.Names keys) {key : Scalar}
    (hnew : ∀ k ∈ keys, (k == key) = false) : (t.add convert key).Names (keys ++ [key]) := by
  have habsent : ∀ e ∈ t.names, (e.1 == key) = false := by
    intro e he
    refine hnew e.1 ?_
    rw [← h.keys_eq]
    exact List.mem_map.mpr ⟨e, he, rfl⟩
  have hcontains : t.contains key = false := by
    rw [contains, Assoc.has, Assoc.get?_none.mpr habsent]
    rfl
  have htaken : Assoc.keys t.keys = t.names.map Prod.snd := by
    rw [h.mirrored, Assoc.keys, List.map_map]
    rfl
  have hfree := freeName_not_mem (convert key.plainText) (Assoc.keys t.keys)
  have hnames := Assoc.insert_new habsent (freeName (convert key.plainText) (Assoc.keys t.keys))
  have hkeys := Assoc.keys_insert_new hfree key
  rw [NameTable.add, hcontains]
  simp only [Bool.false_eq_true, if_false, bind]
  rw [hnames, hkeys]
  refine ⟨?_, ?_, ?_, ?_⟩
  · rw [Assoc.keys, List.map_append, ← Assoc.keys, h.keys_eq]
    rfl
  · rw [List.map_append, h.mirrored]
    rfl
  · rw [List.map_append, List.nodup_append]
    refine ⟨h.once, by simp, ?_⟩
    intro a ha b hb
    obtain rfl := List.mem_singleton.mp hb
    rintro rfl
    exact hfree (htaken ▸ ha)
  · intro e he
    rcases List.mem_append.mp he with he | he
    · exact h.words e he
    · obtain rfl := List.mem_singleton.mp he
      exact isWord_freeName (hconvert _) _

theorem names_foldl (hconvert : ∀ s, IsWord (convert s)) {done keys : List Scalar}
    (h : t.Names done) (hnew : (done ++ keys).Pairwise fun k k' => (k == k') = false) :
    (keys.foldl (NameTable.add convert) t).Names (done ++ keys) := by
  induction keys generalizing t done with
  | nil => simpa using h
  | cons key keys ih =>
    have hfirst : ∀ k ∈ done, (k == key) = false :=
      fun k hk => (List.pairwise_append.mp hnew).2.2 k hk key (by simp)
    have hsplit : done ++ key :: keys = done ++ [key] ++ keys := by simp
    rw [hsplit] at hnew ⊢
    exact ih (h.add hconvert hfirst) hnew

/-- Keys that are pairwise different all get names. -/
theorem names_ofKeys (hconvert : ∀ s, IsWord (convert s))
    (hkeys : keys.Pairwise fun k k' => (k == k') = false) : (ofKeys convert keys).Names keys := by
  rw [ofKeys]
  exact names_foldl hconvert names_empty hkeys

end NameTable
end Exemplar
