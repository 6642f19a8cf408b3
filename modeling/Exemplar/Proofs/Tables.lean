import Exemplar.Assoc
import Mathlib.Data.List.Forall2
import Mathlib.Tactic.SplitIfs

/-! Laws of insertion-ordered tables: what is found under a key after writing, and which tables a
list of entries with different keys makes. -/
namespace Exemplar

theorem exists_of_forall₂ {α β : Type} {R : α → β → Prop} {xs : List α} {ys : List β}
    (h : List.Forall₂ R xs ys) {x : α} (hx : x ∈ xs) : ∃ y ∈ ys, R x y := by
  induction h with
  | nil => cases hx
  | @cons x' y xs ys hfirst _ ih =>
    rcases List.mem_cons.mp hx with rfl | hx
    · exact ⟨y, by simp, hfirst⟩
    · obtain ⟨y', hy', hrel⟩ := ih hx
      exact ⟨y', by simp [hy'], hrel⟩

theorem ok_of_toOption {ε α : Type} {x : Except ε α} {a : α} (h : a ∈ x.toOption) : x = .ok a := by
  cases x with
  | error e => cases h
  | ok b =>
    cases h
    rfl

namespace Assoc

variable {κ α : Type} [BEq κ]

theorem insert_new {t : Assoc κ α} {k : κ} (hk : ∀ e ∈ t, (e.1 == k) = false) (a : α) :
    insert t k a = t ++ [(k, a)] := by
  induction t with
  | nil => rfl
  | cons e t ih =>
    have he := hk e (by simp)
    simp only [insert, he, Bool.false_eq_true, if_false, List.cons_append]
    rw [ih fun e' h => hk e' (by simp [h])]

theorem get?_none {t : Assoc κ α} {k : κ} : get? t k = none ↔ ∀ e ∈ t, (e.1 == k) = false := by
  induction t with
  | nil => simp [get?]
  | cons e t ih =>
    cases he : e.1 == k with
    | true => simp [get?, he]
    | false => simp [get?, he, ih]

theorem get?_mem {t : Assoc κ α} {k : κ} {a : α} (h : get? t k = some a) :
    ∃ k', (k', a) ∈ t ∧ (k' == k) = true := by
  induction t with
  | nil => simp [get?] at h
  | cons e t ih =>
    simp only [get?] at h
    split_ifs at h with he
    · refine ⟨e.1, ?_, he⟩
      rw [← Option.some.inj h]
      exact List.mem_cons_self
    · obtain ⟨k', hk', heq⟩ := ih h
      exact ⟨k', List.mem_cons_of_mem e hk', heq⟩

/-- What is not found in the first of two tables is looked up and written in the second. -/
theorem get?_append {t : Assoc κ α} {k : κ} (h : get? t k = none) (u : Assoc κ α) :
    get? (t ++ u) k = get? u k := by
  induction t with
  | nil => rfl
  | cons e t ih =>
    have he := get?_none.mp h e List.mem_cons_self
    rw [get?, if_neg (by simp [he])] at h
    rw [List.cons_append, get?, if_neg (by simp [he])]
    exact ih h

/-- What is found in the first of two tables is found in both together. -/
theorem get?_append_found {t : Assoc κ α} {k : κ} {a : α} (h : get? t k = some a)
    (u : Assoc κ α) : get? (t ++ u) k = some a := by
  induction t with
  | nil => cases h
  | cons e t ih =>
    rw [get?] at h
    rw [List.cons_append, get?]
    split_ifs at h ⊢ with he
    · exact h
    · exact ih h

theorem insert_append {t : Assoc κ α} {k : κ} (h : get? t k = none) (u : Assoc κ α) (a : α) :
    insert (t ++ u) k a = t ++ insert u k a := by
  induction t with
  | nil => rfl
  | cons e t ih =>
    have he := get?_none.mp h e List.mem_cons_self
    rw [get?, if_neg (by simp [he])] at h
    rw [List.cons_append, insert, if_neg (by simp [he]), ih h, List.cons_append]

theorem modify_append {t : Assoc κ α} {k : κ} (h : get? t k = none) (u : Assoc κ α) (f : α → α) :
    modify (t ++ u) k f = t ++ modify u k f := by
  rw [modify, modify, get?_append h]
  cases get? u k with
  | none => rfl
  | some a => exact insert_append h u (f a)

theorem get?_map {β : Type} (t : Assoc κ α) (f : α → β) (k : κ) :
    get? (t.map fun e => (e.1, f e.2)) k = (get? t k).map f := by
  induction t with
  | nil => rfl
  | cons e t ih =>
    simp only [List.map_cons, get?]
    split_ifs
    · rfl
    · exact ih

/-- Writing what is already there changes nothing. -/
theorem insert_same {t : Assoc κ α} {k : κ} {a : α} (h : get? t k = some a) : insert t k a = t := by
  induction t with
  | nil => cases h
  | cons e t ih =>
    simp only [get?] at h
    simp only [insert]
    split_ifs at h ⊢
    · rw [← Option.some.inj h]
    · rw [ih h]

/-- Writing and dropping work on the one entry that is found under the key, if there is one. -/
theorem split_at (t : Assoc κ α) (k : κ) :
    (∃ before k' a after, t = before ++ (k', a) :: after ∧ get? t k = some a ∧
      erase t k = before ++ after ∧ ∀ b, insert t k b = before ++ (k', b) :: after) ∨
    get? t k = none ∧ ∀ b, insert t k b = t ++ [(k, b)] := by
  induction t with
  | nil => exact Or.inr ⟨rfl, fun b => rfl⟩
  | cons e t ih =>
    by_cases he : (e.1 == k) = true
    · refine Or.inl ⟨[], e.1, e.2, t, rfl, ?_, ?_, ?_⟩
      · simp [get?, he]
      · simp [erase, he]
      · simp [insert, he]
    · rcases ih with ⟨before, k', a, after, ht, hget, herase, hinsert⟩ | ⟨hget, hinsert⟩
      · refine Or.inl ⟨e :: before, k', a, after, by rw [ht]; rfl, ?_, ?_, ?_⟩
        · simpa [get?, he] using hget
        · simpa [erase, he] using herase
        · simpa [insert, he] using hinsert
      · refine Or.inr ⟨by simpa [get?, he] using hget, ?_⟩
        simpa [insert, he] using hinsert

/-- What was written under a key is found there, unless the key differs from itself. -/
theorem get?_insert_self (t : Assoc κ α) {k : κ} (hk : (k == k) = true) (a : α) :
    get? (insert t k a) k = some a := by
  induction t with
  | nil => simp [insert, get?, hk]
  | cons e t ih =>
    by_cases he : (e.1 == k) = true
    · simp [insert, get?, he]
    · simpa [insert, get?, he] using ih

/-- What is found after writing was found before or was written. -/
theorem get?_of_insert {t : Assoc κ α} {k k' : κ} {a b : α} (h : get? (insert t k a) k' = some b) :
    get? t k' = some b ∨ b = a := by
  induction t with
  | nil =>
    simp only [insert, get?] at h
    split_ifs at h
    exact Or.inr (Option.some.inj h).symm
  | cons e t ih =>
    by_cases he : (e.1 == k) = true <;> by_cases hk' : (e.1 == k') = true <;>
      simp only [insert, get?, he, hk', if_true, if_false, Bool.false_eq_true] at h ⊢
    · exact Or.inr (Option.some.inj h).symm
    · exact Or.inl h
    · exact Or.inl h
    · exact ih h

/-- Entries whose keys are pairwise different are kept as they are. -/
theorem insertAll_new (t new : Assoc κ α)
    (h : (t ++ new).Pairwise fun e e' => (e.1 == e'.1) = false) : insertAll t new = t ++ new := by
  induction new generalizing t with
  | nil => simp [insertAll]
  | cons e new ih =>
    have hsplit : t ++ e :: new = t ++ [e] ++ new := by simp
    have hnew : insert t e.1 e.2 = t ++ [e] :=
      insert_new (fun e' he' => (List.pairwise_append.mp h).2.2 e' he' e (by simp)) e.2
    rw [insertAll, List.foldl_cons, hnew, ← insertAll, ih, hsplit]
    rwa [← hsplit]

theorem ofEntries_new {new : Assoc κ α}
    (h : new.Pairwise fun e e' => (e.1 == e'.1) = false) : ofEntries new = new :=
  insertAll_new [] new h

/-- Among keys that all differ, an entry is found under whatever its key equals. -/
theorem get?_of_apart [PartialEquivBEq κ] {t : Assoc κ α}
    (h : t.Pairwise fun e e' => (e.1 == e'.1) = false) {k k' : κ} {a : α} (hmem : (k', a) ∈ t)
    (hk : (k' == k) = true) : get? t k = some a := by
  induction t with
  | nil => cases hmem
  | cons e t ih =>
    obtain ⟨hfirst, hrest⟩ := List.pairwise_cons.mp h
    rw [get?]
    rcases List.mem_cons.mp hmem with rfl | hmem
    · exact if_pos hk
    · have he : (e.1 == k) ≠ true := fun he => by
        have hne : (e.1 == k') = false := hfirst _ hmem
        rw [BEq.trans he (BEq.symm hk)] at hne
        cases hne
      rw [if_neg he]
      exact ih hrest hmem

/-- Writing keeps keys different. -/
theorem pairwise_insert {t : Assoc κ α} (h : t.Pairwise fun e e' => (e.1 == e'.1) = false) (k : κ)
    (a : α) : (insert t k a).Pairwise fun e e' => (e.1 == e'.1) = false := by
  rcases split_at t k with ⟨before, k', old, after, rfl, -, -, hinsert⟩ | ⟨hnone, hinsert⟩
  · rw [hinsert]
    -- The entry that is written has the key of the old one, and only keys are compared.
    simpa only [List.pairwise_append, List.pairwise_cons, List.forall_mem_cons] using h
  · rw [hinsert]
    refine List.pairwise_append.mpr ⟨h, List.pairwise_singleton _ _, fun e he e' he' => ?_⟩
    rw [List.mem_singleton.mp he']
    exact get?_none.mp hnone e he

theorem pairwise_ofEntries (entries : List (κ × α)) :
    (ofEntries entries).Pairwise fun e e' => (e.1 == e'.1) = false := by
  have hall (t : Assoc κ α) (ht : t.Pairwise fun e e' => (e.1 == e'.1) = false) :
      (insertAll t entries).Pairwise fun e e' => (e.1 == e'.1) = false := by
    induction entries generalizing t with
    | nil => exact ht
    | cons e entries ih => exact ih _ (pairwise_insert ht e.1 e.2)
  exact hall [] .nil

section

variable [PartialEquivBEq κ]

/-- What is found after writing, if keys need only compare equal. -/
theorem get?_insert_beq (t : Assoc κ α) (k k' : κ) (a : α) :
    get? (insert t k a) k' = if k == k' then some a else get? t k' := by
  induction t with
  | nil => rfl
  | cons e t ih =>
    rw [insert]
    by_cases he : (e.1 == k) = true
    · have hsame : (e.1 == k') = (k == k') :=
        Bool.eq_iff_iff.mpr ⟨fun h => BEq.trans (BEq.symm he) h, fun h => BEq.trans he h⟩
      rw [if_pos he, get?, get?, hsame]
      split_ifs <;> rfl
    · rw [if_neg he, get?, get?, ih]
      by_cases hk' : (e.1 == k') = true
      · have hne : ¬(k == k') = true := fun h => he (BEq.trans hk' (BEq.symm h))
        rw [if_pos hk', if_neg hne, if_pos hk']
      · rw [if_neg hk', if_neg hk']

/-- After writing a table into another one, its own entries are found first. -/
theorem get?_insertAll {new : Assoc κ α} (hnew : new.Pairwise fun e e' => (e.1 == e'.1) = false)
    (t : Assoc κ α) (k : κ) : get? (insertAll t new) k = (get? new k).or (get? t k) := by
  induction new generalizing t with
  | nil => rfl
  | cons e new ih =>
    obtain ⟨hfirst, hrest⟩ := List.pairwise_cons.mp hnew
    have hall : insertAll t (e :: new) = insertAll (t.insert e.1 e.2) new := rfl
    rw [hall, ih hrest, get?_insert_beq, get?]
    by_cases hk : (e.1 == k) = true
    · have hnone : get? new k = none := by
        refine get?_none.mpr fun e' he' => ?_
        rw [← Bool.not_eq_true]
        intro hk'
        have hne : (e.1 == e'.1) = false := hfirst e' he'
        rw [BEq.trans hk (BEq.symm hk')] at hne
        cases hne
      rw [if_pos hk, if_pos hk, hnone]
      rfl
    · rw [if_neg hk, if_neg hk]

end

section

variable [LawfulBEq κ]

theorem get?_of_mem {t : Assoc κ α} (hn : (keys t).Nodup) {k : κ} {a : α} (h : (k, a) ∈ t) :
    get? t k = some a := by
  induction t with
  | nil => simp at h
  | cons e t ih =>
    simp only [keys, List.map_cons, List.nodup_cons] at hn
    rcases List.mem_cons.mp h with rfl | h
    · simp [get?]
    · have hne : (e.1 == k) = false := by
        rw [beq_eq_false_iff_ne]
        rintro rfl
        exact hn.1 (List.mem_map.mpr ⟨_, h, rfl⟩)
      rw [get?, if_neg (by simp [hne])]
      exact ih hn.2 h

/-- A table with different keys is read alike in every order. -/
theorem get?_perm {t t' : Assoc κ α} (hn : (keys t).Nodup) (hperm : t'.Perm t) (k : κ) :
    get? t' k = get? t k := by
  have hn' : (keys t').Nodup := (hperm.map Prod.fst).nodup_iff.mpr hn
  cases h : get? t k with
  | some a =>
    obtain ⟨k', hmem, hk⟩ := get?_mem h
    obtain rfl : k' = k := eq_of_beq hk
    exact get?_of_mem hn' (hperm.mem_iff.mpr hmem)
  | none =>
    rw [get?_none] at h ⊢
    exact fun e he => h e (hperm.mem_iff.mp he)

/-- Dropping an entry leaves the others. -/
theorem has_erase (t : Assoc κ α) {k k' : κ} (hne : k' ≠ k) : has (erase t k) k' = has t k' := by
  induction t with
  | nil => rfl
  | cons e t ih =>
    obtain ⟨key, a⟩ := e
    rw [erase]
    by_cases hkey : key = k
    · subst hkey
      simp [has, get?, hne.symm]
    · rw [if_neg (by simpa using hkey)]
      simp only [has, get?] at ih ⊢
      split
      · rfl
      · exact ih

theorem has_iff {t : Assoc κ α} {k : κ} : has t k = true ↔ k ∈ keys t := by
  constructor
  · intro h
    obtain ⟨a, ha⟩ := Option.isSome_iff_exists.mp h
    obtain ⟨k', hk', heq⟩ := get?_mem ha
    rw [← eq_of_beq heq]
    exact List.mem_map.mpr ⟨_, hk', rfl⟩
  · intro h
    obtain ⟨e, he, rfl⟩ := List.mem_map.mp h
    cases hg : get? t e.1 with
    | some a => simp [has, hg]
    | none => simpa using get?_none.mp hg e he

theorem keys_insert_new {t : Assoc κ α} {k : κ} (hk : k ∉ keys t) (a : α) :
    insert t k a = t ++ [(k, a)] :=
  insert_new (fun e he => by
    rw [beq_eq_false_iff_ne]
    rintro rfl
    exact hk (List.mem_map.mpr ⟨_, he, rfl⟩)) a

/-- Writing under a key that is there leaves the keys as they are. -/
theorem keys_insert_old {t : Assoc κ α} {k : κ} (hk : k ∈ keys t) (a : α) :
    keys (insert t k a) = keys t := by
  rcases split_at t k with ⟨before, k', old, after, rfl, -, -, hinsert⟩ | ⟨hnone, -⟩
  · rw [hinsert, keys, keys, List.map_append, List.map_append, List.map_cons, List.map_cons]
  · rw [← has_iff, has, hnone] at hk
    cases hk

theorem mem_keys_insert_iff {t : Assoc κ α} {k k' : κ} {a : α} :
    k' ∈ keys (insert t k a) ↔ k' = k ∨ k' ∈ keys t := by
  by_cases hk : k ∈ keys t
  · rw [keys_insert_old hk]
    exact ⟨.inr, fun h => h.elim (fun h => h ▸ hk) id⟩
  · rw [keys_insert_new hk, keys, List.map_append, List.mem_append, List.map_singleton,
      List.mem_singleton]
    exact Or.comm

theorem nodup_keys_insert {t : Assoc κ α} (h : (keys t).Nodup) (k : κ) (a : α) :
    (keys (insert t k a)).Nodup := by
  by_cases hk : k ∈ keys t
  · rwa [keys_insert_old hk]
  · rw [keys_insert_new hk, keys, List.map_append, List.map_singleton, List.nodup_append]
    refine ⟨h, List.pairwise_singleton _ _, fun k₁ h₁ k₂ h₂ hsame => hk ?_⟩
    obtain rfl : k₂ = k := List.mem_singleton.mp h₂
    exact hsame ▸ h₁

theorem keys_modify (t : Assoc κ α) (k : κ) (f : α → α) : keys (modify t k f) = keys t := by
  rw [modify]
  split
  · next a hget =>
    refine keys_insert_old (has_iff.mp ?_) (f a)
    rw [has, hget]
    rfl
  · rfl

/-- What is found after writing. -/
theorem get?_insert [DecidableEq κ] (t : Assoc κ α) (k k' : κ) (a : α) :
    get? (insert t k a) k' = if k = k' then some a else get? t k' := by
  induction t with
  | nil => simp [insert, get?, beq_iff_eq]
  | cons e t ih =>
    by_cases he : e.1 = k
    · subst he
      simp only [insert, BEq.rfl, if_true, get?, beq_iff_eq]
      split_ifs <;> rfl
    · have hne : (e.1 == k) = false := beq_eq_false_iff_ne.mpr he
      simp only [insert, hne, Bool.false_eq_true, if_false, get?, ih, beq_iff_eq]
      by_cases hk : e.1 = k'
      · have hkk : k ≠ k' := fun h => he (hk.trans h.symm)
        rw [if_pos hk, if_pos hk, if_neg hkk]
      · rw [if_neg hk, if_neg hk]

/-- After writing entries the last one under a key is found there. -/
theorem get?_writeAll [DecidableEq κ] (t : Assoc κ α) (new : List (κ × α)) (k : κ) :
    get? (insertAll t new) k =
      ((new.filter fun e => e.1 = k).getLast?.map Prod.snd).or (get? t k) := by
  induction new generalizing t with
  | nil => rfl
  | cons e new ih =>
    have hall : insertAll t (e :: new) = insertAll (t.insert e.1 e.2) new := rfl
    rw [hall, ih, get?_insert, List.filter_cons]
    by_cases he : e.1 = k
    · rw [if_pos he, if_pos (decide_eq_true he), List.getLast?_cons]
      cases (new.filter fun e => e.1 = k).getLast? <;> rfl
    · rw [if_neg he, if_neg (by simpa using he)]

theorem get?_ofEntries [DecidableEq κ] (entries : List (κ × α)) (k : κ) :
    get? (ofEntries entries) k = (entries.filter fun e => e.1 = k).getLast?.map Prod.snd :=
  (get?_writeAll [] entries k).trans (Option.or_none)

theorem nodup_keys_ofEntries (entries : List (κ × α)) : (keys (ofEntries entries)).Nodup := by
  have hall (t : Assoc κ α) (ht : (keys t).Nodup) : (keys (insertAll t entries)).Nodup := by
    induction entries generalizing t with
    | nil => exact ht
    | cons e entries ih => exact ih _ (nodup_keys_insert ht e.1 e.2)
  exact hall [] List.nodup_nil

theorem get?_modify [DecidableEq κ] (t : Assoc κ α) (k k' : κ) (f : α → α) :
    get? (modify t k f) k' = if k = k' then (get? t k').map f else get? t k' := by
  by_cases hk : k = k'
  · subst hk
    rw [if_pos rfl, modify]
    cases hget : get? t k with
    | none => exact hget
    | some a =>
      simp only []
      rw [get?_insert, if_pos rfl]
      rfl
  · rw [if_neg hk, modify]
    cases hget : get? t k with
    | none => rfl
    | some a =>
      simp only []
      rw [get?_insert, if_neg hk]

end

section Matched
variable {α : Type} {R : String → α → α → Prop} {t t' : Assoc String α}

/-- Tables with the same keys in the same order, and related values under them. -/
def Matched (R : String → α → α → Prop) (t t' : Assoc String α) : Prop :=
  List.Forall₂ (fun e e' => e'.1 = e.1 ∧ R e.1 e.2 e'.2) t t'

theorem Matched.get? (h : Matched R t t') (k : String) :
    t.get? k = none ∧ t'.get? k = none ∨
      ∃ a a', t.get? k = some a ∧ t'.get? k = some a' ∧ R k a a' := by
  induction h with
  | nil => exact .inl ⟨rfl, rfl⟩
  | @cons e e' t t' he _ ih =>
    rw [Assoc.get?, Assoc.get?, he.1]
    by_cases hk : e.1 = k
    · subst hk
      simp only [beq_self_eq_true, if_true]
      exact .inr ⟨_, _, rfl, rfl, he.2⟩
    · simpa only [beq_iff_eq, if_neg hk] using ih

theorem Matched.keys (h : Matched R t t') : keys t' = keys t := by
  induction h with
  | nil => rfl
  | cons he _ ih =>
    rw [Assoc.keys] at ih ⊢
    rw [List.map_cons, he.1, ih]
    rfl

theorem Matched.insert (h : Matched R t t') {k : String} {a a' : α} (ha : R k a a') :
    Matched R (t.insert k a) (t'.insert k a') := by
  induction h with
  | nil => exact .cons ⟨rfl, ha⟩ .nil
  | @cons e e' t t' he h ih =>
    rw [Assoc.insert, Assoc.insert, he.1]
    by_cases hk : e.1 = k
    · subst hk
      simp only [beq_self_eq_true, if_true]
      exact .cons ⟨rfl, ha⟩ h
    · simp only [beq_iff_eq, if_neg hk]
      exact .cons ⟨rfl, he.2⟩ ih

theorem Matched.modify (h : Matched R t t') {k : String} {f f' : α → α}
    (hf : ∀ a a', R k a a' → R k (f a) (f' a')) : Matched R (t.modify k f) (t'.modify k f') := by
  rw [Assoc.modify, Assoc.modify]
  rcases h.get? k with ⟨hnone, hnone'⟩ | ⟨a, a', ha, ha', hR⟩
  · rw [hnone, hnone']
    exact h
  · rw [ha, ha']
    exact h.insert (hf a a' hR)

end Matched

end Assoc
end Exemplar
