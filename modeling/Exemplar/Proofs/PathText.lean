import Exemplar.Path
import Mathlib.Data.List.Basic

/-! Cutting a text at a character inverts joining parts with that character between them, so joined
parts tell what was joined. -/
namespace Exemplar.Path

variable {c : Char} {s l : List Char}

theorem cut_cons_self (c : Char) (s : List Char) : cut c (c :: s) = [] :: cut c s := by
  have hne : cut c s ≠ [] := by
    induction s with
    | nil => simp [cut]
    | cons d s ih =>
      rw [cut]
      split
      · contradiction
      · split <;> simp
  rw [cut]
  split
  · contradiction
  · next h => rw [if_pos rfl, h]

theorem exists_cut (c : Char) (s : List Char) : ∃ part parts, cut c s = part :: parts := by
  have h := cut_cons_self c s
  rw [cut] at h
  split at h
  · cases h
  · next part parts heq => exact ⟨part, parts, heq⟩

theorem cut_cons_ne {d : Char} {part : List Char} {parts : List (List Char)} (hd : d ≠ c)
    (h : cut c s = part :: parts) : cut c (d :: s) = (d :: part) :: parts := by
  rw [cut, h]
  exact if_neg hd

theorem cut_of_notMem (h : c ∉ l) : cut c l = [l] := by
  induction l with
  | nil => rfl
  | cons d l ih =>
    rw [List.mem_cons, not_or] at h
    exact cut_cons_ne (Ne.symm h.1) (ih h.2)

theorem cut_append_cons (c : Char) (l s : List Char) :
    cut c (l ++ c :: s) = cut c l ++ cut c s := by
  induction l with
  | nil => exact cut_cons_self c s
  | cons d l ih =>
    by_cases hd : d = c
    · rw [hd, List.cons_append, cut_cons_self, cut_cons_self, ih, List.cons_append]
    · obtain ⟨part, parts, h⟩ := exists_cut c l
      rw [h, List.cons_append] at ih
      rw [List.cons_append, cut_cons_ne hd ih, cut_cons_ne hd h, List.cons_append]

/-- Joined parts are cut where the parts are, and between them. -/
theorem cut_intercalate (c : Char) {parts : List (List Char)} (hne : parts ≠ []) :
    cut c ([c].intercalate parts) = parts.flatMap (cut c) := by
  induction parts with
  | nil => contradiction
  | cons part parts ih =>
    cases parts with
    | nil => simp
    | cons next parts =>
      rw [List.intercalate_cons_cons, List.append_assoc, List.singleton_append, cut_append_cons,
        ih (List.cons_ne_nil _ _)]
      rfl

theorem intercalate_cut (c : Char) (s : List Char) : [c].intercalate (cut c s) = s := by
  induction s with
  | nil => rfl
  | cons d s ih =>
    obtain ⟨part, parts, h⟩ := exists_cut c s
    rw [h] at ih
    by_cases hd : d = c
    · rw [hd, cut_cons_self, h, List.intercalate_cons_cons, ih]
      rfl
    · rw [cut_cons_ne hd h]
      cases parts with
      | nil => simpa using ih
      | cons next parts =>
        rw [List.intercalate_cons_cons] at ih ⊢
        rw [List.cons_append, List.cons_append, ih]

/-- Two texts are the same if and only if cutting them gives the same parts. -/
theorem cut_inj {t : List Char} : cut c s = cut c t ↔ s = t :=
  ⟨fun h => by rw [← intercalate_cut c s, h, intercalate_cut], fun h => by rw [h]⟩

theorem intercalate_append_last (c : Char) (parts : List (List Char)) (x y : List Char) :
    [c].intercalate (parts ++ [x ++ y]) = [c].intercalate (parts ++ [x]) ++ y := by
  induction parts with
  | nil => simp
  | cons part parts ih =>
    cases parts with
    | nil => simp [List.intercalate_cons_cons]
    | cons next parts =>
      simp only [List.cons_append] at ih ⊢
      rw [List.intercalate_cons_cons, List.intercalate_cons_cons, ih, ← List.append_assoc]

theorem map_intercalate (f : Char → Char) (c : Char) (parts : List (List Char)) :
    ([c].intercalate parts).map f = [f c].intercalate (parts.map (List.map f)) := by
  induction parts with
  | nil => rfl
  | cons part parts ih =>
    cases parts with
    | nil => simp
    | cons next parts =>
      simp only [List.map_cons] at ih ⊢
      rw [List.intercalate_cons_cons, List.intercalate_cons_cons, List.map_append, ih,
        List.map_append]
      rfl

end Exemplar.Path
