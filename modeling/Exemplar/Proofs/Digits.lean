import Exemplar.Number.Decimal
import Mathlib.Tactic.Ring

/-! Decimal digits and their values. Writing a number and reading its digits back gives the number,
and a factor of ten is one zero at the end. -/
namespace Exemplar.Decimal

theorem toNat_charOfNat {n : Nat} (hn : n.isValidChar) : (Char.ofNat n).toNat = n := by
  rw [Char.ofNat, dif_pos hn]
  rfl

theorem toNat_digitChar {d : Nat} (hd : d < 10) : (digitChar d).toNat = 48 + d :=
  toNat_charOfNat (Or.inl (by omega))

theorem digitValue_digitChar {d : Nat} (hd : d < 10) : digitValue (digitChar d) = d := by
  rw [digitValue, toNat_digitChar hd]
  omega

theorem isDigit_digitChar {d : Nat} (hd : d < 10) : isDigit (digitChar d) = true := by
  simp only [isDigit, toNat_digitChar hd, Bool.and_eq_true, decide_eq_true_eq]
  omega

theorem value_foldl (ds : List Char) (n : Nat) :
    ds.foldl (fun n c => n * 10 + digitValue c) n = n * 10 ^ ds.length + value ds := by
  induction ds generalizing n with
  | nil => simp [value]
  | cons d ds ih =>
    have hz := ih (digitValue d)
    simp only [value, List.foldl_cons, List.length_cons, Nat.zero_mul, Nat.zero_add] at hz ⊢
    rw [ih, hz]
    simp only [value]
    ring

theorem value_append (ds es : List Char) :
    value (ds ++ es) = value ds * 10 ^ es.length + value es := by
  rw [value, List.foldl_append]
  exact value_foldl es _

theorem value_zeros (k : Nat) : value (List.replicate k '0') = 0 := by
  induction k with
  | zero => rfl
  | succ k ih => rw [List.replicate_succ', value_append, ih]; rfl

/-- Zeros in front do not count. -/
theorem value_leading_zeros (k : Nat) (ds : List Char) :
    value (List.replicate k '0' ++ ds) = value ds := by
  simp [value_append, value_zeros]

theorem value_digits (n : Nat) : value (digits n) = n := by
  induction n using Nat.strongRecOn with
  | ind n ih =>
    rw [digits]
    split_ifs with hn
    · simpa [value] using digitValue_digitChar hn
    · rw [value_append, ih _ (by omega)]
      have hd := digitValue_digitChar (Nat.mod_lt n (show 0 < 10 by omega))
      simp only [value, List.foldl_cons, List.foldl_nil, List.length_singleton, hd]
      omega

theorem digits_injective {m n : Nat} (h : digits m = digits n) : m = n := by
  rw [← value_digits m, h, value_digits]

theorem digits_ne_nil (n : Nat) : digits n ≠ [] := by
  rw [digits]
  split_ifs <;> simp

theorem isDigit_of_mem_digits {n : Nat} {c : Char} (hc : c ∈ digits n) : isDigit c = true := by
  induction n using Nat.strongRecOn generalizing c with
  | ind n ih =>
    rw [digits] at hc
    split_ifs at hc with hn
    · rw [List.mem_singleton.mp hc]
      exact isDigit_digitChar hn
    · rcases List.mem_append.mp hc with hc | hc
      · exact ih _ (by omega) hc
      · rw [List.mem_singleton.mp hc]
        exact isDigit_digitChar (Nat.mod_lt n (by omega))

/-- Only zero starts with a zero. -/
theorem head_digits_ne_zero {n : Nat} (hn : n ≠ 0) {ds : List Char} : digits n ≠ '0' :: ds := by
  induction n using Nat.strongRecOn generalizing ds with
  | ind n ih =>
    rw [digits]
    intro h
    split_ifs at h with hlt
    · have hv := congrArg value h
      simp only [value, List.foldl_cons, List.foldl_nil, digitValue_digitChar hlt] at hv
      simp only [List.cons.injEq] at h
      rw [← h.2] at hv
      exact hn (by simpa [digitValue] using hv)
    · cases hd : digits (n / 10) with
      | nil => exact digits_ne_nil _ hd
      | cons c cs =>
        rw [hd] at h
        simp only [List.cons_append, List.cons.injEq] at h
        exact ih (n / 10) (by omega) (by omega) (hd.trans (by rw [h.1]))

theorem digits_mul_ten {n : Nat} (hn : n ≠ 0) : digits (n * 10) = digits n ++ ['0'] := by
  rw [digits, if_neg (by omega), Nat.mul_div_cancel n (by omega), Nat.mul_mod_left]
  rfl

theorem width_mul_ten_pow {n : Nat} (hn : n ≠ 0) (k : Nat) :
    width (n * 10 ^ k) = width n + k := by
  induction k with
  | zero => simp
  | succ k ih =>
    have hk : n * 10 ^ k ≠ 0 := Nat.mul_ne_zero hn (Nat.pow_pos (by omega)).ne'
    rw [pow_succ, ← Nat.mul_assoc, width, digits_mul_ten hk, List.length_append]
    simp only [width] at ih
    simp [ih, width, Nat.add_assoc]

/-- A number of `w` digits lies below `10 ^ w`. -/
theorem lt_ten_pow_width (n : Nat) : n < 10 ^ width n := by
  induction n using Nat.strongRecOn with
  | ind n ih =>
    rw [width, digits]
    split_ifs with hn
    · simpa using hn
    · have hi := ih (n / 10) (by omega)
      rw [List.length_append, List.length_singleton, pow_succ]
      simp only [width] at hi
      omega

/-- A number of `w` digits is at least `10 ^ (w - 1)`, unless it is zero. -/
theorem ten_pow_le_of_width {n : Nat} (hn : n ≠ 0) : 10 ^ (width n - 1) ≤ n := by
  induction n using Nat.strongRecOn with
  | ind n ih =>
    rw [width, digits]
    split_ifs with hlt
    · simpa using Nat.one_le_iff_ne_zero.mpr hn
    · have hi := ih (n / 10) (by omega) (by omega)
      have hpos : 0 < (digits (n / 10)).length := List.length_pos_iff.mpr (digits_ne_nil _)
      rw [List.length_append, List.length_singleton, Nat.add_sub_cancel]
      simp only [width] at hi
      have hs : 10 ^ (digits (n / 10)).length = 10 ^ ((digits (n / 10)).length - 1) * 10 := by
        rw [← pow_succ, Nat.sub_add_cancel hpos]
      omega

end Exemplar.Decimal
