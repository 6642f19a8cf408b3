import Exemplar.Number.Shortest
import Exemplar.Proofs.Digits

/-! Reading the shortest decimal of a double. The nearest double depends on the quotient only, so
digits may be scaled by powers of ten, and a finite double is the nearest one to its own value. -/
namespace Exemplar.Double

theorem roundQuotient_mul (a d : Nat) {k : Nat} (hk : 0 < k) :
    roundQuotient (a * k) (d * k) = roundQuotient a d := by
  have hr : a * k % (d * k) = a % d * k := Nat.mul_mod_mul_right k a d
  have hlow : 2 * (a % d * k) < d * k ↔ 2 * (a % d) < d := by
    rw [← Nat.mul_assoc]
    exact Nat.mul_lt_mul_right hk
  have hhigh : d * k < 2 * (a % d * k) ↔ d < 2 * (a % d) := by
    rw [← Nat.mul_assoc]
    exact Nat.mul_lt_mul_right hk
  simp only [roundQuotient, Nat.mul_div_mul_right a d hk, hr, hlow, hhigh]

/-- The nearest double to a quotient does not depend on how the quotient is written. -/
theorem ofRatio_mul (negative : Bool) (num den : Nat) {k : Nat} (hk : 0 < k) :
    ofRatio negative (num * k) (den * k) = ofRatio negative num den := by
  have hq : num * k * 2 ^ 1074 / (den * k) = num * 2 ^ 1074 / den := by
    rw [Nat.mul_right_comm]
    exact Nat.mul_div_mul_right _ _ hk
  have hr (e : Nat) : roundQuotient (num * k * 2 ^ 1074) (den * k * 2 ^ e) =
      roundQuotient (num * 2 ^ 1074) (den * 2 ^ e) := by
    rw [Nat.mul_right_comm, Nat.mul_right_comm den]
    exact roundQuotient_mul _ _ hk
  simp only [ofRatio, hq, hr]

/-- The double nearest to `± digits · 10 ^ exponent`, when that is neither too large nor too small. -/
def ofScaled (negative : Bool) (digits : Nat) : Int → Double
  | .ofNat k => ofRatio negative (digits * 10 ^ k) 1
  | .negSucc k => ofRatio negative digits (10 ^ (k + 1))

theorem ofScaled_eq (negative : Bool) (digits : Nat) {e : Int} {a b : Nat} (he : e = (a : Int) - b) :
    ofScaled negative digits e = ofRatio negative (digits * 10 ^ a) (10 ^ b) := by
  have hten (n : Nat) : 0 < 10 ^ n := Nat.pow_pos (by omega)
  cases e with
  | ofNat k =>
    have hk : a = k + b := by rw [Int.ofNat_eq_natCast] at he; omega
    have hm := ofRatio_mul negative (digits * 10 ^ k) 1 (hten b)
    rw [Nat.one_mul, Nat.mul_assoc, ← pow_add, ← hk] at hm
    rw [ofScaled, hm]
  | negSucc k =>
    have hk : b = k + 1 + a := by rw [Int.negSucc_eq] at he; omega
    have hm := ofRatio_mul negative digits (10 ^ (k + 1)) (hten a)
    rw [← pow_add, ← hk] at hm
    rw [ofScaled, hm]

theorem ofDecimal_eq (negative : Bool) {digits : Nat} (hd : digits ≠ 0) (e : Int) :
    ofDecimal negative digits e =
      if (Decimal.width digits : Int) + e ≥ 310 then .infinity negative
      else if (Decimal.width digits : Int) + e ≤ -324 then zero negative
      else ofScaled negative digits e := by
  simp only [ofDecimal, if_neg hd]
  cases e <;> rfl

/-- A factor of ten in the digits counts like one in the exponent. -/
theorem ofDecimal_mul_ten_pow (negative : Bool) {digits : Nat} (hd : digits ≠ 0) (k : Nat)
    {e e' : Int} (he : e' = e + k) :
    ofDecimal negative (digits * 10 ^ k) e = ofDecimal negative digits e' := by
  have hk : digits * 10 ^ k ≠ 0 := Nat.mul_ne_zero hd (Nat.pow_pos (by omega)).ne'
  have hs : ofScaled negative (digits * 10 ^ k) e = ofScaled negative digits e' := by
    rw [ofScaled_eq negative _ (show e = (e.toNat : Int) - (-e).toNat by omega),
      ofScaled_eq negative _ (show e' = ((k + e.toNat : Nat) : Int) - (-e).toNat by omega),
      pow_add, Nat.mul_assoc]
  rw [ofDecimal_eq _ hk, ofDecimal_eq _ hd, hs, Decimal.width_mul_ten_pow hd, he]
  simp only [Nat.cast_add, Int.add_assoc, Int.add_comm (k : Int) e]

theorem log2_canonical {m e : Nat} (h : CanonicalPair m e) : Nat.log2 (m * 2 ^ e) - 52 = e := by
  obtain ⟨hm, he, -⟩ := h
  rcases he with rfl | hl
  · have hlt : Nat.log2 (m * 2 ^ 0) < 53 ∨ m = 0 := by
      rcases Nat.eq_zero_or_pos m with h0 | h0
      · exact Or.inr h0
      · rw [pow_zero, Nat.mul_one]
        exact Or.inl ((Nat.log2_lt h0.ne').mpr hm)
    rcases hlt with hlt | rfl
    · omega
    · simp
  · have hpos : m * 2 ^ e ≠ 0 := Nat.mul_ne_zero (by omega) (Nat.pow_pos (by omega)).ne'
    have hge : 52 + e ≤ Nat.log2 (m * 2 ^ e) := by
      rw [Nat.le_log2 hpos, pow_add]
      exact Nat.mul_le_mul_right _ hl
    have hlt : Nat.log2 (m * 2 ^ e) < 53 + e := by
      rw [Nat.log2_lt hpos, pow_add]
      exact Nat.mul_lt_mul_of_pos_right hm (Nat.pow_pos (by omega))
    omega

theorem pack_canonical (x : Dyadic) : pack x.negative x.significand x.exponent = .finite x := by
  rw [pack, dif_pos x.canonical]

theorem roundQuotient_exact (m e : Nat) {u : Nat} (hu : 0 < u) :
    roundQuotient (m * 2 ^ e * u) (u * 2 ^ e) = m := by
  have hm := roundQuotient_mul m 1 (Nat.mul_pos (Nat.two_pow_pos e) hu)
  rw [Nat.one_mul, ← Nat.mul_assoc, Nat.mul_comm (2 ^ e) u] at hm
  rw [hm]
  simp [roundQuotient, Nat.mod_one]

/-- A finite double is the nearest one to its own value. -/
theorem ofRatio_ratio (x : Dyadic) : ofRatio x.negative (ratio x).1 (ratio x).2 = .finite x := by
  have hunit := Nat.two_pow_pos 1074
  have hquotient := Nat.mul_div_cancel (x.significand * 2 ^ x.exponent) hunit
  have hround := roundQuotient_exact x.significand x.exponent hunit
  simp only [ofRatio, ratio, hquotient, log2_canonical x.canonical, hround]
  rw [if_neg (Nat.ne_of_lt x.canonical.1)]
  exact pack_canonical x

theorem zero_of_significand {x : Dyadic} (hx : x.significand = 0) : zero x.negative = .finite x := by
  have he : x.exponent = 0 := by
    rcases x.canonical.2.1 with he | he
    · exact he
    · rw [hx] at he
      omega
  have hp := pack_canonical x
  rwa [hx, he] at hp

theorem scaled_lt {m e a b c : Nat} (hm : m < 2 ^ a) (he : e ≤ b) (hc : 0 < c) :
    m * 2 ^ e * c < 2 ^ a * 2 ^ b * c :=
  Nat.mul_lt_mul_of_pos_right
    (Nat.mul_lt_mul_of_lt_of_le hm (Nat.pow_le_pow_right (by omega) he) (Nat.two_pow_pos b)) hc

theorem width_le_of_lt {n k : Nat} (h : n < 10 ^ k) (hk : 0 < k) : Decimal.width n ≤ k := by
  by_contra hw
  have hn : n ≠ 0 := by
    rintro rfl
    rw [Decimal.width, Decimal.digits, if_pos (by omega), List.length_singleton] at hw
    omega
  have hpow : 10 ^ k ≤ 10 ^ (Decimal.width n - 1) := Nat.pow_le_pow_right (by omega) (by omega)
  exact absurd (hpow.trans (Decimal.ten_pow_le_of_width hn)) (Nat.not_le.mpr h)

theorem lt_width_of_le {n k : Nat} (h : 10 ^ k ≤ n) : k < Decimal.width n := by
  by_contra hw
  have hpow : 10 ^ Decimal.width n ≤ 10 ^ k := Nat.pow_le_pow_right (by omega) (by omega)
  exact absurd ((Decimal.lt_ten_pow_width n).trans_le (hpow.trans h)) (Nat.lt_irrefl _)

/-- No finite double reaches `10 ^ 309`. -/
theorem width_exact_le {m e : Nat} (h : CanonicalPair m e) :
    Decimal.width (m * 2 ^ e * 5 ^ 1074) ≤ 1383 := by
  have hbound : (2 ^ 53 * 2 ^ 2045 * 5 ^ 1074 : Nat) ≤ 10 ^ 1383 := by decide +kernel
  have hfive : ∀ n, 0 < 5 ^ n := fun n => Nat.pow_pos (by omega)
  exact width_le_of_lt ((scaled_lt h.1 h.2.2 (hfive 1074)).trans_le hbound) (by omega)

/-- No positive double is below `10 ^ -324`. -/
theorem le_width_exact {m : Nat} (hm : m ≠ 0) (e : Nat) :
    750 < Decimal.width (m * 2 ^ e * 5 ^ 1074) := by
  have hbound : ∀ n, n = 750 → 10 ^ n ≤ 5 ^ 1074 := by
    rintro n rfl
    decide +kernel
  have hone : 0 < m * 2 ^ e := Nat.mul_pos (Nat.pos_of_ne_zero hm) (Nat.two_pow_pos e)
  exact lt_width_of_le ((hbound _ rfl).trans (Nat.le_mul_of_pos_left _ hone))

theorem ofRatio_mul_five_pow (negative : Bool) (num k : Nat) :
    ofRatio negative (num * 5 ^ k) (10 ^ k) = ofRatio negative num (2 ^ k) := by
  have hten : 10 ^ k = 2 ^ k * 5 ^ k := Nat.mul_pow 2 5 k
  rw [hten]
  exact ofRatio_mul negative num (2 ^ k) (Nat.pow_pos (by omega))

/-- The exact expansion of a finite double reads back as that double. -/
theorem ofDecimal_exactDecimal {x : Dyadic} (hx : x.significand ≠ 0) :
    ofDecimal x.negative (exactDecimal x).1 (exactDecimal x).2 = .finite x := by
  have hlow := le_width_exact hx x.exponent
  have hhigh := width_exact_le x.canonical
  have hfive (n : Nat) : 0 < 5 ^ n := Nat.pow_pos (by omega)
  have hd : x.significand * 2 ^ x.exponent * 5 ^ 1074 ≠ 0 :=
    Nat.mul_ne_zero (Nat.mul_ne_zero hx (Nat.two_pow_pos _).ne') (hfive 1074).ne'
  simp only [exactDecimal]
  rw [ofDecimal_eq _ hd, if_neg (by omega), if_neg (by omega),
    ofScaled_eq x.negative _ (show (-1074 : Int) = ((0 : Nat) : Int) - (1074 : Nat) by omega),
    pow_zero, Nat.mul_one, ofRatio_mul_five_pow _ _ 1074]
  simpa only [ratio] using ofRatio_ratio x

theorem ofDecimal_of_decimalOf? {x : Dyadic} {place : Int} {count : Nat} {r : Nat × Int}
    (h : decimalOf? x place count = some r) : ofDecimal x.negative r.1 r.2 = .finite x := by
  simp only [decimalOf?, Option.map_eq_some_iff] at h
  obtain ⟨c, hc, rfl⟩ := h
  have hb := List.find?_some hc
  exact eq_of_beq hb

/-- What is taken as the shortest decimal of a double reads back as that double. -/
theorem ofDecimal_shortest {x : Dyadic} (hx : x.significand ≠ 0) :
    ofDecimal x.negative (shortest x).1 (shortest x).2 = .finite x := by
  simp only [shortest, if_neg hx]
  cases h : (List.range 17).findSome? fun i =>
      decimalOf? x (pointPlace (ratio x).1 (ratio x).2) (i + 1) with
  | none => exact ofDecimal_exactDecimal hx
  | some r =>
    obtain ⟨i, -, hi⟩ := List.exists_of_findSome?_eq_some h
    exact ofDecimal_of_decimalOf? hi

theorem shortest_ne_zero {x : Dyadic} (hx : x.significand ≠ 0) : (shortest x).1 ≠ 0 := by
  intro h
  have hr := ofDecimal_shortest hx
  simp only [h, ofDecimal, if_pos, zero, pack] at hr
  rw [dif_pos (by decide)] at hr
  have hs := congrArg Dyadic.significand (Double.finite.inj hr)
  exact hx hs.symm

end Exemplar.Double
