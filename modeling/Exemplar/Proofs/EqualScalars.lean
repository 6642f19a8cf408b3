import Exemplar.Proofs.ExactDouble
import Exemplar.Scalar

/-! Comparison of scalars by value. Two scalars compare equal exactly if they have the same worth, so
comparison is symmetric and transitive; only what is no number has no worth and differs from itself. -/
namespace Exemplar
namespace Double

/-- Canonical pairs with the same magnitude are the same. -/
theorem canonical_unique {m m' e e' : Nat} (h : CanonicalPair m e) (h' : CanonicalPair m' e')
    (hsame : m * 2 ^ e = m' * 2 ^ e') : m = m' ∧ e = e' := by
  have he : e = e' := by rw [← log2_canonical h, ← log2_canonical h', hsame]
  subst he
  exact ⟨Nat.eq_of_mul_eq_mul_right (Nat.two_pow_pos e) hsame, rfl⟩

def signed (negative : Bool) (n : Nat) : Int := if negative then -n else n

theorem signed_eq_iff {s t : Bool} {m n : Nat} :
    signed s m = signed t n ↔ m = n ∧ (s = t ∨ m = 0) := by
  cases s <;> cases t <;> simp [signed] <;> omega

theorem signed_eq_int_iff {s : Bool} {n : Nat} {i : Int} :
    signed s n = i ↔ n = i.natAbs ∧ (n = 0 ∨ s = decide (i < 0)) := by
  cases s <;> simp [signed] <;> omega

def units (x : Dyadic) : Int := signed x.negative (x.significand * 2 ^ x.exponent)

theorem units_eq_iff (x y : Dyadic) :
    units x = units y ↔ sameValue (.finite x) (.finite y) = true := by
  simp only [units, signed_eq_iff, sameValue, Bool.and_eq_true, Bool.or_eq_true, beq_iff_eq]
  constructor
  · rintro ⟨hsame, hsign⟩
    refine ⟨canonical_unique x.canonical y.canonical hsame, hsign.imp_right fun hzero => ?_⟩
    exact (Nat.mul_eq_zero.mp hzero).resolve_right (Nat.two_pow_pos _).ne'
  · rintro ⟨⟨hm, he⟩, hsign⟩
    refine ⟨by rw [hm, he], hsign.imp_right fun hzero => ?_⟩
    rw [hzero, Nat.zero_mul]

def one : Int := (2 ^ 1074 : Nat)

theorem one_positive : 0 < one := Int.natCast_pos.mpr (Nat.two_pow_pos 1074)

theorem one_nonzero : one ≠ 0 := one_positive.ne'

theorem equalsInt_iff (x : Dyadic) (i : Int) : equalsInt (.finite x) i = true ↔ units x = i * one := by
  have hone : one.natAbs = 2 ^ 1074 := by rw [one, Int.natAbs_natCast]
  have hsign : i * one < 0 ↔ i < 0 :=
    ⟨fun h => Int.lt_of_not_ge fun hnot =>
      absurd (Int.mul_nonneg hnot one_positive.le) (Int.not_le.mpr h),
      fun h => Int.mul_neg_of_neg_of_pos h one_positive⟩
  simp only [equalsInt, ratio, units, signed_eq_int_iff, Bool.and_eq_true, Bool.or_eq_true,
    beq_iff_eq, Int.natAbs_mul, hone, hsign]

end Double

namespace Scalar
open Double

/-- What decides whether scalars compare equal: the text of a string, the value of a number. What is
no number has no worth. -/
def worth? : Scalar → Option (Option String ⊕ Int × Int)
  | .null => some (.inl none)
  | .str s => some (.inl (some s))
  | .bool b => some (.inr (0, ofBool b * one))
  | .int i => some (.inr (0, i * one))
  | .float .nan => none
  | .float (.infinity negative) => some (.inr (if negative then -1 else 1, 0))
  | .float (.finite x) => some (.inr (0, units x))

theorem equalsInt_iff_worth (x : Double) (i : Int) :
    x.equalsInt i = true ↔ worth? (.float x) = worth? (.int i) := by
  cases x with
  | nan => simp [equalsInt, worth?]
  | infinity s => cases s <;> simp [equalsInt, worth?]
  | finite x => simp [equalsInt_iff, worth?]

theorem sameValue_iff_worth (x y : Double) :
    sameValue x y = true ↔ worth? (.float x) = worth? (.float y) ∧ x ≠ .nan := by
  cases x with
  | nan => simp [sameValue]
  | infinity s =>
    cases y with
    | nan => simp [sameValue, worth?]
    | infinity t => cases s <;> cases t <;> simp [sameValue, worth?]
    | finite y => cases s <;> simp [sameValue, worth?]
  | finite x =>
    cases y with
    | nan => simp [sameValue, worth?]
    | infinity t => cases t <;> simp [sameValue, worth?]
    | finite y => simp [← units_eq_iff, worth?]

theorem worth?_eq_none {s : Scalar} : s.worth? = none ↔ s = .float .nan := by
  cases s with
  | float x => cases x <;> simp [worth?]
  | _ => simp [worth?]

theorem ne_nan_of_worth {s : Scalar} {z : Option String ⊕ Int × Int} (h : s.worth? = some z) :
    s ≠ .float .nan := fun hnan => by
  rw [worth?_eq_none.mpr hnan] at h
  cases h

/-- Scalars compare equal if they have the same worth. Only what is no number has none. -/
theorem same_iff_worth (s t : Scalar) :
    (s == t) = true ↔ s.worth? = t.worth? ∧ s ≠ .float .nan := by
  change same s t = true ↔ _
  cases s with
  | null =>
    cases t with
    | float y => rcases y with _ | _ | _ <;> simp [same, worth?]
    | _ => simp [same, worth?]
  | str a =>
    cases t with
    | float y => rcases y with _ | _ | _ <;> simp [same, worth?]
    | _ => simp [same, worth?]
  | bool b =>
    cases t with
    | float y =>
      exact (equalsInt_iff_worth y (ofBool b)).trans ⟨fun h => ⟨h.symm, nofun⟩, fun h => h.1.symm⟩
    | bool c => cases b <;> cases c <;> simp [same, worth?, ofBool, one_nonzero, one_nonzero.symm]
    | _ => simp [same, worth?, one_nonzero]
  | int i =>
    cases t with
    | float y =>
      exact (equalsInt_iff_worth y i).trans ⟨fun h => ⟨h.symm, nofun⟩, fun h => h.1.symm⟩
    | _ => simp [same, worth?, one_nonzero]
  | float x =>
    cases t with
    | float y => simp [same, sameValue_iff_worth]
    | bool b =>
      exact (equalsInt_iff_worth x (ofBool b)).trans ⟨fun h => ⟨h, ne_nan_of_worth h⟩, And.left⟩
    | int j => exact (equalsInt_iff_worth x j).trans ⟨fun h => ⟨h, ne_nan_of_worth h⟩, And.left⟩
    | _ => rcases x with _ | _ | _ <;> simp [same, worth?]

instance : PartialEquivBEq Scalar where
  symm {s t} h := by
    rw [same_iff_worth] at h ⊢
    obtain ⟨hsame, hs⟩ := h
    refine ⟨hsame.symm, fun ht => hs ?_⟩
    rw [← worth?_eq_none, hsame, worth?_eq_none, ht]
  trans {s t u} hst htu := by
    rw [same_iff_worth] at hst htu ⊢
    exact ⟨hst.1.trans htu.1, hst.2⟩

end Scalar
end Exemplar
