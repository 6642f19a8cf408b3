import Exemplar.Proofs.ExactDouble
import Exemplar.Proofs.Grammar

/-! The texts that numbers are written as. Each of them is a text of the grammar, for a numeral that has
the value of the number. -/
namespace Exemplar.Json

def exponentDigits (e : Int) : List Char :=
  let ds := Decimal.digits e.natAbs
  if ds.length < 2 then '0' :: ds else ds

theorem isDigit_of_mem_exponentDigits {e : Int} {c : Char} (hc : c ∈ exponentDigits e) :
    Decimal.isDigit c = true := by
  simp only [exponentDigits] at hc
  split_ifs at hc
  · rcases List.mem_cons.mp hc with rfl | hc
    · rfl
    · exact Decimal.isDigit_of_mem_digits hc
  · exact Decimal.isDigit_of_mem_digits hc

theorem value_exponentDigits (e : Int) : Decimal.value (exponentDigits e) = e.natAbs := by
  simp only [exponentDigits]
  split_ifs
  · exact (Decimal.value_leading_zeros 1 _).trans (Decimal.value_digits _)
  · exact Decimal.value_digits _

theorem exponentDigits_ne_nil (e : Int) : exponentDigits e ≠ [] := by
  simp only [exponentDigits]
  split_ifs
  · simp
  · exact Decimal.digits_ne_nil _

theorem exponentText_finite (e : Int) : ExponentText (Double.exponentText e) e := by
  have htext : Double.exponentText e =
      'e' :: (if decide (e < 0) then '-' else '+') :: exponentDigits e := by
    simp only [Double.exponentText, exponentDigits, decide_eq_true_eq]
  have hvalue : (if decide (e < 0) then -(Decimal.value (exponentDigits e) : Int)
      else Decimal.value (exponentDigits e)) = e := by
    rw [value_exponentDigits]
    by_cases he : e < 0
    · rw [if_pos (by simpa using he)]
      omega
    · rw [if_neg (by simpa using he)]
      omega
  have hsigned := ExponentText.signed (.inl rfl) (decide (e < 0)) (exponentDigits_ne_nil e)
    fun c hc => isDigit_of_mem_exponentDigits hc
  rwa [hvalue, ← htext] at hsigned

/-- A numeral with a point or an exponent has the value of its digits, scaled. -/
theorem scalar_of_decimal {n : Numeral} (hn : n.integral = false) {x : Dyadic}
    (h : Double.ofDecimal n.negative (Decimal.value (n.whole ++ n.fraction))
      (n.exponent - n.fraction.length) = .finite x) : n.scalar = .float (.finite x) := by
  simp only [Numeral.scalar, hn, h, Bool.false_eq_true, if_false]

theorem wholePart_digits (n : Nat) : WholePart (Decimal.digits n) := by
  rcases Nat.eq_zero_or_pos n with rfl | hn
  · exact Or.inl (by rw [Decimal.digits, if_pos (by omega)]; rfl)
  · cases hd : Decimal.digits n with
    | nil => exact absurd hd (Decimal.digits_ne_nil n)
    | cons c cs =>
      refine Or.inr ⟨c, cs, rfl, ?_⟩
      rintro rfl
      exact Decimal.head_digits_ne_zero hn.ne' hd

/-- The digits of a positive number without the zeros at the end, and how many those were. -/
theorem trimZeros_digits {n : Nat} (hn : n ≠ 0) (e : Int) :
    ∃ c cs k, Double.trimZeros (Decimal.digits n) e = (c :: cs, e + (k : Nat)) ∧ c ≠ '0' ∧
      AllDigits (c :: cs) ∧ n = Decimal.value (c :: cs) * 10 ^ k := by
  set ds := Decimal.digits n with hds
  set zeros := ds.reverse.takeWhile (· == '0') with hzeros
  set kept := (ds.reverse.dropWhile (· == '0')).reverse with hkept
  have hsplit : ds = kept ++ zeros.reverse := by
    rw [hkept, hzeros, ← List.reverse_append, List.takeWhile_append_dropWhile, List.reverse_reverse]
  have hrep : zeros.reverse = List.replicate zeros.length '0' := by
    refine List.eq_replicate_iff.mpr ⟨List.length_reverse, fun c hc => ?_⟩
    have hz := List.all_eq_true.mp List.all_takeWhile c (List.mem_reverse.mp hc)
    exact eq_of_beq hz
  have hvalue : n = Decimal.value kept * 10 ^ zeros.length := by
    rw [← Decimal.value_digits n, ← hds, hsplit, Decimal.value_append, hrep, Decimal.value_zeros,
      List.length_replicate, Nat.add_zero]
  have htake : ds.take (ds.length - zeros.length) = kept := by
    have hlen : ds.length - zeros.length = kept.length := by
      have hl := congrArg List.length hsplit
      have hz : zeros.reverse.length = zeros.length := List.length_reverse
      rw [List.length_append, hz] at hl
      omega
    rw [hlen, hsplit, List.take_left]
  cases hk : kept with
  | nil =>
    rw [hk] at hvalue
    exact absurd (hvalue.trans (Nat.zero_mul _)) hn
  | cons c cs =>
    refine ⟨c, cs, zeros.length, ?_, ?_, ?_, by rw [← hk]; exact hvalue⟩
    · simp only [Double.trimZeros, ← hzeros, htake, hk]
    · rintro rfl
      rw [hsplit, hk, List.cons_append] at hds
      exact Decimal.head_digits_ne_zero hn hds.symm
    · intro d hd
      apply Decimal.isDigit_of_mem_digits (n := n)
      rw [← hds, hsplit, hk]
      exact List.mem_append_left _ hd

section

variable {c : Char} {cs : List Char} {x : Dyadic} {e : Int} (negative : Bool)

def SpellsDouble (text : List Char) (x : Dyadic) : Prop :=
  ∃ n : Numeral, MagnitudeText negative text n ∧ n.scalar = .float (.finite x)

theorem isDigit_of_mem_zero : AllDigits ['0'] := by
  intro d hd
  rw [List.mem_singleton.mp hd]
  rfl

theorem spells_scientific (hc : c ≠ '0') (hd : AllDigits (c :: cs))
    (hx : Double.ofDecimal negative (Decimal.value (c :: cs)) e = .finite x) :
    SpellsDouble negative ((match cs with
      | [] => [c]
      | _ :: _ => c :: '.' :: cs) ++ Double.exponentText ((c :: cs).length + e - 1)) x := by
  have hone : AllDigits [c] := fun d h => hd d (by
    rw [List.mem_singleton.mp h]
    exact List.mem_cons_self)
  have hwhole : WholePart [c] := Or.inr ⟨c, [], rfl, hc⟩
  cases cs with
  | nil =>
    refine ⟨⟨negative, [c], [], e, false⟩, ?_, scalar_of_decimal rfl ?_⟩
    · rw [show (([c] : List Char).length : Int) + e - 1 = e by simp]
      exact .exponent hwhole hone (exponentText_finite e)
    · rw [show e - (([] : List Char).length : Int) = e by simp]
      exact hx
  | cons c' cs =>
    refine ⟨⟨negative, [c], c' :: cs, (c :: c' :: cs).length + e - 1, false⟩, ?_,
      scalar_of_decimal rfl ?_⟩
    · exact .scaled hwhole hone (by simp) (fun d h => hd d (List.mem_cons_of_mem c h))
        (exponentText_finite _)
    · rw [show ((c :: c' :: cs).length : Int) + e - 1 - (c' :: cs).length = e by
        simp only [List.length_cons]; omega]
      exact hx

theorem spells_small (hd : AllDigits (c :: cs))
    (hx : Double.ofDecimal negative (Decimal.value (c :: cs)) e = .finite x) {p : Nat}
    (hp : (c :: cs).length + e = -(p : Int)) :
    SpellsDouble negative ('0' :: '.' :: (List.replicate p '0' ++ c :: cs)) x := by
  have hf : ∀ d ∈ List.replicate p '0' ++ c :: cs, Decimal.isDigit d = true := by
    intro d h
    rcases List.mem_append.mp h with h | h
    · rw [List.eq_of_mem_replicate h]
      rfl
    · exact hd d h
  refine ⟨⟨negative, ['0'], List.replicate p '0' ++ c :: cs, 0, false⟩,
    .fraction (Or.inl rfl) isDigit_of_mem_zero (by simp) hf,
    scalar_of_decimal rfl ?_⟩
  have hv : Decimal.value (['0'] ++ (List.replicate p '0' ++ c :: cs)) = Decimal.value (c :: cs) := by
    rw [← List.append_assoc, ← List.replicate_one, List.replicate_append_replicate]
    exact Decimal.value_leading_zeros _ _
  have he : (0 : Int) - ((List.replicate p '0' ++ c :: cs).length : Int) = e := by
    rw [List.length_append, List.length_replicate]
    omega
  rw [hv, he]
  exact hx

theorem spells_whole (hc : c ≠ '0') (hd : AllDigits (c :: cs))
    (hv : Decimal.value (c :: cs) ≠ 0)
    (hx : Double.ofDecimal negative (Decimal.value (c :: cs)) e = .finite x) {p : Nat}
    (hp : (c :: cs).length + e = (p : Int)) (hle : (c :: cs).length ≤ p) :
    SpellsDouble negative (c :: cs ++ List.replicate (p - (c :: cs).length) '0' ++ ['.', '0']) x := by
  set k := p - (c :: cs).length with hk
  have hw : ∀ d ∈ c :: cs ++ List.replicate k '0', Decimal.isDigit d = true := by
    intro d h
    rcases List.mem_append.mp h with h | h
    · exact hd d h
    · rw [List.eq_of_mem_replicate h]
      rfl
  refine ⟨⟨negative, c :: cs ++ List.replicate k '0', ['0'], 0, false⟩,
    .fraction (Or.inr ⟨c, cs ++ List.replicate k '0', rfl, hc⟩) hw
      (List.cons_ne_nil _ _) isDigit_of_mem_zero, scalar_of_decimal rfl ?_⟩
  have hval : Decimal.value (c :: cs ++ List.replicate k '0' ++ ['0']) =
      Decimal.value (c :: cs) * 10 ^ (k + 1) := by
    rw [List.append_assoc, ← List.replicate_one, List.replicate_append_replicate, Decimal.value_append,
      Decimal.value_zeros, List.length_replicate, Nat.add_zero]
  have he : e = (0 : Int) - ((['0'] : List Char).length : Int) + ((k + 1 : Nat) : Int) := by
    rw [List.length_singleton]
    omega
  rw [hval, Double.ofDecimal_mul_ten_pow negative hv (k + 1) he]
  exact hx

theorem spells_split (hc : c ≠ '0') (hd : AllDigits (c :: cs))
    (hx : Double.ofDecimal negative (Decimal.value (c :: cs)) e = .finite x) {p : Nat}
    (hp : (c :: cs).length + e = (p : Int)) (hpos : p ≠ 0) (hlt : p < (c :: cs).length) :
    SpellsDouble negative ((c :: cs).take p ++ '.' :: (c :: cs).drop p) x := by
  obtain ⟨q, rfl⟩ := Nat.exists_eq_succ_of_ne_zero hpos
  have hne : (c :: cs).drop (q + 1) ≠ [] := by
    rw [Ne, List.drop_eq_nil_iff]
    omega
  refine ⟨⟨negative, (c :: cs).take (q + 1), (c :: cs).drop (q + 1), 0, false⟩,
    .fraction (Or.inr ⟨c, cs.take q, rfl, hc⟩)
      (fun d h => hd d (List.mem_of_mem_take h)) hne (fun d h => hd d (List.mem_of_mem_drop h)),
    scalar_of_decimal rfl ?_⟩
  have he : (0 : Int) - (((c :: cs).drop (q + 1)).length : Int) = e := by
    rw [List.length_drop]
    omega
  simp only [List.take_append_drop, he]
  exact hx

/-- A placed point leaves the value of the digits as it was. -/
theorem spells_placePoint (hc : c ≠ '0') (hd : AllDigits (c :: cs))
    (hv : Decimal.value (c :: cs) ≠ 0)
    (hx : Double.ofDecimal negative (Decimal.value (c :: cs)) e = .finite x) :
    SpellsDouble negative (Double.placePoint (c :: cs) ((c :: cs).length + e)) x := by
  unfold Double.placePoint
  split_ifs
  · cases cs <;> exact spells_scientific negative hc hd hx
  · split
    · next p hp =>
      rw [Int.ofNat_eq_natCast] at hp
      split_ifs with h0 hle
      · exact spells_small negative hd hx (p := 0) (by omega)
      · exact spells_whole negative hc hd hv hx hp hle
      · exact spells_split negative hc hd hx hp h0 (by omega)
    · next p hp =>
      exact spells_small negative hd hx (p := p + 1) (by rw [hp, Int.negSucc_eq]; omega)

end

/-- The text of the magnitude of a finite double stands for that double. -/
theorem spells_magnitudeText (x : Dyadic) :
    SpellsDouble x.negative (Double.magnitudeText x) x := by
  by_cases hx : x.significand = 0
  · refine ⟨⟨x.negative, ['0'], ['0'], 0, false⟩, ?_, scalar_of_decimal rfl ?_⟩
    · rw [Double.magnitudeText, if_pos hx]
      exact .fraction (Or.inl rfl) isDigit_of_mem_zero (List.cons_ne_nil _ _)
        isDigit_of_mem_zero
    · exact Double.zero_of_significand hx
  · have hread := Double.ofDecimal_shortest hx
    obtain ⟨c, cs, k, htrim, hc, hd, hn⟩ :=
      trimZeros_digits (Double.shortest_ne_zero hx) (Double.shortest x).2
    have hv : Decimal.value (c :: cs) ≠ 0 := by
      intro h0
      rw [h0, Nat.zero_mul] at hn
      exact Double.shortest_ne_zero hx hn
    rw [hn, Double.ofDecimal_mul_ten_pow x.negative hv k rfl] at hread
    simp only [Double.magnitudeText, if_neg hx, htrim]
    exact spells_placePoint x.negative hc hd hv hread

theorem spelled_double (x : Dyadic) :
    Spelled (.value (.scalar (.float (.finite x)))) (Double.finiteText x) := by
  obtain ⟨n, htext, hn⟩ := spells_magnitudeText x
  rw [← hn]
  exact .number htext

theorem spelled_int (i : Int) : Spelled (.value (.scalar (.int i))) (Decimal.ofInt i) := by
  have hmagnitude (negative : Bool) (n : Nat) :
      MagnitudeText negative (Decimal.digits n) ⟨negative, Decimal.digits n, [], 0, true⟩ :=
    .integer (wholePart_digits n) fun c hc => Decimal.isDigit_of_mem_digits hc
  have hscalar (negative : Bool) (n : Nat) :
      Numeral.scalar ⟨negative, Decimal.digits n, [], 0, true⟩ =
        .int (if negative then -(n : Int) else n) := by
    simp [Numeral.scalar, Decimal.value_digits]
  cases i with
  | ofNat n =>
    have hn := Spelled.number (hmagnitude false n)
    rwa [hscalar] at hn
  | negSucc n =>
    have hn := Spelled.number (hmagnitude true (n + 1))
    rwa [hscalar] at hn

end Exemplar.Json
