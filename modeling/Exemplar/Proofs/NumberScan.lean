import Exemplar.Json.Token
import Exemplar.Proofs.Grammar
import Exemplar.Proofs.Utf8

/-! Scanning numbers. Every text of a number is read up to the first octet that cannot belong to it. -/
namespace Exemplar.Json
open Text

/-- What follows a number does not go on with it. -/
def StopsNumber (rest : List UInt8) : Prop :=
  ∀ b ∈ rest.head?, isDigitOctet b = false ∧ b ≠ 0x2E ∧ b ≠ 0x65 ∧ b ≠ 0x45

theorem stopsNumber_cons {b : UInt8} (rest : List UInt8) (hd : isDigitOctet b = false)
    (hn : b ≠ 0x2E ∧ b ≠ 0x65 ∧ b ≠ 0x45) : StopsNumber (b :: rest) := by
  intro b' hb
  rw [List.head?_cons, Option.mem_some_iff] at hb
  subst hb
  exact ⟨hd, hn⟩

theorem isDigit_bounds {c : Char} (hc : Decimal.isDigit c = true) : 48 ≤ c.toNat ∧ c.toNat ≤ 57 := by
  simpa [Decimal.isDigit] using hc

theorem encode_digit {c : Char} (hc : Decimal.isDigit c = true) (s : List Char) :
    encode (c :: s) = octet c.toNat :: encode s := by
  have hb := isDigit_bounds hc
  rw [encode_cons, encodeChar_ascii (by omega), List.singleton_append]

theorem isDigitOctet_digit {c : Char} (hc : Decimal.isDigit c = true) :
    isDigitOctet (octet c.toNat) = true := by
  have hb := isDigit_bounds hc
  simp only [isDigitOctet, toNat_octet (show c.toNat < 256 by omega), Bool.and_eq_true,
    decide_eq_true_eq]
  omega

theorem length_encode_digits {ds : List Char} (hd : AllDigits ds) :
    (encode ds).length = ds.length := by
  induction ds with
  | nil => rfl
  | cons c ds ih =>
    rw [encode_digit (hd c (by simp)), List.length_cons, List.length_cons,
      ih fun d h => hd d (by simp [h])]

theorem leadingDigits_digits {ds : List Char} {rest : List UInt8}
    (hd : AllDigits ds) (hr : ∀ b ∈ rest.head?, isDigitOctet b = false) :
    leadingDigits (encode ds ++ rest) = ds := by
  induction ds with
  | nil =>
    cases rest with
    | nil => rfl
    | cons b rest => simp [encode, leadingDigits, hr b (by simp)]
  | cons c ds ih =>
    have hc := hd c (by simp)
    have hi := ih fun d h => hd d (by simp [h])
    have hb := isDigit_bounds hc
    rw [leadingDigits] at hi
    rw [encode_digit hc, List.cons_append, leadingDigits, List.takeWhile_cons,
      if_pos (isDigitOctet_digit hc), List.map_cons, hi, toNat_octet (by omega), Char.ofNat_toNat]

theorem drop_encode_digits {ds : List Char} (hd : AllDigits ds)
    (rest : List UInt8) : (encode ds ++ rest).drop ds.length = rest := by
  rw [← length_encode_digits hd, List.drop_left]

/-- What may stand behind the digits of a number: an exponent or its end. -/
def scanEnd (negative : Bool) (whole fraction : List Char) (integral : Bool) :
    List UInt8 → Scan Numeral
  | b :: rest =>
    if b = 0x65 || b = 0x45 then
      ((scanExponent rest).map fun e => ⟨negative, whole, fraction, e, false⟩).shift 1
    else .done ⟨negative, whole, fraction, 0, integral⟩ 0
  | [] => .done ⟨negative, whole, fraction, 0, integral⟩ 0

theorem scanEnd_stop (negative : Bool) (whole fraction : List Char) (integral : Bool)
    {rest : List UInt8} (hr : StopsNumber rest) :
    scanEnd negative whole fraction integral rest =
      .done ⟨negative, whole, fraction, 0, integral⟩ 0 := by
  cases rest with
  | nil => rfl
  | cons b rest =>
    obtain ⟨-, -, hl, hu⟩ := hr b (by simp)
    simp [scanEnd, hl, hu]

theorem scanTail_point (negative : Bool) (whole : List Char) {ds : List Char} {rest : List UInt8}
    (hne : ds ≠ []) (hd : AllDigits ds)
    (hr : ∀ b ∈ rest.head?, isDigitOctet b = false) :
    scanTail negative whole (encode ('.' :: ds) ++ rest) =
      (scanEnd negative whole ds false rest).shift (1 + ds.length) := by
  have hpoint : encode ('.' :: ds) = 0x2E :: encode ds := rfl
  rw [hpoint, List.cons_append]
  cases ds with
  | nil => exact absurd rfl hne
  | cons c ds =>
    simp only [scanTail, leadingDigits_digits hd hr, drop_encode_digits hd]
    rfl

theorem scanTail_end (negative : Bool) (whole : List Char) {rest : List UInt8}
    (hr : ∀ b ∈ rest.head?, b ≠ 0x2E) :
    scanTail negative whole rest = scanEnd negative whole [] true rest := by
  unfold scanTail
  split
  · exact absurd rfl (hr _ (by simp))
  · rfl

theorem scanMagnitude_whole (negative : Bool) {ds : List Char} {rest : List UInt8}
    (hw : WholePart ds) (hd : AllDigits ds)
    (hr : ∀ b ∈ rest.head?, isDigitOctet b = false) :
    scanMagnitude negative (encode ds ++ rest) = (scanTail negative ds rest).shift ds.length := by
  have hl := leadingDigits_digits hd hr
  have hdrop := drop_encode_digits hd rest
  rcases hw with rfl | ⟨c, cs, rfl, hc⟩
  · simp only [scanMagnitude, hl]
    rw [List.length_singleton] at hdrop
    rw [hdrop, List.length_singleton]
  · unfold scanMagnitude
    rw [hl]
    split
    · contradiction
    · next h => exact absurd (List.cons.inj h).1 hc
    · rw [hdrop]

/-- A text without a sign is read as a numeral, whatever stops it. -/
def ReadsAs (text : List Char) (n : Numeral) : Prop :=
  ∀ rest, StopsNumber rest →
    scanMagnitude n.negative (encode text ++ rest) = .done n (encode text).length

theorem length_encode_point (fs : List Char) :
    (encode ('.' :: fs)).length = 1 + (encode fs).length := by
  rw [encode_cons, List.length_append]
  rfl

theorem head_point (fs : List Char) (rest : List UInt8) {b : UInt8}
    (hb : b ∈ (encode ('.' :: fs) ++ rest).head?) : isDigitOctet b = false := by
  have hhead : (encode ('.' :: fs) ++ rest).head? = some 0x2E := rfl
  rw [hhead, Option.mem_some_iff] at hb
  subst hb
  decide

theorem scanExponent_signed (negative : Bool) {ds : List Char} {rest : List UInt8} (hne : ds ≠ [])
    (hd : AllDigits ds) (hr : StopsNumber rest) :
    scanExponent ((if negative then 0x2D else 0x2B) :: (encode ds ++ rest)) =
      .done (if negative then -(Decimal.value ds : Int) else Decimal.value ds) (1 + ds.length) := by
  have hl := leadingDigits_digits hd fun b hb => (hr b hb).1
  cases ds with
  | nil => exact absurd rfl hne
  | cons d ds => cases negative <;> simp [scanExponent, hl]

theorem scanExponent_plain {ds : List Char} {rest : List UInt8} (hne : ds ≠ []) (hd : AllDigits ds)
    (hr : StopsNumber rest) :
    scanExponent (encode ds ++ rest) = .done (Decimal.value ds : Int) ds.length := by
  have hl := leadingDigits_digits hd fun b hb => (hr b hb).1
  cases ds with
  | nil => exact absurd rfl hne
  | cons d ds =>
    have hdigit := isDigitOctet_digit (hd d (by simp))
    rw [encode_digit (hd d (by simp)), List.cons_append] at hl ⊢
    unfold scanExponent
    split
    rename_i negative signs hsigns
    split at hsigns
    · next heq =>
      rw [(List.cons.inj heq).1] at hdigit
      exact absurd hdigit (by decide)
    · next heq =>
      rw [(List.cons.inj heq).1] at hdigit
      exact absurd hdigit (by decide)
    · obtain ⟨rfl, rfl⟩ := Prod.mk.inj hsigns
      rw [List.drop_zero, hl]
      simp

/-- The text of an exponent is its letter, and behind it what is scanned. -/
theorem ExponentText.scan {es : List Char} {e : Int} (h : ExponentText es e) :
    ∃ letter bs, encode es = letter :: bs ∧ (letter = 0x65 ∨ letter = 0x45) ∧
      ∀ rest, StopsNumber rest → scanExponent (bs ++ rest) = .done e bs.length := by
  have hletter {c : Char} (hc : c = 'e' ∨ c = 'E') (cs : List Char) :
      ∃ letter, encode (c :: cs) = letter :: encode cs ∧ (letter = 0x65 ∨ letter = 0x45) := by
    rcases hc with rfl | rfl
    · exact ⟨0x65, rfl, .inl rfl⟩
    · exact ⟨0x45, rfl, .inr rfl⟩
  cases h with
  | @plain c ds hc hne hd =>
    obtain ⟨letter, he, hl⟩ := hletter hc ds
    refine ⟨letter, encode ds, he, hl, fun rest hr => ?_⟩
    rw [scanExponent_plain hne hd hr, length_encode_digits hd]
  | @signed c ds hc negative hne hd =>
    obtain ⟨letter, he, hl⟩ := hletter hc ((if negative then '-' else '+') :: ds)
    have hsign : encode ((if negative then '-' else '+') :: ds) =
        (if negative then 0x2D else 0x2B) :: encode ds := by
      cases negative <;> rfl
    refine ⟨letter, _, he, hl, fun rest hr => ?_⟩
    rw [hsign, List.cons_append, scanExponent_signed negative hne hd hr, List.length_cons,
      length_encode_digits hd, Nat.add_comm]

theorem scanEnd_exponent (negative : Bool) (whole fraction : List Char) (integral : Bool)
    {es : List Char} {e : Int} (he : ExponentText es e) {rest : List UInt8} (hr : StopsNumber rest) :
    scanEnd negative whole fraction integral (encode es ++ rest) =
      .done ⟨negative, whole, fraction, e, false⟩ (encode es).length := by
  obtain ⟨letter, bs, hbs, hletter, hscan⟩ := he.scan
  have htaken : (letter = 0x65 || letter = 0x45) = true := by simpa using hletter
  rw [hbs, List.cons_append, scanEnd, if_pos htaken, hscan rest hr, List.length_cons, Nat.add_comm]
  rfl

theorem head_exponent {es : List Char} {e : Int} (he : ExponentText es e) (rest : List UInt8)
    {b : UInt8} (hb : b ∈ (encode es ++ rest).head?) : isDigitOctet b = false ∧ b ≠ 0x2E := by
  obtain ⟨letter, bs, hbs, hletter, -⟩ := he.scan
  rw [hbs, List.cons_append, List.head?_cons, Option.mem_some_iff] at hb
  subst hb
  rcases hletter with rfl | rfl <;> decide

/-- Every text of a number is read as that number. -/
theorem MagnitudeText.readsAs {negative : Bool} {text : List Char} {n : Numeral}
    (h : MagnitudeText negative text n) : ReadsAs text n := by
  intro rest hr
  cases h with
  | integer hw hd =>
    rw [scanMagnitude_whole negative hw hd fun b hb => (hr b hb).1,
      scanTail_end negative _ fun b hb => (hr b hb).2.1, scanEnd_stop _ _ _ _ hr, Scan.shift,
      Nat.add_zero, length_encode_digits hd]
  | @fraction ds fs hw hd hne hf =>
    rw [encode_append, List.append_assoc,
      scanMagnitude_whole negative hw hd fun b hb => head_point fs rest hb,
      scanTail_point negative ds hne hf fun b hb => (hr b hb).1, scanEnd_stop _ _ _ _ hr]
    simp only [Scan.shift, List.length_append, length_encode_point, length_encode_digits hd,
      length_encode_digits hf, Nat.add_zero]
  | @exponent ds es e hw hd he =>
    rw [encode_append, List.append_assoc,
      scanMagnitude_whole negative hw hd fun b hb => (head_exponent he rest hb).1,
      scanTail_end negative ds fun b hb => (head_exponent he rest hb).2,
      scanEnd_exponent _ _ _ _ he hr, List.length_append, length_encode_digits hd]
    rfl
  | @scaled ds fs es e hw hd hne hf he =>
    rw [encode_append, encode_append, List.append_assoc, List.append_assoc,
      scanMagnitude_whole negative hw hd fun b hb => head_point fs _ hb,
      scanTail_point negative ds hne hf fun b hb => (head_exponent he rest hb).1,
      scanEnd_exponent _ _ _ _ he hr]
    simp only [Scan.shift, List.length_append, length_encode_point, length_encode_digits hd,
      length_encode_digits hf, Nat.add_assoc]

theorem MagnitudeText.negative_eq {negative : Bool} {text : List Char} {n : Numeral}
    (h : MagnitudeText negative text n) : n.negative = negative := by
  cases h <;> rfl

/-- What is read as a numeral starts with a digit. -/
theorem ReadsAs.head {text : List Char} {n : Numeral} (h : ReadsAs text n) :
    ∃ b bs, encode text = b :: bs ∧ isDigitOctet b = true := by
  have hs := h [] (by simp [StopsNumber])
  rw [List.append_nil] at hs
  cases he : encode text with
  | nil =>
    rw [he] at hs
    simp [scanMagnitude, leadingDigits] at hs
  | cons b bs =>
    refine ⟨b, bs, rfl, ?_⟩
    by_contra hb
    rw [he] at hs
    simp [scanMagnitude, leadingDigits, hb] at hs

end Exemplar.Json
