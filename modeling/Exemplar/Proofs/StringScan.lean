import Exemplar.Json.Token
import Exemplar.Proofs.Grammar
import Exemplar.Proofs.Utf8
import Mathlib.Data.List.TakeWhile

/-! Scanning strings. Every character of a string, however it is escaped, gives the scanner the octets
of that character, so each text of a string is read as the octets of the string. -/
namespace Exemplar.Json
open Text

/-- Scanning an octet sequence in front of the rest of a literal gives these octets first. -/
def ScansTo (text octets : List UInt8) : Prop :=
  ∀ rest, scanString (text ++ rest) = (prepend octets (scanString rest)).shift text.length

theorem scansTo_escape {letter : Char} {c : UInt8} (hl : letter.toNat < 0x80)
    (hc : simpleEscape? (octet letter.toNat) = some c) :
    ScansTo (encode ['\\', letter]) [c] := by
  intro rest
  have he : encode ['\\', letter] = [0x5C, octet letter.toNat] := by
    rw [encode_cons, encode_cons, encodeChar_ascii hl]
    rfl
  rw [he, List.cons_append, List.singleton_append, scanString]
  simp [hc]

theorem scansTo_short {letter c : Char} (h : (letter, c) ∈ shortEscapes) :
    ScansTo (encode ['\\', letter]) (encodeChar c) := by
  have hall : ∀ e ∈ shortEscapes, e.1.toNat < 0x80 ∧ e.2.toNat < 0x80 ∧
      simpleEscape? (octet e.1.toNat) = some (octet e.2.toNat) := by decide
  obtain ⟨hletter, hsmall, hc⟩ := hall _ h
  rw [encodeChar_ascii hsmall]
  exact scansTo_escape hletter hc

theorem hexValue?_digit {c : Char} {d : Nat} (h : hexDigitValue? c = some d) :
    encodeChar c = [octet c.toNat] ∧ hexValue? (octet c.toNat) = some d := by
  have hbounds : (48 ≤ c.toNat ∧ c.toNat ≤ 57 ∧ d = c.toNat - 48) ∨
      (65 ≤ c.toNat ∧ c.toNat ≤ 70 ∧ d = c.toNat - 55) ∨
      (97 ≤ c.toNat ∧ c.toNat ≤ 102 ∧ d = c.toNat - 87) := by
    unfold hexDigitValue? at h
    split_ifs at h with hd hupper hlower
    · have hd : 48 ≤ c.toNat ∧ c.toNat ≤ 57 := by simpa [Decimal.isDigit] using hd
      exact .inl ⟨hd.1, hd.2, (Option.some.inj h).symm⟩
    · exact .inr (.inl ⟨hupper.1, hupper.2, (Option.some.inj h).symm⟩)
    · exact .inr (.inr ⟨hlower.1, hlower.2, (Option.some.inj h).symm⟩)
  have ho := toNat_octet (show c.toNat < 256 by omega)
  refine ⟨encodeChar_ascii (by omega), ?_⟩
  simp only [hexValue?, ho]
  rcases hbounds with ⟨hlow, hhigh, rfl⟩ | ⟨hlow, hhigh, rfl⟩ | ⟨hlow, hhigh, rfl⟩
  · rw [if_pos ⟨hlow, hhigh⟩]
  · rw [if_neg (by omega), if_pos ⟨hlow, hhigh⟩]
  · rw [if_neg (by omega), if_neg (by omega), if_pos ⟨hlow, hhigh⟩]

theorem hexAt_number {ds : List Char} {n m : Nat} (h : hexNumber? n ds = some m) (distance : Nat)
    (rest : List UInt8) : hexAt ds.length n distance (encode ds ++ rest) = .ok m := by
  induction ds generalizing n distance with
  | nil =>
    cases h
    rfl
  | cons c ds ih =>
    rw [hexNumber?] at h
    split at h
    · next d hd =>
      obtain ⟨he, hv⟩ := hexValue?_digit hd
      rw [encode_cons, he, List.length_cons, List.singleton_append, List.cons_append, hexAt, hv]
      exact ih h _
    · cases h

theorem length_encode_number {ds : List Char} {n m : Nat} (h : hexNumber? n ds = some m) :
    (encode ds).length = ds.length := by
  induction ds generalizing n with
  | nil => rfl
  | cons c ds ih =>
    rw [hexNumber?] at h
    split at h
    · next d hd =>
      rw [encode_cons, (hexValue?_digit hd).1, List.singleton_append, List.length_cons, ih h,
        List.length_cons]
    · cases h

theorem UnitText.hexAt_eq {ds : List Char} {n : Nat} (h : UnitText ds n) (rest : List UInt8) :
    hexAt 4 0 0 (encode ds ++ rest) = .ok n := by
  rw [← h.length]
  exact hexAt_number h.number 0 rest

theorem UnitText.drop_eq {ds : List Char} {n : Nat} (h : UnitText ds n) (rest : List UInt8) :
    (encode ds ++ rest).drop 4 = rest :=
  List.drop_left' ((length_encode_number h.number).trans h.length)

theorem hexNumber?_lt {ds : List Char} {n m : Nat} (h : hexNumber? n ds = some m) :
    m < (n + 1) * 16 ^ ds.length := by
  induction ds generalizing n with
  | nil =>
    cases h
    simp
  | cons c ds ih =>
    rw [hexNumber?] at h
    split at h
    · next d hd =>
      have hdigit : d < 16 := by
        have hvalue := (hexValue?_digit hd).2
        simp only [hexValue?] at hvalue
        split_ifs at hvalue
        all_goals
          rw [Option.some.injEq] at hvalue
          omega
      calc m < (n * 16 + d + 1) * 16 ^ ds.length := ih h
        _ ≤ (n + 1) * 16 * 16 ^ ds.length := Nat.mul_le_mul_right _ (by omega)
        _ = (n + 1) * 16 ^ (c :: ds).length := by rw [List.length_cons, Nat.pow_succ']; ring
    · cases h

/-- What an escaped unit gives together with what is behind it. -/
theorem scanString_unit {ds : List Char} {n extra : Nat} (h : UnitText ds n)
    {behind octets : List UInt8} (hunit : unitOctets n behind = (octets, extra)) :
    scanString (encode ('\\' :: 'u' :: ds) ++ behind) =
      (prepend octets (scanString (behind.drop extra))).shift (6 + extra) := by
  have he : encode ('\\' :: 'u' :: ds) = 0x5C :: 0x75 :: encode ds := rfl
  rw [he, List.cons_append, List.cons_append, scanString]
  simp only [show simpleEscape? 0x75 = none from rfl, h.hexAt_eq, h.drop_eq, hunit]
  rfl

theorem length_encode_unit {ds : List Char} {n : Nat} (h : UnitText ds n) :
    (encode ('\\' :: 'u' :: ds)).length = 6 := by
  have he : encode ('\\' :: 'u' :: ds) = 0x5C :: 0x75 :: encode ds := rfl
  rw [he, List.length_cons, List.length_cons, length_encode_number h.number, h.length]

theorem scansTo_unit {ds : List Char} {c : Char} (h : UnitText ds c.toNat) :
    ScansTo (encode ('\\' :: 'u' :: ds)) (encodeChar c) := by
  intro rest
  have hsmall : c.toNat < 0x10000 := by
    have hlt := hexNumber?_lt h.number
    rwa [h.length] at hlt
  have hunit : unitOctets c.toNat rest = (encodeChar c, 0) := by
    have hv := codePoint_cases c
    have hlow : ¬isHighUnit c.toNat = true := by simp [isHighUnit]; omega
    simp only [unitOctets, if_neg hlow, encodeUnit, encodeChar, if_pos hsmall]
  rw [scanString_unit h hunit, List.drop_zero, length_encode_unit h]

theorem encodePair_eq {high low : Nat} (hhigh : high < 0x400) (hlow : low < 0x400) {c : Char}
    (hc : c.toNat = 0x10000 + high * 0x400 + low) :
    encodePair (0xD800 + high) (0xDC00 + low) = encodeChar c := by
  have hn : (0xD800 + high) % 0x40 * 0x400 + ((0xD800 + high) / 0x40 % 0x10 + 1) * 0x10000 +
      (0xDC00 + low) % 0x400 = c.toNat := by omega
  simp only [encodePair, hn, encodeChar]
  rw [if_neg (by omega), if_neg (by omega), if_neg (by omega)]

/-- Two escaped units that make a character together. -/
theorem scansTo_pair {ds ds' : List Char} {high low : Nat} (hhigh : high < 0x400)
    (hlow : low < 0x400) (h : UnitText ds (0xD800 + high)) (h' : UnitText ds' (0xDC00 + low))
    {c : Char} (hc : c.toNat = 0x10000 + high * 0x400 + low) :
    ScansTo (encode ('\\' :: 'u' :: (ds ++ '\\' :: 'u' :: ds'))) (encodeChar c) := by
  intro rest
  have hsplit : encode ('\\' :: 'u' :: (ds ++ '\\' :: 'u' :: ds')) =
      encode ('\\' :: 'u' :: ds) ++ encode ('\\' :: 'u' :: ds') :=
    encode_append ('\\' :: 'u' :: ds) ('\\' :: 'u' :: ds')
  have hsecond : encode ('\\' :: 'u' :: ds') = 0x5C :: 0x75 :: encode ds' := rfl
  have hopens : isHighUnit (0xD800 + high) = true := by simp [isHighUnit]; omega
  have hunit : unitOctets (0xD800 + high) (encode ('\\' :: 'u' :: ds') ++ rest) =
      (encodeChar c, 6) := by
    simp only [unitOctets, if_pos hopens, hsecond, List.cons_append, h'.hexAt_eq,
      encodePair_eq hhigh hlow hc]
  rw [hsplit, List.append_assoc, scanString_unit h hunit, List.length_append, length_encode_unit h,
    length_encode_unit h', ← length_encode_unit h', List.drop_left]

/-- A character outside ASCII is a lead octet followed by as many octets as it announces. -/
theorem encodeChar_wide {c : Char} (hc : 0x80 ≤ c.toNat) :
    ∃ lead tail, encodeChar c = lead :: tail ∧ 0x80 ≤ lead.toNat ∧
      stringFollowers? lead = some tail.length ∧ ∀ b ∈ tail, isContinuation b = true := by
  have hv := codePoint_cases c
  have hcont : ∀ m, isContinuation (octet (0x80 + m % 0x40)) = true :=
    fun m => isContinuation_octet (Nat.mod_lt m (by omega))
  generalize hn : c.toNat = n at hc hv
  by_cases h2 : n < 0x800
  · have hl := toNat_octet (show 0xC0 + n / 0x40 < 256 by omega)
    refine ⟨octet (0xC0 + n / 0x40), [octet (0x80 + n % 0x40)],
      by simp only [encodeChar, hn, if_neg (Nat.not_lt.mpr hc), if_pos h2],
      by rw [hl]; omega, ?_, by simp [hcont]⟩
    simp only [stringFollowers?, hl]
    rw [if_pos (by omega), List.length_singleton]
  by_cases h3 : n < 0x10000
  · have hl := toNat_octet (show 0xE0 + n / 0x1000 < 256 by omega)
    refine ⟨octet (0xE0 + n / 0x1000), [octet (0x80 + n / 0x40 % 0x40), octet (0x80 + n % 0x40)],
      by simp only [encodeChar, hn, if_neg (Nat.not_lt.mpr hc), if_neg h2, if_pos h3],
      by rw [hl]; omega, ?_, by simp [hcont]⟩
    simp only [stringFollowers?, hl]
    rw [if_neg (by omega), if_pos (by omega)]
    rfl
  · have hl := toNat_octet (show 0xF0 + n / 0x40000 < 256 by omega)
    refine ⟨octet (0xF0 + n / 0x40000), [octet (0x80 + n / 0x1000 % 0x40),
      octet (0x80 + n / 0x40 % 0x40), octet (0x80 + n % 0x40)],
      by simp only [encodeChar, hn, if_neg (Nat.not_lt.mpr hc), if_neg h2, if_neg h3],
      by rw [hl]; omega, ?_, by simp [hcont]⟩
    simp only [stringFollowers?, hl]
    rw [if_neg (by omega), if_neg (by omega), if_pos (by omega)]
    rfl

theorem scanString_quote (rest : List UInt8) : scanString (0x22 :: rest) = .done [] 1 := by
  rw [scanString.eq_def]
  rfl

theorem scanString_ascii {b : UInt8} (rest : List UInt8) (hquote : b ≠ 0x22) (hback : b ≠ 0x5C)
    (hlow : 0x20 ≤ b.toNat) (hhigh : b.toNat < 0x80) :
    scanString (b :: rest) = (prepend [b] (scanString rest)).shift 1 := by
  rw [scanString.eq_def]
  simp only [if_neg hquote, if_neg hback, if_neg (Nat.not_lt.mpr hlow), if_pos hhigh]

theorem scanString_wide {lead : UInt8} {tail : List UInt8} (rest : List UInt8)
    (hlead : 0x80 ≤ lead.toNat) (hf : stringFollowers? lead = some tail.length)
    (hcont : ∀ b ∈ tail, isContinuation b = true) :
    scanString (lead :: (tail ++ rest)) =
      (prepend (lead :: tail) (scanString rest)).shift (1 + tail.length) := by
  have hquote : lead ≠ 0x22 := by
    rintro rfl
    exact absurd hlead (by decide)
  have hback : lead ≠ 0x5C := by
    rintro rfl
    exact absurd hlead (by decide)
  have hall : tail.takeWhile isContinuation = tail := List.takeWhile_eq_self_iff.mpr hcont
  rw [scanString.eq_def]
  simp only [if_neg hquote, if_neg hback, if_neg (show ¬lead.toNat < 0x20 by omega),
    if_neg (Nat.not_lt.mpr hlead), hf, List.take_left, List.drop_left, hall, Nat.lt_irrefl,
    if_false]

theorem scansTo_plain {c : Char} (hq : c ≠ '"') (hb : c ≠ '\\') (hc : 0x20 ≤ c.toNat) :
    ScansTo (encode [c]) (encodeChar c) := by
  intro rest
  have hne : ∀ d : Char, c ≠ d → c.toNat ≠ d.toNat := fun d h he => h (Char.toNat_inj.mp he)
  rw [encode_cons, show encode [] = [] from rfl, List.append_nil]
  by_cases ha : c.toNat < 0x80
  · have ho := toNat_octet (show c.toNat < 256 by omega)
    have hquote : octet c.toNat ≠ 0x22 := by
      intro h
      rw [h] at ho
      exact hne '"' hq ho.symm
    have hback : octet c.toNat ≠ 0x5C := by
      intro h
      rw [h] at ho
      exact hne '\\' hb ho.symm
    rw [encodeChar_ascii ha, List.singleton_append,
      scanString_ascii rest hquote hback (by omega) (by omega), List.length_singleton]
  · obtain ⟨lead, tail, he, hlead, hf, hcont⟩ := encodeChar_wide (Nat.le_of_not_lt ha)
    rw [he, List.cons_append, scanString_wide rest hlead hf hcont, List.length_cons, Nat.add_comm 1]

/-- Every text of a string is read as the octets of the string. -/
theorem Spells.scan {text s : List Char} (h : Spells text s) (rest : List UInt8) :
    scanString (encode text ++ 0x22 :: rest) = .done (encode s) ((encode text).length + 1) := by
  have hstep {piece cs t : List Char} {c : Char} (hpiece : ScansTo (encode piece) (encodeChar c))
      (ih : scanString (encode cs ++ 0x22 :: rest) = .done (encode t) ((encode cs).length + 1)) :
      scanString (encode (piece ++ cs) ++ 0x22 :: rest) =
        .done (encode (c :: t)) ((encode (piece ++ cs)).length + 1) := by
    rw [encode_append, List.append_assoc, hpiece, ih, List.length_append, encode_cons,
      Nat.add_assoc]
    rfl
  induction h with
  | nil =>
    rw [show encode [] = [] from rfl, List.nil_append, scanString_quote]
    rfl
  | plain hquote hback hlow _ ih => exact hstep (scansTo_plain hquote hback hlow) ih
  | escape h _ ih => exact hstep (scansTo_short h) ih
  | unit h _ ih => exact hstep (scansTo_unit h) ih
  | pair hhigh hlow h h' hc _ ih =>
    have hscan := hstep (scansTo_pair hhigh hlow h h' hc) ih
    simpa only [List.cons_append, List.append_assoc] using hscan

end Exemplar.Json
