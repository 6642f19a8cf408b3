import Exemplar.Text.Octets
import Exemplar.Proofs.Digits

/-! Reading octets inverts writing them: each character is recovered from its own octets, whatever
follows, so every text survives the way through UTF-8. -/
namespace Exemplar.Text

theorem toNat_octet {n : Nat} (hn : n < 256) : (octet n).toNat = n := by
  simp [octet, Nat.mod_eq_of_lt hn]

theorem encode_append (s t : List Char) : encode (s ++ t) = encode s ++ encode t :=
  List.flatMap_append

theorem encode_cons (c : Char) (s : List Char) : encode (c :: s) = encodeChar c ++ encode s :=
  List.flatMap_cons

/-- Code points leave out the surrogates and stay below `0x110000`. -/
theorem codePoint_cases (c : Char) : c.toNat < 0xD800 ∨ 0xDFFF < c.toNat ∧ c.toNat < 0x110000 :=
  c.valid

theorem encodeChar_ascii {c : Char} (hc : c.toNat < 0x80) : encodeChar c = [octet c.toNat] := by
  simp only [encodeChar, if_pos hc]

theorem isContinuation_octet {n : Nat} (hn : n < 0x40) :
    isContinuation (octet (0x80 + n)) = true := by
  simp only [isContinuation, toNat_octet (show 0x80 + n < 256 by omega), Bool.and_eq_true,
    decide_eq_true_eq]
  omega

theorem readHead_two {lead b : UInt8} (rest : List UInt8)
    (hlead : 0xC2 ≤ lead.toNat ∧ lead.toNat ≤ 0xDF) (hb : 0x80 ≤ b.toNat ∧ b.toNat ≤ 0xBF) :
    readHead lead (b :: rest) =
      .char (Char.ofNat ((lead.toNat - 0xC0) * 0x40 + (b.toNat - 0x80))) 2 := by
  have hf : followers? lead.toNat = some 1 := by
    rw [followers?, if_neg (by omega), if_pos hlead]
  have hs : secondRange lead.toNat = (0x80, 0xBF) := by
    rw [secondRange, if_neg (by omega), if_neg (by omega), if_neg (by omega), if_neg (by omega)]
  have hr : ¬(b.toNat < 0x80 || 0xBF < b.toNat) = true := by simp; omega
  simp only [readHead, hf, hs, if_neg hr, ↓reduceIte]

theorem readHead_three {lead b c : UInt8} (rest : List UInt8)
    (hlead : 0xE0 ≤ lead.toNat ∧ lead.toNat ≤ 0xEF)
    (hb : (secondRange lead.toNat).1 ≤ b.toNat ∧ b.toNat ≤ (secondRange lead.toNat).2)
    (hc : isContinuation c = true) :
    readHead lead (b :: c :: rest) =
      .char (Char.ofNat ((lead.toNat - 0xE0) * 0x1000 + (b.toNat - 0x80) * 0x40 +
        (c.toNat - 0x80))) 3 := by
  have hf : followers? lead.toNat = some 2 := by
    rw [followers?, if_neg (by omega), if_neg (by omega), if_pos hlead]
  have hr : ¬(b.toNat < (secondRange lead.toNat).1 || (secondRange lead.toNat).2 < b.toNat) = true := by
    simp; omega
  simp only [readHead, hf, if_neg hr, hc]
  simp

theorem readHead_four {lead b c d : UInt8} (rest : List UInt8)
    (hlead : 0xF0 ≤ lead.toNat ∧ lead.toNat ≤ 0xF4)
    (hb : (secondRange lead.toNat).1 ≤ b.toNat ∧ b.toNat ≤ (secondRange lead.toNat).2)
    (hc : isContinuation c = true) (hd : isContinuation d = true) :
    readHead lead (b :: c :: d :: rest) =
      .char (Char.ofNat ((lead.toNat - 0xF0) * 0x40000 + (b.toNat - 0x80) * 0x1000 +
        (c.toNat - 0x80) * 0x40 + (d.toNat - 0x80))) 4 := by
  have hf : followers? lead.toNat = some 3 := by
    rw [followers?, if_neg (by omega), if_neg (by omega), if_neg (by omega), if_pos hlead]
  have hr : ¬(b.toNat < (secondRange lead.toNat).1 || (secondRange lead.toNat).2 < b.toNat) = true := by
    simp; omega
  simp only [readHead, hf, if_neg hr, hc, hd]
  simp

/-- The second octet of a long sequence lies in the range that its lead admits: the excluded octets
would stand for overlong forms, surrogates, or code points that do not exist. -/
theorem secondRange_three {n : Nat} (hn : 0x800 ≤ n) (hx : n < 0x10000)
    (hv : n < 0xD800 ∨ 0xDFFF < n) :
    (secondRange (0xE0 + n / 0x1000)).1 ≤ 0x80 + n / 0x40 % 0x40 ∧
      0x80 + n / 0x40 % 0x40 ≤ (secondRange (0xE0 + n / 0x1000)).2 := by
  unfold secondRange
  split_ifs <;> simp only <;> omega

theorem secondRange_four {n : Nat} (hn : 0x10000 ≤ n) (hx : n < 0x110000) :
    (secondRange (0xF0 + n / 0x40000)).1 ≤ 0x80 + n / 0x1000 % 0x40 ∧
      0x80 + n / 0x1000 % 0x40 ≤ (secondRange (0xF0 + n / 0x40000)).2 := by
  unfold secondRange
  split_ifs <;> simp only <;> omega

/-- The octets of a character are read as the character, whatever follows. -/
def HeadReads (c : Char) : Prop :=
  ∃ lead tail, encodeChar c = lead :: tail ∧
    ∀ rest, readHead lead (tail ++ rest) = .char c (tail.length + 1)

variable {c : Char} {n : Nat}

theorem headReads_one (hn : c.toNat = n) (h1 : n < 0x80) : HeadReads c := by
  have hof := Char.ofNat_toNat c
  rw [hn] at hof
  refine ⟨octet n, [], by simp only [encodeChar, hn, if_pos h1], fun rest => ?_⟩
  simp only [readHead, followers?, toNat_octet (show n < 256 by omega), if_pos h1, hof,
    List.length_nil, Nat.zero_add]

theorem headReads_two (hn : c.toNat = n) (h1 : ¬n < 0x80) (h2 : n < 0x800) : HeadReads c := by
  have hof := Char.ofNat_toNat c
  rw [hn] at hof
  have hl := toNat_octet (show 0xC0 + n / 0x40 < 256 by omega)
  have hb := toNat_octet (show 0x80 + n % 0x40 < 256 by omega)
  refine ⟨octet (0xC0 + n / 0x40), [octet (0x80 + n % 0x40)],
    by simp only [encodeChar, hn, if_neg h1, if_pos h2], fun rest => ?_⟩
  have hr := readHead_two rest (by rw [hl]; omega) (by rw [hb]; omega)
  rw [List.singleton_append, hr, hl, hb, List.length_singleton]
  rw [show (0xC0 + n / 0x40 - 0xC0) * 0x40 + (0x80 + n % 0x40 - 0x80) = n by omega, hof]

theorem headReads_three (hn : c.toNat = n) (h2 : ¬n < 0x800) (h3 : n < 0x10000) : HeadReads c := by
  have hof := Char.ofNat_toNat c
  have hv := codePoint_cases c
  rw [hn] at hof hv
  have hl := toNat_octet (show 0xE0 + n / 0x1000 < 256 by omega)
  have hb := toNat_octet (show 0x80 + n / 0x40 % 0x40 < 256 by omega)
  have hc := toNat_octet (show 0x80 + n % 0x40 < 256 by omega)
  have hs := secondRange_three (Nat.le_of_not_lt h2) h3 (by omega)
  rw [← hl, ← hb] at hs
  refine ⟨octet (0xE0 + n / 0x1000), [octet (0x80 + n / 0x40 % 0x40), octet (0x80 + n % 0x40)],
    by simp only [encodeChar, hn, if_neg (show ¬n < 0x80 by omega), if_neg h2, if_pos h3],
    fun rest => ?_⟩
  have hr := readHead_three rest (by rw [hl]; omega) hs
    (isContinuation_octet (Nat.mod_lt n (show 0 < 0x40 by omega)))
  rw [List.cons_append, List.singleton_append, hr, hl, hb, hc]
  rw [show (0xE0 + n / 0x1000 - 0xE0) * 0x1000 + (0x80 + n / 0x40 % 0x40 - 0x80) * 0x40 +
    (0x80 + n % 0x40 - 0x80) = n by omega, hof]
  rfl

theorem headReads_four (hn : c.toNat = n) (h3 : ¬n < 0x10000) : HeadReads c := by
  have hof := Char.ofNat_toNat c
  have hv := codePoint_cases c
  rw [hn] at hof hv
  have hl := toNat_octet (show 0xF0 + n / 0x40000 < 256 by omega)
  have hb := toNat_octet (show 0x80 + n / 0x1000 % 0x40 < 256 by omega)
  have hc := toNat_octet (show 0x80 + n / 0x40 % 0x40 < 256 by omega)
  have hd := toNat_octet (show 0x80 + n % 0x40 < 256 by omega)
  have hs := secondRange_four (Nat.le_of_not_lt h3) (by omega)
  rw [← hl, ← hb] at hs
  refine ⟨octet (0xF0 + n / 0x40000), [octet (0x80 + n / 0x1000 % 0x40),
    octet (0x80 + n / 0x40 % 0x40), octet (0x80 + n % 0x40)],
    by simp only [encodeChar, hn, if_neg (show ¬n < 0x80 by omega),
      if_neg (show ¬n < 0x800 by omega), if_neg h3], fun rest => ?_⟩
  have hr := readHead_four rest (by rw [hl]; omega) hs
    (isContinuation_octet (Nat.mod_lt (n / 0x40) (show 0 < 0x40 by omega)))
    (isContinuation_octet (Nat.mod_lt n (show 0 < 0x40 by omega)))
  rw [List.cons_append, List.cons_append, List.singleton_append, hr, hl, hb, hc, hd]
  rw [show (0xF0 + n / 0x40000 - 0xF0) * 0x40000 + (0x80 + n / 0x1000 % 0x40 - 0x80) * 0x1000 +
    (0x80 + n / 0x40 % 0x40 - 0x80) * 0x40 + (0x80 + n % 0x40 - 0x80) = n by omega, hof]
  rfl

theorem headReads (c : Char) : HeadReads c := by
  by_cases h1 : c.toNat < 0x80
  · exact headReads_one rfl h1
  by_cases h2 : c.toNat < 0x800
  · exact headReads_two rfl h1 h2
  by_cases h3 : c.toNat < 0x10000
  · exact headReads_three rfl h2 h3
  · exact headReads_four rfl h3

theorem decodeFrom_encode (s : List Char) (offset : Nat) :
    decodeFrom offset (encode s) = .ok s := by
  induction s generalizing offset with
  | nil => simp [encode, decodeFrom]
  | cons c s ih =>
    obtain ⟨lead, tail, he, hr⟩ := headReads c
    rw [encode_cons, he, List.cons_append, decodeFrom]
    simp only [hr, Nat.add_sub_cancel, List.drop_left, ih]

/-- Every text is read back from its octets. -/
theorem decode?_encode (s : List Char) : decode? (encode s) = .ok s := decodeFrom_encode s 0

end Exemplar.Text
