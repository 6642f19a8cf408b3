import Exemplar.Json.OctetReader
import Exemplar.Proofs.NumberScan
import Exemplar.Proofs.StringScan

/-! The reader of octets follows the grammar: each text of a document is read as the events of the
document, by induction on how the text is spelled. -/
namespace Exemplar.Json
open Text

/-- Octets are read without a problem, from a position on, as these events. -/
def Yields (limit : Option Nat) (octets : List UInt8) (p : Position) (es : List Event) : Prop :=
  ∀ offset size, ∃ ts, tokensFrom offset octets = (ts, .clean) ∧
    Reading.ofTokens limit size .clean p ts = ⟨es, none⟩

section

variable {limit : Option Nat} {rest : List UInt8} {p q : Position} {es more : List Event}

theorem yields_end : Yields limit [0x20] ⟨.nothing, []⟩ [] := by
  intro offset size
  refine ⟨[], ?_, rfl⟩
  rw [tokensFrom, if_pos (by decide), tokensFrom]

theorem yields_blank {b : UInt8} (hb : isBlank b = true) (h : Yields limit rest p es) :
    Yields limit (b :: rest) p es := by
  intro offset size
  obtain ⟨ts, hts, hread⟩ := h (offset + 1) size
  refine ⟨ts, ?_, hread⟩
  rw [tokensFrom, if_pos hb]
  exact hts

/-- A token in front is read first, and what follows from the position behind it. -/
theorem yields_token {b : UInt8} (bs : List UInt8) (lexeme : Lexeme) (es : List Event)
    (hstart : startsToken b = true) (hblank : isBlank b = false) (hslash : b ≠ 0x2F)
    (hscan : scanToken b (bs ++ rest) = .done lexeme bs.length)
    (hadv : advance limit p lexeme = .ok (es, q)) (h : Yields limit rest q more) :
    Yields limit (b :: (bs ++ rest)) p (es ++ more) := by
  intro offset size
  obtain ⟨ts, hts, hread⟩ := h (offset + 1 + bs.length) size
  refine ⟨⟨lexeme, offset, offset + 1 + bs.length⟩ :: ts, ?_, ?_⟩
  · rw [tokensFrom, if_neg (by simp [hblank]), if_neg hslash, if_neg (by simp [hstart]), hscan]
    simp only [List.drop_left, hts]
  · simp only [Reading.ofTokens, hadv, hread]
    rfl

def TakesValue (p : Position) : Prop := p.expected = .value ∨ p.expected = .itemOrEnd

theorem advance_value (hp : TakesValue p) {lexeme : Lexeme} (hl : lexeme ≠ .closeList) :
    advance limit p lexeme = valueToken limit p.stack lexeme := by
  obtain ⟨expected, stack⟩ := p
  rcases hp with rfl | rfl
  · rfl
  · cases lexeme <;> first | rfl | exact absurd rfl hl

theorem yields_openList (hp : TakesValue p)
    (h : Yields limit rest ⟨.itemOrEnd, .list :: p.stack⟩ more) :
    Yields limit (0x5B :: rest) p (.startList :: more) :=
  yields_token [] .openList [.startList] rfl rfl (by decide) rfl (advance_value hp (by simp)) h

theorem yields_openMap (hp : TakesValue p)
    (h : Yields limit rest ⟨.keyOrEnd, .map :: p.stack⟩ more) :
    Yields limit (0x7B :: rest) p (.startMap :: more) :=
  yields_token [] .openMap [.startMap] rfl rfl (by decide) rfl (advance_value hp (by simp)) h

theorem yields_closeList {stack : List Container} {expected : Expected}
    (he : expected = .itemOrEnd ∨ expected = .itemEnd)
    (h : Yields limit rest (.behindValue stack) more) :
    Yields limit (0x5D :: rest) ⟨expected, .list :: stack⟩ (.endList :: more) := by
  refine yields_token [] .closeList [.endList] rfl rfl (by decide) rfl ?_ h
  rcases he with rfl | rfl <;> rfl

theorem yields_closeMap {stack : List Container} {expected : Expected}
    (he : expected = .keyOrEnd ∨ expected = .entryEnd)
    (h : Yields limit rest (.behindValue stack) more) :
    Yields limit (0x7D :: rest) ⟨expected, .map :: stack⟩ (.endMap :: more) := by
  refine yields_token [] .closeMap [.endMap] rfl rfl (by decide) rfl ?_ h
  rcases he with rfl | rfl <;> rfl

theorem yields_comma {stack : List Container} {expected next : Expected}
    (he : expected = .itemEnd ∧ next = .value ∨ expected = .entryEnd ∧ next = .key)
    (h : Yields limit rest ⟨next, stack⟩ more) :
    Yields limit (0x2C :: rest) ⟨expected, stack⟩ more := by
  refine yields_token [] .comma [] rfl rfl (by decide) rfl ?_ h
  rcases he with ⟨rfl, rfl⟩ | ⟨rfl, rfl⟩ <;> rfl

theorem yields_colonOctet {stack : List Container} (h : Yields limit rest ⟨.value, stack⟩ more) :
    Yields limit (0x3A :: rest) ⟨.colon, stack⟩ more :=
  yields_token [] .colon [] rfl rfl (by decide) rfl rfl h

theorem scanToken_digit {b : UInt8} (hb : isDigitOctet b = true) (s : List UInt8) :
    scanToken b s =
      match scanMagnitude false (b :: s) with
      | .done n count => .done (.number n) (count - 1)
      | .fault c distance => .fault c (distance - 1)
      | .unfinished => .unfinished := by
  have hbounds : 0x30 ≤ b.toNat ∧ b.toNat ≤ 0x39 := by simpa [isDigitOctet] using hb
  unfold scanToken
  split
  all_goals first
    | omega
    | exact if_pos hb

theorem yields_number (hp : TakesValue p) (hr : StopsNumber rest) {text : List Char} {n : Numeral}
    (hread : ReadsAs text n) {s : Scalar} (hv : n.value limit = .ok s)
    (h : Yields limit rest (.behindValue p.stack) more) :
    Yields limit (encode (withSign n.negative text) ++ rest) p (.scalar s :: more) := by
  have hscan := hread rest hr
  have hadv : advance limit p (.number n) = .ok ([.scalar s], .behindValue p.stack) := by
    rw [advance_value hp (by simp)]
    simp only [valueToken, hv]
  cases hneg : n.negative with
  | true =>
    rw [hneg] at hscan
    have hminus : encode ('-' :: text) = 0x2D :: encode text := rfl
    rw [withSign, if_pos rfl, hminus, List.cons_append]
    refine yields_token _ _ _ rfl rfl (by decide) ?_ hadv h
    change (scanMagnitude true (encode text ++ rest)).map Lexeme.number = _
    rw [hscan]
    rfl
  | false =>
    rw [hneg] at hscan
    obtain ⟨b, bs, he, hb⟩ := hread.head
    have hbounds : 0x30 ≤ b.toNat ∧ b.toNat ≤ 0x39 := by simpa [isDigitOctet] using hb
    have hblank : isBlank b = false := by simp [isBlank]; omega
    have hslash : b ≠ 0x2F := by
      rintro rfl
      exact absurd hbounds.1 (by decide)
    rw [withSign, if_neg (by simp), he, List.cons_append]
    refine yields_token _ _ _ (by simp [startsToken, hb]) hblank hslash ?_ hadv h
    rw [he, List.cons_append] at hscan
    rw [scanToken_digit hb, hscan]
    simp only [List.length_cons, Nat.add_sub_cancel]

/-- A string between quotes is one token. -/
theorem yields_string {text s : List Char} (htext : Spells text s) (es : List Event)
    (hadv : advance limit p (.string (encode s)) = .ok (es, q)) (h : Yields limit rest q more) :
    Yields limit (encode ('"' :: (text ++ ['"'])) ++ rest) p (es ++ more) := by
  have hquotes : encode ('"' :: (text ++ ['"'])) = 0x22 :: (encode text ++ [0x22]) := by
    rw [encode_cons, encode_append]
    rfl
  rw [hquotes, List.cons_append]
  refine yields_token _ _ _ rfl rfl (by decide) ?_ hadv h
  change (scanString _).map Lexeme.string = _
  rw [List.append_assoc, List.singleton_append, htext.scan, List.length_append]
  rfl

theorem encode_blank {c : Char} (hc : isSpace c = true) :
    ∃ b, encodeChar c = [b] ∧ isBlank b = true ∧ isDigitOctet b = false ∧
      b ≠ 0x2E ∧ b ≠ 0x65 ∧ b ≠ 0x45 := by
  have hcases : c = ' ' ∨ c = '\t' ∨ c = '\n' ∨ c = '\r' := by simpa [isSpace, or_assoc] using hc
  rcases hcases with rfl | rfl | rfl | rfl
  · exact ⟨0x20, rfl, by decide⟩
  · exact ⟨0x09, rfl, by decide⟩
  · exact ⟨0x0A, rfl, by decide⟩
  · exact ⟨0x0D, rfl, by decide⟩

theorem yields_blanks {cs : List Char} (hcs : Blanks cs) (h : Yields limit rest p es) :
    Yields limit (encode cs ++ rest) p es := by
  induction cs with
  | nil => exact h
  | cons c cs ih =>
    obtain ⟨b, he, hb, -⟩ := encode_blank (hcs c (by simp))
    rw [encode_cons, he, List.append_assoc, List.singleton_append]
    exact yields_blank hb (ih fun d hd => hcs d (by simp [hd]))

theorem stopsNumber_blanks {cs : List Char} (hcs : Blanks cs) (h : StopsNumber rest) :
    StopsNumber (encode cs ++ rest) := by
  cases cs with
  | nil => exact h
  | cons c cs =>
    obtain ⟨b, he, -, hd, hn⟩ := encode_blank (hcs c (by simp))
    rw [encode_cons, he, List.append_assoc, List.singleton_append]
    exact stopsNumber_cons _ hd hn

end

/-- Integers that are given back: those within the limit. -/
abbrev Readable (limit : Option Nat) : Scalar → Prop :=
  Admitted fun i => limit.any (· < i.natAbs) = false

theorem value_of_readable {limit : Option Nat} {n : Numeral} (h : Readable limit n.scalar) :
    n.value limit = .ok n.scalar := by
  cases hi : n.integral with
  | true =>
    have hscalar : n.scalar =
        .int (if n.negative then -(Decimal.value n.whole : Int) else Decimal.value n.whole) := by
      rw [Numeral.scalar, if_pos hi]
    have hsize : (if n.negative then -(Decimal.value n.whole : Int)
        else Decimal.value n.whole).natAbs = Decimal.value n.whole := by
      split_ifs <;> omega
    have hsmall : limit.any (· < Decimal.value n.whole) = false := by
      rw [hscalar] at h
      rw [← hsize]
      exact h
    simp [Numeral.value, hsmall, hscalar]
  | false =>
    obtain ⟨x, hscalar⟩ : ∃ x, n.scalar = .float x := by
      rw [Numeral.scalar, if_neg (by simp [hi])]
      exact ⟨_, rfl⟩
    rw [hscalar] at h
    obtain ⟨y, rfl⟩ := h
    simp [Numeral.value, hi, hscalar]

/-- What a text of a phrase is read as. In front of it stands what lets the phrase begin, and what
follows it does not go on with a number. -/
def Reads (limit : Option Nat) (text : List Char) : Phrase → Prop
  | .value v | .padded v => IsDocument (Readable limit) v → ∀ {p rest more}, TakesValue p →
      StopsNumber rest → Yields limit rest (.behindValue p.stack) more →
        Yields limit (encode text ++ rest) p (events v ++ more)
  | .items xs => (∀ x ∈ xs, IsDocument (Readable limit) x) → ∀ {expected stack rest more},
      expected = .value ∨ expected = .itemOrEnd → StopsNumber rest →
        Yields limit rest ⟨.itemEnd, .list :: stack⟩ more →
          Yields limit (encode text ++ rest) ⟨expected, .list :: stack⟩ (itemEvents xs ++ more)
  | .entry name v => IsDocument (Readable limit) v → ∀ {expected stack rest more},
      expected = .keyOrEnd ∨ expected = .key → StopsNumber rest →
        Yields limit rest ⟨.entryEnd, .map :: stack⟩ more →
          Yields limit (encode text ++ rest) ⟨expected, .map :: stack⟩
            (.key name :: (events v ++ more))
  | .entries xs => (∀ e ∈ xs, IsDocument (Readable limit) e.2) → ∀ {expected stack rest more},
      expected = .keyOrEnd ∨ expected = .key → StopsNumber rest →
        Yields limit rest ⟨.entryEnd, .map :: stack⟩ more →
          Yields limit (encode text ++ rest) ⟨expected, .map :: stack⟩ (entryEvents xs ++ more)

section

variable {limit : Option Nat} {text : List Char}

theorem reads_literal {s : Scalar} {b : UInt8} (bs : List UInt8) (htext : encode text = b :: bs)
    (hstart : startsToken b = true) (hblank : isBlank b = false) (hslash : b ≠ 0x2F)
    (hscan : ∀ rest, scanToken b (bs ++ rest) = .done (.literal s) bs.length) :
    Reads limit text (.value (.scalar s)) := by
  intro _ p rest more hp _ h
  rw [htext, List.cons_append]
  exact yields_token bs (.literal s) [.scalar s] hstart hblank hslash (hscan rest)
    (advance_value hp (by simp)) h

theorem reads_number {negative : Bool} {n : Numeral} (htext : MagnitudeText negative text n) :
    Reads limit (withSign negative text) (.value (.scalar n.scalar)) := by
  rintro (hs | _) p rest more hp hr h
  rw [← htext.negative_eq]
  exact yields_number hp hr htext.readsAs (value_of_readable hs) h

theorem reads_string {s : List Char} (htext : Spells text s) :
    Reads limit ('"' :: (text ++ ['"'])) (.value (str (String.ofList s))) := by
  intro _ p rest more hp _ h
  refine yields_string htext [.scalar (.str (String.ofList s))] ?_ h
  rw [advance_value hp (by simp)]
  simp only [valueToken, decode?_encode]

/-- Every text of a phrase is read as what the phrase stands for. -/
theorem Spelled.reads {phrase : Phrase} (h : Spelled phrase text) : Reads limit text phrase := by
  have hopenList (s : List Char) : encode ('[' :: s) = 0x5B :: encode s := rfl
  have hopenMap (s : List Char) : encode ('\x7b' :: s) = 0x7B :: encode s := rfl
  have hcomma (s : List Char) : encode (',' :: s) = 0x2C :: encode s := rfl
  induction h with
  | null => exact reads_literal [0x75, 0x6C, 0x6C] rfl rfl rfl (by decide) fun _ => rfl
  | true => exact reads_literal [0x72, 0x75, 0x65] rfl rfl rfl (by decide) fun _ => rfl
  | false =>
    exact reads_literal [0x61, 0x6C, 0x73, 0x65] rfl rfl rfl (by decide) fun _ => rfl
  | number htext => exact reads_number htext
  | string htext => exact reads_string htext
  | noItems hb =>
    intro _ p rest more hp _ h
    rw [hopenList, encode_append, List.cons_append, List.append_assoc]
    exact yields_openList hp (yields_blanks hb (yields_closeList (.inl rfl) h))
  | list _ ih =>
    rintro (_ | hparts) p rest more hp _ h
    rw [hopenList, encode_append, List.cons_append, List.append_assoc]
    simp only [events, List.cons_append, List.append_assoc]
    exact yields_openList hp (ih hparts (.inr rfl) (stopsNumber_cons _ (by decide) (by decide))
      (yields_closeList (.inr rfl) h))
  | noEntries hb =>
    intro _ p rest more hp _ h
    rw [hopenMap, encode_append, List.cons_append, List.append_assoc]
    exact yields_openMap hp (yields_blanks hb (yields_closeMap (.inl rfl) h))
  | map _ ih =>
    rintro (_ | _ | ⟨-, -, hparts⟩) p rest more hp _ h
    rw [hopenMap, encode_append, List.cons_append, List.append_assoc]
    simp only [events, List.cons_append, List.append_assoc]
    exact yields_openMap hp (ih hparts (.inl rfl) (stopsNumber_cons _ (by decide) (by decide))
      (yields_closeMap (.inr rfl) h))
  | padded hb _ hb' ih =>
    intro hv p rest more hp hr h
    rw [encode_append, encode_append, List.append_assoc, List.append_assoc]
    exact yields_blanks hb (ih hv hp (stopsNumber_blanks hb' hr) (yields_blanks hb' h))
  | item _ ih =>
    intro hparts expected stack rest more he hr h
    rw [itemEvents, itemEvents, List.append_nil]
    exact ih (hparts _ (by simp)) he hr h
  | items _ _ ih ihrest =>
    intro hparts expected stack rest more he hr h
    rw [encode_append, hcomma, List.append_assoc, List.cons_append, itemEvents, List.append_assoc]
    have hrest := ihrest (fun x hx => hparts x (by simp [hx])) (.inl rfl) hr h
    exact ih (hparts _ (by simp)) he (stopsNumber_cons _ (by decide) (by decide))
      (yields_comma (.inl ⟨rfl, rfl⟩) hrest)
  | @entry v before name s behind text hb hs hb' _ ih =>
    intro hv expected stack rest more he hr h
    have hvalue := ih hv (p := ⟨.value, .map :: stack⟩) (.inl rfl) hr h
    have hkey : advance limit ⟨expected, .map :: stack⟩ (.string (encode s)) =
        .ok ([.key (String.ofList s)], ⟨.colon, .map :: stack⟩) := by
      rcases he with rfl | rfl <;> simp only [advance, keyToken, decode?_encode]
    have hread := yields_blanks hb (yields_string hs _ hkey
      (yields_blanks hb' (yields_colonOctet hvalue)))
    have hcolon : encode (':' :: text) = 0x3A :: encode text := rfl
    have hempty : encode [] = [] := rfl
    simpa [encode_append, encode_cons, hcolon, hempty] using hread
  | lastEntry _ ih =>
    intro hparts expected stack rest more he hr h
    have hread := ih (hparts _ List.mem_cons_self) he hr h
    simpa [entryEvents, writePlain] using hread
  | entries _ _ ih ihrest =>
    intro hparts expected stack rest more he hr h
    have hrest := ihrest (fun e he => hparts e (by simp [he])) (.inr rfl) hr h
    have hread := ih (hparts _ List.mem_cons_self) he (stopsNumber_cons _ (by decide) (by decide))
      (yields_comma (.inr ⟨rfl, rfl⟩) hrest)
    rw [encode_append, hcomma, List.append_assoc, List.cons_append]
    simpa [entryEvents, writePlain] using hread

end

/-- Each text of a document is read as its events, if its integers stay within the limit. -/
theorem follows_ofLimit (limit : Option Nat) :
    @Reader.Follows (.ofLimit limit) (Readable limit) := by
  intro v text htext hv
  have hy := htext.reads hv (p := .start) (.inl rfl) (stopsNumber_cons [] (by decide) (by decide))
    yields_end
  rw [List.append_nil] at hy
  obtain ⟨ts, hts, hread⟩ := hy 0 (encode text).length
  have hoctets : Reading.ofOctets limit (encode text) = ⟨v.events, none⟩ := by
    simp only [Reading.ofOctets, tokens, hts, hread]
  change Reading.mk (Reading.ofOctets limit (encode text)).events
    ((Reading.ofOctets limit (encode text)).problem.map _) = _
  rw [hoctets]
  rfl

end Exemplar.Json
