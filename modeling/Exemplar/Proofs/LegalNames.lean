import Exemplar.Proofs.KeyNames
import Mathlib.Data.List.DropRight

/-! Legal names. What keys and literals are turned into are identifiers that give way to nothing, also
with a number behind them. None of them has two underscores at both ends, and codes are in upper case
with a letter in front. -/
namespace Exemplar
namespace Identifier

/-- Letters, digits and underscores, with no digit in front. -/
structure IsName (s : String) : Prop where
  word : IsWord s
  front : ∃ c ∈ s.toList.head?, Decimal.isDigit c = false

/-- A name that does not have to give way. -/
structure IsLegal (s : String) : Prop extends IsName s where
  free : isTaken s = false

def takenNames : List String := keywords ++ softKeywords ++ reservedNames

theorem isTaken_iff {s : String} : isTaken s = true ↔ s ∈ takenNames := by
  simp [isTaken, takenNames, or_assoc]

theorem isTaken_eq_false {s : String} : isTaken s = false ↔ s ∉ takenNames := by
  rw [← isTaken_iff, Bool.not_eq_true]

theorem front_sanitize (text : String) :
    ∃ c ∈ (sanitize text).head?, Decimal.isDigit c = false := by
  rw [sanitize]
  split
  · exact ⟨'_', rfl, by decide⟩
  · next c rest _ =>
    split_ifs with hdigit
    · exact ⟨'_', rfl, by decide⟩
    · exact ⟨c, rfl, by simpa using hdigit⟩

theorem isName_sanitize (text : String) : IsName (String.ofList (sanitize text)) where
  word c hc := by
    rw [String.toList_ofList] at hc
    exact isWordChar_of_mem_sanitize hc
  front := by
    rw [String.toList_ofList]
    exact front_sanitize text

/-- Names may go on with what stands in words. -/
theorem IsName.append {s t : String} (hs : IsName s) (ht : IsWord t) : IsName (s ++ t) where
  word := isWord_append hs.word ht
  front := by
    obtain ⟨c, hc, hdigit⟩ := hs.front
    refine ⟨c, ?_, hdigit⟩
    rw [String.toList_append, List.head?_append, Option.mem_def.mp hc]
    rfl

/-- An underscore is enough to be out of the way. -/
theorem free_underscore : ∀ s ∈ takenNames, s ++ "_" ∉ takenNames := by decide +kernel

theorem isLegal_ofText (text : String) : IsLegal (ofText text) := by
  have hname := isName_sanitize text
  rw [ofText]
  split_ifs with htaken
  · refine ⟨hname.append (by simp [IsWord]; decide), ?_⟩
    exact isTaken_eq_false.mpr (free_underscore _ (isTaken_iff.mp htaken))
  · exact ⟨hname, by simpa using htaken⟩

/-- No name that has to give way ends in a digit. -/
theorem last_taken : ∀ s ∈ takenNames, ∀ c ∈ s.toList.getLast?, Decimal.isDigit c = false := by
  have hall : (takenNames.all fun s => !s.toList.getLast?.any Decimal.isDigit) = true := by
    decide +kernel
  intro s hs c hc
  have hlast := List.all_eq_true.mp hall s hs
  simpa [Option.mem_def.mp hc] using hlast

theorem IsName.numbered {name : String} (h : IsName name) (number : Nat) :
    IsLegal (numberedName name number) := by
  have htext := toList_numberedName name number
  refine ⟨⟨isWord_numberedName h.word number, ?_⟩, ?_⟩
  · obtain ⟨c, hc, hdigit⟩ := h.front
    refine ⟨c, ?_, hdigit⟩
    rw [htext, List.head?_append, Option.mem_def.mp hc]
    rfl
  · rw [isTaken_eq_false]
    intro hmem
    have hne := Decimal.digits_ne_nil number
    have hlast : (numberedName name number).toList.getLast? =
        some ((Decimal.digits number).getLast hne) := by
      rw [htext, List.getLast?_append, List.getLast?_cons, List.getLast?_eq_some_getLast hne]
      rfl
    have hdigit := Decimal.isDigit_of_mem_digits (List.getLast_mem hne)
    rw [last_taken _ hmem _ hlast] at hdigit
    cases hdigit

/-- What is stripped of underscores does not start with one. -/
theorem head_stripUnderscores {s : List Char} {c : Char} (h : c ∈ (stripUnderscores s).head?) :
    c ≠ '_' := by
  obtain ⟨rest, hrest⟩ : stripUnderscores s <+: s.dropWhile (· = '_') :=
    List.rdropWhile_prefix (· = '_') _
  have hhead : (s.dropWhile (· = '_')).head? = some c := by
    rw [← hrest, List.head?_append, Option.mem_def.mp h]
    rfl
  simpa [hhead] using List.head?_dropWhile_not (· = '_') s

theorem isDunder_of_head {s : List Char} (h : ∀ c ∈ s.head?, c ≠ '_') : isDunder s = false := by
  cases s with
  | nil => rfl
  | cons c s =>
    have hc : c ≠ '_' := h c rfl
    simp [isDunder, hc.symm]

/-- No sanitised name starts and ends with two underscores. -/
theorem isDunder_sanitize (text : String) : isDunder (sanitize text) = false := by
  have hcore (s : List Char) : isDunder (if isDunder s then stripUnderscores s else s) = false := by
    split_ifs with hdunder
    · exact isDunder_of_head fun c hc => head_stripUnderscores hc
    · simpa using hdunder
  rw [sanitize]
  split
  · rfl
  · next c rest heq =>
    split_ifs with hdigit
    · have hc : c ≠ '_' := by
        rintro rfl
        cases hdigit
      simp [isDunder, hc.symm]
    · rw [← heq]
      exact hcore _

theorem isDunder_ofText (text : String) : isDunder (ofText text).toList = false := by
  have hescaped : ∀ s ∈ takenNames, isDunder (s ++ "_").toList = false := by decide +kernel
  rw [ofText]
  split_ifs with htaken
  · exact hescaped _ (isTaken_iff.mp htaken)
  · rw [String.toList_ofList]
    exact isDunder_sanitize text

theorem isDunder_numberedName (name : String) (number : Nat) :
    isDunder (numberedName name number).toList = false := by
  have hne := Decimal.digits_ne_nil number
  have hlast := Decimal.isDigit_of_mem_digits (List.getLast_mem hne)
  have hc : (Decimal.digits number).getLast hne ≠ '_' := by
    intro heq
    rw [heq] at hlast
    cases hlast
  rw [toList_numberedName, ← List.dropLast_concat_getLast hne, isDunder]
  simp [List.isPrefixOf, hc.symm]

def isSmall (c : Char) : Bool := 'a' ≤ c && c ≤ 'z'

/-- Every name that has to give way has a lower case letter, but for the underscore. -/
theorem small_taken : ∀ s ∈ takenNames, s = "_" ∨ s.toList.any isSmall = true := by decide +kernel

theorem toNat_lt_of_isWordChar {c : Char} (h : isWordChar c = true) : c.toNat < 123 := by
  have hle {d : Char} (h : c ≤ d) : c.toNat ≤ d.toNat := h
  simp only [isWordChar, Decimal.isDigit, Bool.or_eq_true, Bool.and_eq_true, decide_eq_true_eq] at h
  rcases h with ((h | h) | h) | rfl
  · omega
  · exact Nat.lt_of_le_of_lt (hle h.2) (by decide)
  · exact Nat.lt_of_le_of_lt (hle h.2) (by decide)
  · decide

/-- Upper case has no lower case letters, and is as good for names. -/
theorem upper_wordChar {c : Char} (h : isWordChar c = true) :
    isWordChar (upper c) = true ∧ isSmall (upper c) = false ∧
      Decimal.isDigit (upper c) = Decimal.isDigit c := by
  have hall : ∀ n < 123, isWordChar (Char.ofNat n) = true →
      isWordChar (upper (Char.ofNat n)) = true ∧ isSmall (upper (Char.ofNat n)) = false ∧
        Decimal.isDigit (upper (Char.ofNat n)) = Decimal.isDigit (Char.ofNat n) := by
    decide +kernel
  have hc := hall c.toNat (toNat_lt_of_isWordChar h)
  rw [Char.ofNat_toNat] at hc
  exact hc h

def isCapital (c : Char) : Bool := 'A' ≤ c && c ≤ 'Z'

/-- Letters, digits and underscores, with no letter in lower case and a letter in front. -/
structure IsCode (s : String) : Prop where
  word : IsWord s
  large : ∀ c ∈ s.toList, isSmall c = false
  letter : ∃ c ∈ s.toList.head?, isCapital c = true

theorem isCapital_of_wordChar {c : Char} (hword : isWordChar c = true) (hlarge : isSmall c = false)
    (hdigit : Decimal.isDigit c = false) (hne : c ≠ '_') : isCapital c = true := by
  rw [isSmall] at hlarge
  simpa [isWordChar, isCapital, hdigit, hlarge, hne] using hword

theorem not_isDigit_of_isCapital {c : Char} (h : isCapital c = true) : Decimal.isDigit c = false := by
  rw [isCapital, Bool.and_eq_true, decide_eq_true_eq, decide_eq_true_eq] at h
  have hfirst : 'A'.toNat ≤ c.toNat := h.1
  rw [Decimal.isDigit, Bool.and_eq_false_iff]
  exact .inr (decide_eq_false fun hlast => by
    have hlast : c.toNat ≤ '9'.toNat := hlast
    exact absurd (hfirst.trans hlast) (by decide))

theorem isCode_codeOfText (text : String) : IsCode (codeOfText text) := by
  have hall : ∀ c ∈ (sanitize text).map upper, isWordChar c = true ∧ isSmall c = false := by
    intro c hc
    obtain ⟨d, hd, rfl⟩ := List.mem_map.mp hc
    obtain ⟨hword, hlarge, -⟩ := upper_wordChar (isWordChar_of_mem_sanitize hd)
    exact ⟨hword, hlarge⟩
  have hfront : ∃ c ∈ ((sanitize text).map upper).head?, Decimal.isDigit c = false := by
    obtain ⟨c, hc, hdigit⟩ := front_sanitize text
    have hword := isWordChar_of_mem_sanitize (List.mem_of_head? hc)
    refine ⟨upper c, ?_, (upper_wordChar hword).2.2.trans hdigit⟩
    rw [List.head?_map, Option.mem_def.mp hc]
    rfl
  have hcode {cs : List Char} (hcs : ∀ c ∈ cs, isWordChar c = true ∧ isSmall c = false)
      (hletter : ∃ c ∈ cs.head?, isCapital c = true) : IsCode (String.ofList cs) := by
    refine ⟨?_, ?_, ?_⟩
    · rw [IsWord, String.toList_ofList]
      exact fun c hc => (hcs c hc).1
    · rw [String.toList_ofList]
      exact fun c hc => (hcs c hc).2
    · rwa [String.toList_ofList]
  rw [codeOfText]
  split
  · next rest heq =>
    rw [heq] at hall
    exact hcode (List.forall_mem_cons.mpr ⟨by decide, hall⟩) ⟨'V', rfl, by decide⟩
  · next name hother =>
    obtain ⟨c, hc, hdigit⟩ := hfront
    obtain ⟨hword, hlarge⟩ := hall c (List.mem_of_head? hc)
    have hne : c ≠ '_' := by
      rintro rfl
      obtain ⟨rest, hrest⟩ := List.head?_eq_some_iff.mp hc
      exact hother rest hrest
    exact hcode hall ⟨c, hc, isCapital_of_wordChar hword hlarge hdigit hne⟩

/-- Codes give way to nothing: what has to give way has a lower case letter or none at all. -/
theorem IsCode.isLegal {s : String} (h : IsCode s) : IsLegal s := by
  obtain ⟨c, hc, hcapital⟩ := h.letter
  refine ⟨⟨h.word, c, hc, not_isDigit_of_isCapital hcapital⟩, ?_⟩
  rw [isTaken_eq_false]
  intro htaken
  rcases small_taken _ htaken with rfl | hsmall
  · obtain rfl := Option.some.inj hc
    cases hcapital
  · obtain ⟨d, hd, hsmall⟩ := List.any_eq_true.mp hsmall
    rw [h.large d hd] at hsmall
    cases hsmall

theorem isLegal_codeOfText (text : String) : IsLegal (codeOfText text) :=
  (isCode_codeOfText text).isLegal

end Identifier
end Exemplar
