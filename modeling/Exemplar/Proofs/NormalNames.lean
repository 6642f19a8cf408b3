import Exemplar.Proofs.LegalNames

/-! Normal names. Whatever text a name is made from, making a name from it again leaves it alone. The
names that are left alone are exactly the legal ones without two underscores at both ends, and the
codes that are left alone are exactly those in upper case with a letter in front. -/
namespace Exemplar.Identifier
open Text

/-- More than four characters, with two underscores in front and two at the end. -/
def IsDunderName (s : String) : Prop :=
  4 < s.length ∧ ['_', '_'] <+: s.toList ∧ ['_', '_'] <:+ s.toList

/-- An identifier that is no keyword, no reserved name and no dunder name. -/
structure IsNormal (s : String) : Prop extends IsName s where
  keyword : s ∉ keywords
  soft : s ∉ softKeywords
  reserved : s ∉ reservedNames
  dunder : ¬IsDunderName s

theorem isDunder_iff (s : String) : isDunder s.toList = true ↔ IsDunderName s := by
  have hend : ['_', '_'] <+: s.toList.reverse ↔ ['_', '_'] <:+ s.toList :=
    @List.reverse_prefix Char ['_', '_'] s.toList
  rw [isDunder, IsDunderName, Bool.and_eq_true, Bool.and_eq_true, decide_eq_true_eq,
    List.isPrefixOf_iff_prefix, List.isPrefixOf_iff_prefix, hend, String.length_toList, and_assoc]

theorem isNormal_iff {s : String} : IsNormal s ↔ IsLegal s ∧ isDunder s.toList = false := by
  constructor
  · intro h
    refine ⟨⟨h.toIsName, isTaken_eq_false.mpr ?_⟩, ?_⟩
    · rw [takenNames, List.mem_append, List.mem_append, not_or, not_or]
      exact ⟨⟨h.keyword, h.soft⟩, h.reserved⟩
    · rw [← Bool.not_eq_true, isDunder_iff]
      exact h.dunder
  · rintro ⟨hlegal, hdunder⟩
    have hfree := isTaken_eq_false.mp hlegal.free
    rw [takenNames, List.mem_append, List.mem_append, not_or, not_or] at hfree
    obtain ⟨⟨hkeyword, hsoft⟩, hreserved⟩ := hfree
    refine ⟨hlegal.toIsName, hkeyword, hsoft, hreserved, ?_⟩
    rwa [← isDunder_iff, Bool.not_eq_true]

theorem isNormal_ofText (text : String) : IsNormal (ofText text) :=
  isNormal_iff.mpr ⟨isLegal_ofText text, isDunder_ofText text⟩

/-- Decomposition leaves ASCII as it is. -/
theorem asciiResidue_ascii {s : List Char} (h : ∀ c ∈ s, c.toNat < 0x80) : asciiResidue s = s := by
  induction s with
  | nil => rfl
  | cons c s ih =>
    obtain ⟨hfirst, hrest⟩ := List.forall_mem_cons.mp h
    have hresidue : residue c = [c] := if_pos hfirst
    rw [asciiResidue, List.flatMap_cons, hresidue, ← asciiResidue, ih hrest]
    rfl

theorem asciiResidue_word {s : String} (h : IsWord s) : asciiResidue s.toList = s.toList :=
  asciiResidue_ascii fun c hc => (toNat_lt_of_isWordChar (h c hc)).trans (by decide)

/-- An identifier without two underscores at both ends has nothing to be replaced, to be stripped or to
be put in front. -/
theorem sanitize_name {s : String} (h : IsName s) (hdunder : isDunder s.toList = false) :
    sanitize s = s.toList := by
  have hkept : (s.toList.map fun c => if isWordChar c then c else '_') = s.toList := by
    conv_rhs => rw [← List.map_id s.toList]
    exact List.map_congr_left fun c hc => if_pos (h.word c hc)
  obtain ⟨c, hc, hdigit⟩ := h.front
  obtain ⟨rest, hrest⟩ := List.head?_eq_some_iff.mp hc
  rw [sanitize, asciiResidue_word h.word, hkept, hdunder]
  simp only [hrest, hdigit, Bool.false_eq_true, if_false]

/-- The names that are left alone are the normal ones. -/
theorem ofText_eq_self_iff {s : String} : ofText s = s ↔ IsNormal s := by
  constructor
  · intro h
    rw [← h]
    exact isNormal_ofText s
  · intro h
    obtain ⟨hlegal, hdunder⟩ := isNormal_iff.mp h
    rw [ofText, sanitize_name h.toIsName hdunder, String.ofList_toList, hlegal.free,
      if_neg Bool.false_ne_true]

/-- The codes that are left alone are those in upper case with a letter in front. -/
theorem codeOfText_eq_self_iff {s : String} : codeOfText s = s ↔ IsCode s := by
  constructor
  · intro h
    rw [← h]
    exact isCode_codeOfText s
  · intro h
    obtain ⟨first, hfirst, hcapital⟩ := h.letter
    have hhead : ∀ c ∈ s.toList.head?, c ≠ '_' := by
      rintro c hc rfl
      obtain rfl := Option.some.inj (hc.symm.trans hfirst)
      cases hcapital
    have hupper : s.toList.map upper = s.toList := by
      conv_rhs => rw [← List.map_id s.toList]
      refine List.map_congr_left fun c hc => if_neg ?_
      rw [← isSmall, h.large c hc]
      exact Bool.false_ne_true
    rw [codeOfText, sanitize_name h.isLegal.toIsName (isDunder_of_head hhead), hupper]
    split
    · next rest heq => exact (hhead '_' (by rw [heq]; rfl) rfl).elim
    · exact String.ofList_toList

/-- Names are made in one go: what a text is turned into is a normal name, and such names are left
alone. What a literal is turned into is a code, and codes are left alone. -/
theorem names_normal (text : String) :
    (IsNormal (ofText text) ∧ ofText (ofText text) = ofText text ∧
      (ofText text = text ↔ IsNormal text)) ∧
    IsCode (codeOfText text) ∧ (codeOfText text = text ↔ IsCode text) :=
  ⟨⟨isNormal_ofText text, ofText_eq_self_iff.mpr (isNormal_ofText text), ofText_eq_self_iff⟩,
    isCode_codeOfText text, codeOfText_eq_self_iff⟩

/-- What is stripped of its underscores can still be a keyword or start with a digit. -/
example : ofText "__class__" = "class_" ∧ ofText "__1st__" = "_1st" ∧ ofText "_____" = "__" := by
  decide +kernel

end Exemplar.Identifier
