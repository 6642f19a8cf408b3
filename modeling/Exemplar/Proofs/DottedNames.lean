import Exemplar.Name
import Exemplar.Proofs.KeyNames

/-! Dotted names. What lies within different members of a namespace has different names. -/
namespace Exemplar.Name
open Identifier

/-- A name is that of a namespace or lies in it. -/
def Inside (space name : String) : Prop := name = space ∨ ∃ rest, name = member space rest

theorem toList_member (space segment : String) :
    (member space segment).toList = space.toList ++ '.' :: segment.toList := by
  simp [member, String.toList_append]

theorem member_ne (space segment : String) : member space segment ≠ space := by
  intro h
  have h := congrArg String.toList h
  rw [toList_member] at h
  simpa using congrArg List.length h

theorem member_member (space segment rest : String) :
    member (member space segment) rest = member space (member segment rest) := by
  simp [member, String.append_assoc]

/-- A name without a dot is its own segment; every other one is a member of its namespace. -/
theorem segment_cases (name : String) :
    (namespaceOf name = "" ∧ Name.segment name = name) ∨
      member (namespaceOf name) (Name.segment name) = name := by
  have hparts := List.takeWhile_append_dropWhile (p := (· ≠ '.')) (l := name.toList.reverse)
  cases hrest : name.toList.reverse.dropWhile (· ≠ '.') with
  | nil =>
    rw [hrest, List.append_nil] at hparts
    refine .inl ⟨by rw [namespaceOf, hrest]; rfl, ?_⟩
    rw [Name.segment, hparts, List.reverse_reverse, String.ofList_toList]
  | cons c rest =>
    have hdot : c = '.' := by
      have hhead := List.head?_dropWhile_not (· ≠ '.') name.toList.reverse
      rw [hrest] at hhead
      simpa using hhead
    rw [hrest, hdot] at hparts
    have hname := congrArg List.reverse hparts
    rw [List.reverse_reverse, List.reverse_append, List.reverse_cons, List.append_assoc] at hname
    right
    rw [← String.toList_inj, toList_member, namespaceOf, Name.segment, hrest, String.toList_ofList,
      String.toList_ofList]
    exact hname

theorem member_segment {name : String} (h : namespaceOf name ≠ "") :
    member (namespaceOf name) (Name.segment name) = name := by
  rcases segment_cases name with ⟨hempty, -⟩ | hmember
  · exact (h hempty).elim
  · exact hmember

/-- What lies within a member of a namespace lies below the namespace. -/
theorem Inside.of_member {space segment name : String} (h : Inside (member space segment) name) :
    ∃ rest, name = member space rest := by
  rcases h with rfl | ⟨rest, rfl⟩
  · exact ⟨segment, rfl⟩
  · exact ⟨member segment rest, member_member space segment rest⟩

theorem not_inside_member (space segment : String) : ¬Inside (member space segment) space := by
  intro h
  obtain ⟨rest, hrest⟩ := h.of_member
  exact member_ne space rest hrest.symm

theorem ne_dot_of_isWord {s : String} (h : IsWord s) {c : Char} (hc : c ∈ s.toList) : c ≠ '.' := by
  rintro rfl
  exact absurd (h '.' hc) (by decide)

theorem takeWhile_segment {s : List Char} (hs : ∀ c ∈ s, c ≠ '.') (rest : List Char) :
    (s ++ '.' :: rest).takeWhile (· ≠ '.') = s ∧ s.takeWhile (· ≠ '.') = s := by
  have hall : ∀ c ∈ s, decide (c ≠ '.') = true := fun c hc => decide_eq_true (hs c hc)
  constructor
  · rw [List.takeWhile_append_of_pos hall]
    simp
  · have hend : (s ++ []).takeWhile (· ≠ '.') = s ++ [].takeWhile (· ≠ '.') :=
      List.takeWhile_append_of_pos hall
    rwa [List.append_nil, List.takeWhile_nil, List.append_nil] at hend

/-- The segment below a namespace can be told from every name within the member. -/
theorem segment_of_inside {space segment name : String} (hs : IsWord segment)
    (h : Inside (member space segment) name) :
    (name.toList.drop (space.toList.length + 1)).takeWhile (· ≠ '.') = segment.toList := by
  have hdrop (tail : List Char) :
      (space.toList ++ '.' :: tail).drop (space.toList.length + 1) = tail := by
    rw [← List.drop_drop, List.drop_left]
    rfl
  have hsegment := takeWhile_segment fun c hc => ne_dot_of_isWord hs hc
  rcases h with rfl | ⟨rest, rfl⟩
  · rw [toList_member, hdrop]
    exact (hsegment []).2
  · rw [member_member, toList_member, hdrop, toList_member]
    exact (hsegment rest.toList).1

/-- Nothing lies within two members of a namespace. -/
theorem segment_unique {space p q name : String} (hp : IsWord p) (hq : IsWord q)
    (hin : Inside (member space p) name) (hin' : Inside (member space q) name) : p = q := by
  rw [← String.toList_inj, ← segment_of_inside hp hin, ← segment_of_inside hq hin']

/-- What lies in a name begins with the name and a dot, if it is closed by one. -/
theorem inside_iff_closed {space name : String} :
    Inside space name ↔ space.toList ++ ['.'] <+: name.toList ++ ['.'] := by
  constructor
  · rintro (rfl | ⟨rest, rfl⟩)
    · exact List.prefix_rfl
    · rw [toList_member, List.append_assoc, List.cons_append]
      exact ⟨rest.toList ++ ['.'], by simp⟩
  · intro h
    rcases List.prefix_concat_iff.mp h with hsame | ⟨rest, hrest⟩
    · exact .inl (String.toList_inj.mp (List.append_inj_left' hsame rfl)).symm
    · refine .inr ⟨String.ofList rest, ?_⟩
      rw [← String.toList_inj, toList_member, String.toList_ofList, ← hrest, List.append_assoc]
      rfl

theorem Inside.trans {a b c : String} (h : Inside a b) (h' : Inside b c) :
    Inside a c :=
  inside_iff_closed.mpr ((inside_iff_closed.mp h).trans (inside_iff_closed.mp h'))

instance (space name : String) : Decidable (Inside space name) :=
  decidable_of_iff _ inside_iff_closed.symm

/-- Neither of two names lies in the other. -/
def Unrelated (a b : String) : Prop := ¬Inside a b ∧ ¬Inside b a

instance (a b : String) : Decidable (Unrelated a b) := instDecidableAnd

theorem Unrelated.symm {a b : String} (h : Unrelated a b) : Unrelated b a := ⟨h.2, h.1⟩

/-- Nothing lies within two unrelated names. -/
theorem Unrelated.not_inside {a b name : String} (h : Unrelated a b) (ha : Inside a name) :
    ¬Inside b name := by
  intro hb
  rcases List.prefix_or_prefix_of_prefix (inside_iff_closed.mp ha) (inside_iff_closed.mp hb) with
    hab | hba
  · exact h.1 (inside_iff_closed.mpr hab)
  · exact h.2 (inside_iff_closed.mpr hba)

end Exemplar.Name
