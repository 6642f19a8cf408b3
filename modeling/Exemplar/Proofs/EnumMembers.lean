import Exemplar.Proofs.EnumReads
import Exemplar.Proofs.EqualScalars
import Exemplar.Proofs.Tables

/-! Members of an enum of scalars. Codes with equal literals share a member, which has the name of the
first of them, so a scalar means the member that its own code names. -/
namespace Exemplar.EnumClass
open StoreM Store

def valued (codes : List (String × Scalar)) : Assoc String Value :=
  codes.map fun e => (e.1, .scalar e.2)

def firstOnes (before : List (String × Scalar)) : List (String × Scalar) → List (String × Scalar)
  | [] => []
  | e :: rest =>
    if before.any fun b => b.2 == e.2 then firstOnes before rest
    else e :: firstOnes (before ++ [e]) rest

variable {d : Definition} {s : Store} {codes before rest : List (String × Scalar)} {x : Scalar}
  {table : Assoc String Value}

/-- What is equal to a literal is equal to the first one like it. -/
theorem find?_firstOnes (hbefore : ∀ b ∈ before, (b.2 == x) = false) :
    (firstOnes before rest).find? (fun e => e.2 == x) = rest.find? fun e => e.2 == x := by
  induction rest generalizing before with
  | nil => rfl
  | cons e rest ih =>
    rw [firstOnes, List.find?_cons]
    split
    · next hany =>
      obtain ⟨b, hb, hsame⟩ := List.any_eq_true.mp hany
      have hother : (e.2 == x) = false := by
        rw [← Bool.not_eq_true]
        intro hx
        exact Bool.false_ne_true ((hbefore b hb).symm.trans (PartialEquivBEq.trans hsame hx))
      rw [hother]
      exact ih hbefore
    · rw [List.find?_cons]
      cases hx : e.2 == x with
      | true => rfl
      | false =>
        refine ih fun b hb => ?_
        rcases List.mem_append.mp hb with hb | hb
        · exact hbefore b hb
        · rw [List.mem_singleton.mp hb]
          exact hx

theorem means?_scalar (s : Store) (literal x : Scalar) :
    s.means? (.scalar literal) (.scalar x) = some (literal == x) := by
  change s.compareInside (.scalar literal) (.scalar x) = _
  rw [compareInside, Store.compare, compareWithin]
  rfl

theorem run_nameFor? (s : Store) (x : Scalar) (codes : List (String × Scalar)) :
    (nameFor? (.scalar x) (valued codes)).run s =
      (.ok ((codes.find? fun e => e.2 == x).map Prod.fst), s) := by
  induction codes with
  | nil => rfl
  | cons e codes ih =>
    have hmeans : (means (.scalar e.2) (.scalar x)).run s = (.ok (e.2 == x), s) := by
      rw [means, run_bind (run_get s), means?_scalar]
      rfl
    rw [valued, List.map_cons, nameFor?, run_bind hmeans, List.find?_cons]
    cases e.2 == x with
    | true => rfl
    | false => exact ih

/-- The names of members are those of the first codes with their literals. -/
theorem run_nameAll (s : Store) (before : List (String × Scalar))
    (htable : ∀ e ∈ rest, table.get? e.1 = some (.scalar e.2))
    (hcodes : ((before ++ rest).map Prod.fst).Nodup) :
    ∃ names, (nameAll (valued before) (valued rest)).run s = (.ok names, s) ∧
      (names.filterMap fun e => if e.1 == e.2 then (table.get? e.1).map (e.1, ·) else none) =
        valued (firstOnes before rest) := by
  induction rest generalizing before with
  | nil => exact ⟨[], rfl, rfl⟩
  | cons e rest ih =>
    obtain ⟨hown, htable⟩ := List.forall_mem_cons.mp htable
    have hrun := run_nameFor? s e.2 before
    rw [show valued (e :: rest) = (e.1, .scalar e.2) :: valued rest from rfl, nameAll, run_bind hrun,
      firstOnes]
    rw [List.map_append, List.map_cons] at hcodes
    cases hfind : before.find? fun b => b.2 == e.2 with
    | some b =>
      have hany : (before.any fun b => b.2 == e.2) = true :=
        List.any_eq_true.mpr ⟨b, List.mem_of_find?_eq_some hfind,
          List.find?_some (p := fun b : String × Scalar => b.2 == e.2) hfind⟩
      have hother : (e.1 == b.1) = false := by
        have hb := List.mem_map_of_mem (f := Prod.fst) (List.mem_of_find?_eq_some hfind)
        rw [beq_eq_false_iff_ne]
        exact ((List.nodup_append.mp hcodes).2.2 _ hb _ List.mem_cons_self).symm
      obtain ⟨names, hnames, hfirst⟩ := ih before htable (by
        rw [List.map_append]
        exact hcodes.sublist ((List.sublist_cons_self _ _).append_left _))
      refine ⟨(e.1, b.1) :: names, ?_, ?_⟩
      · exact run_bind hnames _
      · rw [List.filterMap_cons, hother, if_pos hany]
        exact hfirst
    | none =>
      have hany : (before.any fun b => b.2 == e.2) = false := by
        rw [← Bool.not_eq_true, List.any_eq_true]
        rintro ⟨b, hb, hsame⟩
        exact (List.find?_eq_none.mp hfind) b hb hsame
      obtain ⟨names, hnames, hfirst⟩ := ih (before ++ [e]) htable (by
        rw [List.append_assoc, List.map_append]
        exact hcodes)
      refine ⟨(e.1, e.1) :: names, ?_, ?_⟩
      · rw [valued, List.map_append] at hnames
        exact run_bind hnames _
      · rw [List.filterMap_cons, beq_self_eq_true, hown, hany, hfirst]
        rfl

theorem run_ofJson_scalar (s : Store) (form : Form) (hx : x ≠ .float .nan) :
    (ofJson form (.scalar x)).run s = (.ok (.scalar x), s) := by
  rw [ofJson]
  cases x with
  | float y =>
    cases y with
    | nan => exact (hx rfl).elim
    | _ => rfl
  | _ => rfl

theorem run_store (s : Store) (linked : Bool) (hnumbers : ∀ e ∈ codes, e.2 ≠ .float .nan) :
    (store (codes.map fun e => (e.1, .scalar e.2)) ⟨linked, none⟩).run s =
      (.ok (codes.map fun e => .scalar e.2), s) := by
  rw [store]
  induction codes with
  | nil => rfl
  | cons e codes ih =>
    obtain ⟨hnumber, hnumbers⟩ := List.forall_mem_cons.mp hnumbers
    rw [List.map_cons, List.mapM_cons, run_bind (run_ofJson_scalar s _ hnumber), run_bind (ih hnumbers)]
    rfl

/-- The class of an enum of scalars is made of its codes. -/
theorem run_names {linked : Bool} (hshape : d.shape = .enum (codes.map fun e => (e.1, .scalar e.2))
      ⟨linked, none⟩) (hcodes : (codes.map Prod.fst).Nodup)
    (hnumbers : ∀ e ∈ codes, e.2 ≠ .float .nan) (hnew : s.enums.get? d.name = none) :
    ∃ names s', (EnumClass.names d).run s = (.ok names, s') ∧
      s'.enums.get? d.name = some ⟨valued codes, some names⟩ ∧
      (names.filterMap fun e =>
        if e.1 == e.2 then ((valued codes).get? e.1).map (e.1, ·) else none) =
          valued (firstOnes [] codes) := by
  have hkeys : Assoc.keys (valued codes) = codes.map Prod.fst := by
    rw [Assoc.keys, valued, List.map_map]
    rfl
  have hcodes' : (Assoc.keys (valued codes)).Nodup := hkeys ▸ hcodes
  have hvalues : (d.values.map Prod.fst).zip (codes.map fun e => Value.scalar e.2) = valued codes := by
    rw [Definition.values, hshape, List.map_map]
    exact List.zip_map'
  let s₁ : Store := { s with enums := s.enums.insert d.name ⟨valued codes, none⟩ }
  have hliterals : (literals d).run s = (.ok (valued codes), s₁) := by
    rw [literals, run_bind (run_get s), hnew, hshape]
    simp only []
    rw [run_bind (run_store s linked hnumbers), hvalues]
    rfl
  have hown : s₁.enums.get? d.name = some ⟨valued codes, none⟩ := by
    rw [Assoc.get?_insert, if_pos rfl]
  have htable : ∀ e ∈ codes, (valued codes).get? e.1 = some (.scalar e.2) := fun e he =>
    Assoc.get?_of_mem hcodes' (List.mem_map_of_mem he)
  obtain ⟨names, hnames, hfirst⟩ := run_nameAll s₁ [] htable hcodes
  refine ⟨names, { s₁ with enums := s₁.enums.insert d.name ⟨valued codes, some names⟩ }, ?_, ?_, hfirst⟩
  · rw [EnumClass.names, run_bind hliterals, run_bind (run_get s₁), hown]
    exact run_bind hnames _
  · rw [Assoc.get?_insert, if_pos rfl]

/-- The member of a scalar is the one that its code names, and it is a bad value if it has no code. -/
theorem run_lookup {linked : Bool} (hshape : d.shape = .enum (codes.map fun e => (e.1, .scalar e.2))
      ⟨linked, none⟩) (hcodes : (codes.map Prod.fst).Nodup)
    (hnumbers : ∀ e ∈ codes, e.2 ≠ .float .nan) (hnew : s.enums.get? d.name = none) (x : Scalar) :
    ((lookup d (.scalar x)).run s).1 = match d.code? (.scalar x) with
      | some code => .ok ⟨d.name, code⟩
      | none => .error .badValue := by
  obtain ⟨names, s', hrun, hmade, hfirst⟩ := run_names hshape hcodes hnumbers hnew
  have hmembers : s'.membersOf d.name = valued (firstOnes [] codes) := by
    rw [membersOf, hmade]
    exact hfirst
  have hcode : d.code? (.scalar x) = (codes.find? fun e => e.2 == x).map Prod.fst := by
    rw [Definition.code?, Definition.values, hshape]
    simp only [List.find?_map, Option.map_map]
    rfl
  rw [lookup, run_bind hrun]
  · rw [run_bind (run_get s'), hmembers, run_bind (run_nameFor? s' x _),
      find?_firstOnes (List.forall_mem_nil _), hcode]
    cases codes.find? fun e => e.2 == x <;> rfl
  · nofun

end Exemplar.EnumClass
