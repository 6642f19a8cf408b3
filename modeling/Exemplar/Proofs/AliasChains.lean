import Exemplar.Proofs.Document
import Exemplar.Schema.Resolution
import Mathlib.Data.List.Perm.Subperm

/-! Chains of aliases. Following an alias ends at the one name that the chain leads to and that is no
alias. Two tables that differ only in how far their entries are followed already end alike. -/
namespace Exemplar.TypeTable
open Json

/-- A name leads to another one by so many aliases of a table. -/
inductive LeadsIn (t : Aliases) : Nat → String → String → Prop
  | here (name : String) : LeadsIn t 0 name name
  | step {n : Nat} {name target last : String} (found : t.get? (.str name) = some target)
      (rest : LeadsIn t n target last) : LeadsIn t (n + 1) name last

/-- A name leads to another one. -/
def Leads (t : Aliases) (name last : String) : Prop := ∃ n, LeadsIn t n name last

/-- What every alias of a table stands for is no alias any more. -/
def Ends (t : Aliases) : Prop :=
  ∀ e ∈ t, t.has (.str (chase t [] (t.length + 1) e.1.plainText)) = false

variable {t : Aliases} {n m : Nat} {name target middle last : String}

theorem LeadsIn.trans (h : LeadsIn t n name middle) (h' : LeadsIn t m middle last) :
    LeadsIn t (n + m) name last := by
  induction h with
  | here name => rwa [Nat.zero_add]
  | @step k name target middle found _ ih =>
    rw [Nat.add_right_comm]
    exact .step found (ih h')

theorem Leads.refl (t : Aliases) (name : String) : Leads t name name := ⟨0, .here name⟩

theorem Leads.trans (h : Leads t name middle) (h' : Leads t middle last) : Leads t name last := by
  obtain ⟨n, h⟩ := h
  obtain ⟨m, h'⟩ := h'
  exact ⟨n + m, h.trans h'⟩

theorem Leads.step (hfound : t.get? (.str name) = some target) (h : Leads t target last) :
    Leads t name last := by
  obtain ⟨n, h⟩ := h
  exact ⟨n + 1, .step hfound h⟩

/-- What is on the first step of a chain leads where the chain does. -/
theorem Leads.behind {known : String} (h : Leads t target last)
    (hfound : t.get? (.str name) = some target) (hknown : known = name ∨ t.get? (.str name) = some known) :
    Leads t known last := by
  rcases hknown with rfl | hknown
  · exact .step hfound h
  · obtain rfl := Option.some.inj (hfound.symm.trans hknown)
    exact h

theorem Leads.mono {s : Aliases} (hsub : ∀ name target, t.get? (.str name) = some target →
    s.get? (.str name) = some target) (h : Leads t name last) : Leads s name last := by
  obtain ⟨n, h⟩ := h
  induction h with
  | here name => exact .refl s name
  | step found _ ih => exact .step (hsub _ _ found) ih

theorem Leads.eq_of_self (hself : t.get? (.str name) = some name) (h : Leads t name last) :
    last = name := by
  obtain ⟨n, h⟩ := h
  induction h with
  | here => rfl
  | step found _ ih =>
    obtain rfl := Option.some.inj (hself.symm.trans found)
    exact ih hself

/-- Where a chain ends, and whatever it passes is as many aliases nearer to the end. -/
theorem LeadsIn.passes (h : LeadsIn t n name last) (hend : t.get? (.str last) = none)
    (h' : LeadsIn t m name middle) : ∃ k, k + m = n ∧ LeadsIn t k middle last := by
  induction h' generalizing n with
  | here name => exact ⟨n, rfl, h⟩
  | @step m name target middle found _ ih =>
    cases h with
    | here =>
      rw [hend] at found
      cases found
    | @step n _ target' _ found' rest =>
      obtain rfl : target' = target := by
        rw [found'] at found
        exact Option.some.inj found
      obtain ⟨k, rfl, hk⟩ := ih rest
      exact ⟨k, rfl, hk⟩

theorem LeadsIn.unique (h : LeadsIn t n name last) (hend : t.get? (.str last) = none)
    (h' : LeadsIn t m name last) : n = m := by
  obtain ⟨k, hk, hrest⟩ := h.passes hend h'
  cases hrest with
  | here => omega
  | step found =>
    rw [hend] at found
    cases found

theorem LeadsIn.passed (h : LeadsIn t n name last) (hend : t.get? (.str last) = none) :
    ∃ names : List String, names.length = n ∧ names.Nodup ∧
      ∀ x ∈ names, t.has (.str x) = true ∧ ∃ k, k ≤ n ∧ LeadsIn t k x last := by
  induction h with
  | here => exact ⟨[], rfl, List.nodup_nil, nofun⟩
  | @step n name target last found rest ih =>
    obtain ⟨names, hlength, hnodup, hnames⟩ := ih hend
    refine ⟨name :: names, by rw [List.length_cons, hlength], List.nodup_cons.mpr ⟨?_, hnodup⟩, ?_⟩
    · intro hmem
      obtain ⟨-, k, hk, hx⟩ := hnames name hmem
      have hdistance : n + 1 = k := (LeadsIn.step found rest).unique hend hx
      omega
    · intro x hx
      rcases List.mem_cons.mp hx with rfl | hx
      · refine ⟨?_, n + 1, Nat.le_refl _, .step found rest⟩
        rw [Assoc.has, found]
        rfl
      · obtain ⟨hhas, k, hk, hx⟩ := hnames x hx
        exact ⟨hhas, k, by omega, hx⟩

theorem str_mem_keys (h : t.has (.str name) = true) : Scalar.str name ∈ t.keys := by
  obtain ⟨target, htarget⟩ := Option.isSome_iff_exists.mp h
  obtain ⟨key, hmem, hkey⟩ := Assoc.get?_mem htarget
  rw [← eq_str_of_same hkey]
  exact List.mem_map_of_mem (f := Prod.fst) hmem

theorem length_le_of_aliases {names : List String} (hnodup : names.Nodup)
    (hnames : ∀ x ∈ names, t.has (.str x) = true) : names.length ≤ t.length := by
  have hkeys : (names.map Scalar.str).Nodup :=
    List.Pairwise.map Scalar.str (fun a b hne hsame => hne (Scalar.str.inj hsame)) hnodup
  have hsub : names.map Scalar.str ⊆ t.keys := by
    intro key hkey
    obtain ⟨x, hx, rfl⟩ := List.mem_map.mp hkey
    exact str_mem_keys (hnames x hx)
  have hle := (hkeys.subperm hsub).length_le
  rwa [List.length_map, Assoc.keys, List.length_map] at hle

theorem LeadsIn.le_length (h : LeadsIn t n name last) (hend : t.get? (.str last) = none) :
    n ≤ t.length := by
  obtain ⟨names, rfl, hnodup, hnames⟩ := h.passed hend
  exact length_le_of_aliases hnodup fun x hx => (hnames x hx).1

theorem chase_of_leadsIn (hend : t.get? (.str last) = none) {steps : Nat} {seen : List String}
    (h : LeadsIn t n name last) (hsteps : n < steps)
    (hseen : ∀ x ∈ seen, ∀ k, LeadsIn t k x last → n < k) : chase t seen steps name = last := by
  induction steps generalizing n name seen with
  | zero => omega
  | succ steps ih =>
    have hnew : seen.contains name = false := by
      rw [List.contains_eq_mem, decide_eq_false_iff_not]
      intro hmem
      exact Nat.lt_irrefl n (hseen name hmem n h)
    rw [chase, hnew]
    cases h with
    | here =>
      rw [hend]
      rfl
    | @step n _ target _ found rest =>
      rw [found]
      refine ih rest (by omega) fun x hx k hk => ?_
      rcases List.mem_cons.mp hx with rfl | hx
      · have hdistance : n + 1 = k := (LeadsIn.step found rest).unique hend hk
        omega
      · have := hseen x hx k hk
        omega

/-- An alias is followed to the end of its chain. -/
theorem chase_of_leads (h : Leads t name last) (hend : t.get? (.str last) = none) :
    chase t [] (t.length + 1) name = last := by
  obtain ⟨n, h⟩ := h
  exact chase_of_leadsIn hend h (Nat.lt_succ_of_le (h.le_length hend)) nofun

theorem leads_chase (t : Aliases) (seen : List String) (steps : Nat) (name : String) :
    Leads t name (chase t seen steps name) := by
  induction steps generalizing seen name with
  | zero => exact .refl t name
  | succ steps ih =>
    rw [chase]
    split
    · exact .refl t name
    · split
      · next target found => exact .step found (ih _ target)
      · exact .refl t name

theorem Ends.leads (h : Ends t) (hhas : t.has (.str name) = true) :
    ∃ last, Leads t name last ∧ t.get? (.str last) = none := by
  obtain ⟨e, he, hkey⟩ := List.mem_map.mp (str_mem_keys hhas)
  have hend := h e he
  rw [hkey] at hend
  refine ⟨_, leads_chase t [] (t.length + 1) name, ?_⟩
  rwa [Assoc.has, Option.isSome_eq_false_iff, Option.isNone_iff_eq_none] at hend

/-- Where all chains end, none leads back. -/
theorem Ends.not_leads_back (h : Ends t) (hsome : t.get? (.str name) = some target)
    (hback : Leads t target name) : False := by
  have hhas : t.has (.str name) = true := by
    rw [Assoc.has, hsome]
    rfl
  obtain ⟨last, ⟨n, hleads⟩, hlast⟩ := h.leads hhas
  obtain ⟨m, hback⟩ := hback
  obtain ⟨k, hk, hrest⟩ := hleads.passes hlast (.step hsome hback)
  have hdistance := hleads.unique hlast hrest
  omega

/-- Two names meet if they lead to one, each in a table of its own. -/
def Meets (t t' : Aliases) (name name' : String) : Prop :=
  ∃ middle, Leads t name middle ∧ Leads t' name' middle

theorem Meets.refl (t t' : Aliases) (name : String) : Meets t t' name name :=
  ⟨name, .refl t name, .refl t' name⟩

/-- Two tables of aliases that meet in two inner tables. -/
structure Beside (inner inner' t t' : Aliases) : Prop where
  own : ∀ name target, inner.get? (.str name) = some target → t.get? (.str name) = some target
  own' : ∀ name target, inner'.get? (.str name) = some target → t'.get? (.str name) = some target
  meets : ∀ name, (t.get? (.str name) = none ∧ t'.get? (.str name) = none) ∨
    ∃ target target', t.get? (.str name) = some target ∧ t'.get? (.str name) = some target' ∧
      Meets inner inner' target target'

variable {inner inner' t' : Aliases} {name' : String}

theorem Beside.has_eq (h : Beside inner inner' t t') (name : String) :
    t'.has (.str name) = t.has (.str name) := by
  rw [Assoc.has, Assoc.has]
  rcases h.meets name with ⟨hnone, hnone'⟩ | ⟨target, target', hsome, hsome', -⟩
  · rw [hnone, hnone']
  · rw [hsome, hsome']
    rfl

/-- Names that meet end alike. -/
theorem Beside.leads (h : Beside inner inner' t t') (hlast : t.get? (.str last) = none)
    (hleads : LeadsIn t n name last) (hmeets : Meets inner inner' name name') :
    Leads t' name' last := by
  -- On the distance from the end: behind the place where the names meet, both tables go on with names
  -- that meet again.
  induction n using Nat.strongRecOn generalizing name name' with
  | _ n ih =>
    obtain ⟨middle, hto, hto'⟩ := hmeets
    obtain ⟨m, hto⟩ := hto.mono h.own
    obtain ⟨k, hk, hrest⟩ := hleads.passes hlast hto
    refine (hto'.mono h.own').trans ?_
    cases hrest with
    | here => exact .refl t' _
    | @step k _ target _ found rest =>
      rcases h.meets middle with ⟨hnone, -⟩ | ⟨_, target', hsome, hsome', htarget⟩
      · rw [hnone] at found
        cases found
      · rw [hsome] at found
        cases found
        exact .step hsome' (ih k (by omega) rest htarget)

/-- The aliases of two tables stand for the same names. -/
structure Agree (t t' : Aliases) : Prop where
  has : ∀ name, t'.has (.str name) = t.has (.str name)
  chase : ∀ name, t.has (.str name) = true →
    TypeTable.chase t' [] (t'.length + 1) name = TypeTable.chase t [] (t.length + 1) name

theorem Agree.refl (t : Aliases) : Agree t t := ⟨fun _ => rfl, fun _ _ => rfl⟩

theorem Beside.agree (h : Beside inner inner' t t') (hends : Ends t) : Agree t t' where
  has := h.has_eq
  chase name hhas := by
    obtain ⟨last, hleads, hlast⟩ := hends.leads hhas
    rw [chase_of_leads hleads hlast]
    obtain ⟨n, hleads⟩ := hleads
    have hlast' : t'.get? (.str last) = none := by
      have hhas' := h.has_eq last
      rw [Assoc.has, Assoc.has, hlast] at hhas'
      exact Option.isNone_iff_eq_none.mp (Option.isSome_eq_false_iff.mp hhas')
    exact chase_of_leads (h.leads hlast hleads (.refl inner inner' name)) hlast'

end Exemplar.TypeTable
