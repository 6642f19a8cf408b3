import Exemplar.Proofs.AliasChains

/-! What an alias stands for is what its target stands for. Aliases are followed without asking whether
a name on the way is primitive, so a target that is primitive and an alias as well is the exception. -/
namespace Exemplar.TypeTable

variable {types : TypeTable} {t : Aliases} {s : Surrounding} {a name target last last' : String}
  {seen : List String}

/-- Aliases are followed from a name, past those that were seen, until a name is no alias or was seen.
There is no bound on the steps. -/
inductive Follows (t : Aliases) : List String → String → String → Prop
  | free {seen : List String} {name : String} (free : t.get? (.str name) = none) :
      Follows t seen name name
  | seen {seen : List String} {name : String} (known : name ∈ seen) : Follows t seen name name
  | step {seen : List String} {name target last : String} (new : name ∉ seen)
      (found : t.get? (.str name) = some target) (rest : Follows t (name :: seen) target last) :
      Follows t seen name last

theorem Follows.unique (h : Follows t seen name last) (h' : Follows t seen name last') :
    last = last' := by
  induction h with
  | free free =>
    cases h' with
    | free _ => rfl
    | seen _ => rfl
    | step _ found _ => cases free.symm.trans found
  | seen seen =>
    cases h' with
    | free _ => rfl
    | seen _ => rfl
    | step new _ _ => exact absurd seen new
  | step new found _ ih =>
    cases h' with
    | free free => cases free.symm.trans found
    | seen seen => exact absurd seen new
    | step _ found' rest =>
      obtain rfl := Option.some.inj (found.symm.trans found')
      exact ih rest

/-- As many steps as a table has aliases that were not seen are enough, and one more. -/
theorem follows_chase {steps : Nat} (honce : seen.Nodup)
    (haliases : ∀ x ∈ seen, t.has (.str x) = true) (hsteps : t.length < steps + seen.length) :
    Follows t seen name (chase t seen steps name) := by
  induction steps generalizing seen name with
  | zero =>
    have hle := length_le_of_aliases honce haliases
    omega
  | succ steps ih =>
    rw [chase]
    split
    · next hseen => exact .seen (by simpa using hseen)
    · next hnew =>
      have hnew : name ∉ seen := by simpa using hnew
      split
      · next target found =>
        refine .step hnew found (ih (List.nodup_cons.mpr ⟨hnew, honce⟩) ?_ ?_)
        · exact List.forall_mem_cons.mpr ⟨by rw [Assoc.has, found]; rfl, haliases⟩
        · rw [List.length_cons]
          omega
      · next free => exact .free free

/-- A name leads to one that leads back to itself. -/
def Circles (t : Aliases) (name : String) : Prop :=
  ∃ x target, Leads t name x ∧ t.get? (.str x) = some target ∧ Leads t target x

/-- Aliases are followed to a name that is no alias, unless they lead in a circle. -/
theorem Follows.ends (h : Follows t seen name last) (hcircles : ¬Circles t name)
    (hseen : ∀ x ∈ seen, ∃ target, t.get? (.str x) = some target ∧ Leads t target name) :
    Leads t name last ∧ t.get? (.str last) = none := by
  induction h with
  | @free seen name free => exact ⟨.refl t name, free⟩
  | @seen seen name mem =>
    obtain ⟨target, found, hback⟩ := hseen name mem
    exact absurd ⟨name, target, .refl t name, found, hback⟩ hcircles
  | @step seen name target last new found rest ih =>
    have hfirst : Leads t name target := .step found (.refl t target)
    have hrest := ih (fun ⟨x, y, hto, hx, hback⟩ => hcircles ⟨x, y, .step found hto, hx, hback⟩) ?_
    · exact ⟨.step found hrest.1, hrest.2⟩
    · rintro x hx
      rcases List.mem_cons.mp hx with rfl | hx
      · exact ⟨target, found, .refl t target⟩
      · obtain ⟨y, hy, hto⟩ := hseen x hx
        exact ⟨y, hy, hto.trans hfirst⟩

/-- What leads to a name that is no alias leads in no circle. -/
theorem not_circles_of_leads (h : Leads t name last) (hend : t.get? (.str last) = none) :
    ¬Circles t name := by
  rintro ⟨x, target, ⟨m, hto⟩, found, ⟨k, hback⟩⟩
  obtain ⟨n, h⟩ := h
  obtain ⟨distance, -, hx⟩ := h.passes hend hto
  obtain ⟨less, hless, hx'⟩ := hx.passes hend (.step found hback)
  have := hx.unique hend hx'
  omega

/-- What a name stands for that is no alias: a primitive type, or the type that is looked up. -/
def named? (types : TypeTable) (s : Surrounding) (name : String) : Option TypeRef :=
  match Primitive.ofName? name with
  | some p => some (.primitive p)
  | none => (types.lookup name s).map Definition.ref

theorem classify_of_primitive {p : Primitive} (h : Primitive.ofName? name = some p) :
    types.classify (.str name) s = some (.primitive p) := by
  simp only [classify, classifyName, h]

theorem classify_of_free (hfree : s.aliases.has (.str name) = false) :
    types.classify (.str name) s = types.named? s name := by
  rw [classify, classifyName, named?]
  cases Primitive.ofName? name with
  | some p => rfl
  | none => simp only [hfree, Bool.false_eq_true, if_false]

theorem classify_of_alias (types : TypeTable) (hprimitive : Primitive.ofName? name = none)
    (halias : s.aliases.has (.str name) = true) :
    types.classify (.str name) s = types.named? s (dealias s name) := by
  simp only [classify, classifyName, hprimitive, halias, if_true]
  rfl

/-- A primitive type is named by one name only. -/
theorem named?_ne_primitive (types : TypeTable) (s : Surrounding) {p : Primitive}
    (h : Primitive.ofName? name = some p) (hne : last ≠ name) :
    types.named? s last ≠ some (.primitive p) := by
  have hname {name : String} {p : Primitive} (h : Primitive.ofName? name = some p) : p.name = name := by
    simpa using List.find?_some h
  rw [named?]
  split
  · next q hq =>
    rintro ⟨rfl⟩
    exact hne ((hname hq).symm.trans (hname h))
  · intro hlookup
    obtain ⟨d, -, href⟩ := Option.map_eq_some_iff.mp hlookup
    cases href

/-- Following an alias ends, also in a circle. If it does not lead in a circle, the alias stands for what
its target stands for, as long as the target is not a primitive name and an alias as well: then the
target is the primitive type, and the alias goes on to the end of the chain. -/
theorem classify_target (types : TypeTable) (halias : s.aliases.get? (.str a) = some target)
    (hprimitive : Primitive.ofName? a = none) :
    (∀ last, Follows s.aliases [] a last ↔ dealias s a = last) ∧ (¬Circles s.aliases a →
      (¬((Primitive.ofName? target).isSome ∧ s.aliases.has (.str target)) →
        types.classify (.str a) (some s) = types.classify (.str target) (some s)) ∧
      ∀ p, Primitive.ofName? target = some p → s.aliases.has (.str target) →
        types.classify (.str target) (some s) = some (.primitive p) ∧
        types.classify (.str a) (some s) ≠ some (.primitive p) ∧
        ∃ last, Leads s.aliases target last ∧ s.aliases.get? (.str last) = none ∧
          types.classify (.str a) (some s) = types.named? s last) := by
  have hfollows : Follows s.aliases [] a (dealias s a) :=
    follows_chase List.nodup_nil nofun (by rw [List.length_nil]; omega)
  refine ⟨fun last => ⟨hfollows.unique, fun hlast => hlast ▸ hfollows⟩, fun hcircles => ?_⟩
  obtain ⟨hleads, hfree⟩ := hfollows.ends hcircles nofun
  have hhas : s.aliases.has (.str a) = true := by
    rw [Assoc.has, halias]
    rfl
  have ha := classify_of_alias types hprimitive hhas
  -- the chain of the target is the rest of the chain of the alias
  have hrest : Leads s.aliases target (dealias s a) := by
    obtain ⟨_, hleads⟩ := hleads
    generalize dealias s a = last at hleads hfree
    cases hleads with
    | here => cases hfree.symm.trans halias
    | step found rest =>
      obtain rfl := Option.some.inj (halias.symm.trans found)
      exact ⟨_, rest⟩
  refine ⟨fun hplain => ?same, fun p hp htarget => ⟨classify_of_primitive hp, ?differ, ?goes⟩⟩
  case same =>
    rw [ha]
    by_cases htarget : s.aliases.has (.str target) = true
    · have hnone : Primitive.ofName? target = none :=
        Option.not_isSome_iff_eq_none.mp fun hsome => hplain ⟨hsome, htarget⟩
      rw [classify_of_alias types hnone htarget]
      exact congrArg (types.named? s) (chase_of_leads hrest hfree).symm
    · have htarget : s.aliases.has (.str target) = false := eq_false_of_ne_true htarget
      rw [classify_of_free htarget]
      obtain ⟨_, hrest⟩ := hrest
      generalize dealias s a = last at hrest
      cases hrest with
      | here => rfl
      | step found _ =>
        rw [Assoc.has, found] at htarget
        cases htarget
  case differ =>
    rw [ha]
    refine named?_ne_primitive types s hp fun hsame => ?_
    rw [hsame] at hfree
    rw [Assoc.has, hfree] at htarget
    cases htarget
  case goes => exact ⟨dealias s a, hrest, hfree, ha⟩

/-- A chain of aliases through a name that is registered as a type, and a circle. -/
def chainedAliases : Surrounding where
  name := "N"
  aliases := [(.str "a", "b"), (.str "b", "t"), (.str "c", "d"), (.str "d", "c")]

def chainedTypes : TypeTable :=
  [("b", { name := "b", source := "N", shape := .struct [] [] }),
    ("N.t", { name := "N.t", source := "N", shape := .struct [] [] })]

theorem classify_target_chained :
    chainedAliases.aliases.get? (.str "a") = some "b" ∧ Primitive.ofName? "a" = none ∧
      ¬Circles chainedAliases.aliases "a" ∧
      ¬((Primitive.ofName? "b").isSome ∧ chainedAliases.aliases.has (.str "b")) ∧
      chainedTypes.classify (.str "a") (some chainedAliases) =
        chainedTypes.classify (.str "b") (some chainedAliases) ∧
      chainedTypes.classify (.str "b") (some chainedAliases) = some (.defined "N.t" 0) ∧
      Circles chainedAliases.aliases "c" ∧ Follows chainedAliases.aliases [] "c" "c" := by
  have ha : chainedAliases.aliases.get? (.str "a") = some "b" := by decide +kernel
  have hb : chainedAliases.aliases.get? (.str "b") = some "t" := by decide +kernel
  have hc : chainedAliases.aliases.get? (.str "c") = some "d" := by decide +kernel
  have hd : chainedAliases.aliases.get? (.str "d") = some "c" := by decide +kernel
  have hcircles : ¬Circles chainedAliases.aliases "a" :=
    not_circles_of_leads (.step ha (.step hb (.refl _ "t"))) (by decide +kernel)
  have hplain : ¬((Primitive.ofName? "b").isSome ∧ chainedAliases.aliases.has (.str "b")) := by
    decide +kernel
  have hcircle : Circles chainedAliases.aliases "c" :=
    ⟨"c", "d", .refl _ "c", hc, .step hd (.refl _ "c")⟩
  have hfollows := ((classify_target chainedTypes hc (by decide)).1 "c").mpr (by decide +kernel)
  have hsame := ((classify_target chainedTypes ha (by decide)).2 hcircles).1 hplain
  exact ⟨ha, by decide, hcircles, hplain, hsame, by decide +kernel, hcircle, hfollows⟩

def primitiveAlias : Surrounding where
  name := "N"
  aliases := [(.str "a", "int"), (.str "int", "string")]

/-- The alias goes on behind the primitive name. -/
theorem not_classify_target :
    primitiveAlias.aliases.get? (.str "a") = some "int" ∧ Primitive.ofName? "a" = none ∧
      ¬Circles primitiveAlias.aliases "a" ∧
      TypeTable.classify [] (.str "a") (some primitiveAlias) = some (.primitive .string) ∧
      TypeTable.classify [] (.str "int") (some primitiveAlias) = some (.primitive .int) := by
  have ha : primitiveAlias.aliases.get? (.str "a") = some "int" := by decide +kernel
  have hint : primitiveAlias.aliases.get? (.str "int") = some "string" := by decide +kernel
  refine ⟨ha, by decide, ?_, by decide +kernel, by decide +kernel⟩
  exact not_circles_of_leads (.step ha (.step hint (.refl _ "string"))) (by decide +kernel)

end Exemplar.TypeTable
