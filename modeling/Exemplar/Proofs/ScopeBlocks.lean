import Exemplar.Proofs.AliasScopes

/-! Blocks of scopes. Whatever is done to a scope, none of its tables has two aliases that compare
equal; and a block that is entered, filled and left leaves the scope behind as it was. -/
namespace Exemplar
namespace AliasScope

/-- What can be done to a scope. A block is entered with a table, which is made from its entries. -/
inductive Step where
  | push (entries : List (Scalar × String))
  | declare (a : Scalar) (name : String)
  | pop

/-- The scope after a step. Outside of all blocks nothing can be declared and no block be left. -/
def step? (s : AliasScope) : Step → Option AliasScope
  | .push entries => some (s.push (Assoc.ofEntries entries))
  | .declare a name => s.declare? a name
  | .pop => s.pop?.map Prod.snd

def run? (s : AliasScope) (steps : List Step) : Option AliasScope := steps.foldlM step? s

/-- What can stand inside a block: declarations and other blocks. -/
inductive Inside : List Step → Prop
  | nil : Inside []
  | declare (a : Scalar) (name : String) {rest : List Step} (after : Inside rest) :
      Inside (.declare a name :: rest)
  | block (entries : List (Scalar × String)) {inner rest : List Step} (within : Inside inner)
      (after : Inside rest) : Inside (.push entries :: (inner ++ .pop :: rest))

/-- A block: it is entered, and what stands inside is followed by leaving it. -/
inductive IsBlock : List Step → Prop
  | of (entries : List (Scalar × String)) {inner : List Step} (within : Inside inner) :
      IsBlock (.push entries :: (inner ++ [.pop]))

variable {s s' : AliasScope} {steps : List Step}

theorem run?_append (s : AliasScope) (steps later : List Step) :
    s.run? (steps ++ later) = (s.run? steps).bind fun s => s.run? later :=
  List.foldlM_append

theorem apart_empty : empty.Apart := nofun

/-- Every step keeps the aliases of each table different. -/
theorem Apart.of_step (h : s.Apart) {step : Step} (hstep : s.step? step = some s') : s'.Apart := by
  obtain ⟨tables⟩ := s
  cases step with
  | push entries =>
    obtain rfl := Option.some.inj hstep
    exact List.forall_mem_cons.mpr ⟨Assoc.pairwise_ofEntries entries, h⟩
  | declare a name =>
    cases tables with
    | nil => cases hstep
    | cons t tables =>
      obtain ⟨hfirst, hrest⟩ := List.forall_mem_cons.mp h
      obtain rfl := Option.some.inj hstep
      exact List.forall_mem_cons.mpr ⟨Assoc.pairwise_insert hfirst a name, hrest⟩
  | pop =>
    cases tables with
    | nil => cases hstep
    | cons t tables =>
      obtain rfl := Option.some.inj hstep
      exact (List.forall_mem_cons.mp h).2

theorem Apart.of_run (h : s.Apart) (hrun : s.run? steps = some s') : s'.Apart := by
  induction steps generalizing s with
  | nil =>
    obtain rfl := Option.some.inj hrun
    exact h
  | cons step steps ih =>
    obtain ⟨middle, hstep, hrest⟩ := Option.bind_eq_some_iff.mp hrun
    exact ih (h.of_step hstep) hrest

/-- What stands inside a block changes the table of the block and nothing else. -/
theorem Inside.exists_run (h : Inside steps) (s : AliasScope) (t : Aliases) :
    ∃ t', (s.push t).run? steps = some (s.push t') := by
  induction h generalizing s t with
  | nil => exact ⟨t, rfl⟩
  | declare a name _ ih => exact ih s (t.insert a name)
  | @block entries inner rest _ _ ihinner ihrest =>
    obtain ⟨left, hinner⟩ := ihinner (s.push t) (Assoc.ofEntries entries)
    obtain ⟨t', hrest⟩ := ihrest s t
    refine ⟨t', ?_⟩
    calc (s.push t).run? (.push entries :: (inner ++ .pop :: rest))
        = ((s.push t).push (Assoc.ofEntries entries)).run? (inner ++ .pop :: rest) := rfl
      _ = ((s.push t).push left).run? (.pop :: rest) := by rw [run?_append, hinner]; rfl
      _ = (s.push t).run? rest := rfl
      _ = some (s.push t') := hrest

/-- A block leaves the scope as it was. -/
theorem IsBlock.run (h : IsBlock steps) (s : AliasScope) : s.run? steps = some s := by
  cases h with
  | @of entries inner within =>
    obtain ⟨left, hinner⟩ := within.exists_run s (Assoc.ofEntries entries)
    calc s.run? (.push entries :: (inner ++ [.pop]))
        = (s.push (Assoc.ofEntries entries)).run? (inner ++ [.pop]) := rfl
      _ = (s.push left).run? [.pop] := by rw [run?_append, hinner]; rfl
      _ = some s := rfl

theorem Inside.append {later : List Step} (h : Inside steps) (hlater : Inside later) :
    Inside (steps ++ later) := by
  induction h with
  | nil => exact hlater
  | declare a name _ ih => exact .declare a name ih
  | block entries within _ _ ih =>
    rw [List.cons_append, List.append_assoc, List.cons_append]
    exact .block entries within ih

/-- Blocks one after the other can stand inside a block. -/
theorem inside_flatten {blocks : List (List Step)} (h : ∀ b ∈ blocks, IsBlock b) :
    Inside blocks.flatten := by
  induction blocks with
  | nil => exact .nil
  | cons b blocks ih =>
    obtain ⟨⟨entries, within⟩, hrest⟩ := List.forall_mem_cons.mp h
    rw [List.flatten_cons, List.cons_append, List.append_assoc]
    exact .block entries within (ih hrest)

end AliasScope
end Exemplar
