import Exemplar.Proofs.DefinedBy
import Exemplar.Proofs.Tables

/-! What it takes to register a definition, and what is found in a catalogue afterwards. -/
namespace Exemplar.Catalogue
open Inference

/-- A definition as it is registered: it comes behind the one that it replaces. -/
def placed (c : Catalogue) (d : Definition) : Definition :=
  match c.get? d.name with
  | none => d
  | some old => { d.addErrors [collision d old] with edition := old.edition + 1 }

variable {console : Text.Console} {c c' : Catalogue} {d : Definition} {ds : List Definition}
  {source : String}

theorem name_placed (c : Catalogue) (d : Definition) : (c.placed d).name = d.name := by
  unfold placed
  split <;> rfl

theorem source_placed (c : Catalogue) (d : Definition) : (c.placed d).source = d.source := by
  unfold placed
  split <;> rfl

theorem shape_placed (c : Catalogue) (d : Definition) : (c.placed d).shape = d.shape := by
  unfold placed
  split <;> rfl

theorem get?_register (c : Catalogue) (d : Definition) (name : String) :
    (c.register d).get? name = if d.name = name then some (c.placed d) else c.get? name := by
  unfold register placed
  cases c.get? d.name with
  | none => exact Assoc.get?_insert _ _ _ _
  | some old => exact Assoc.get?_insert _ _ _ _

theorem finished_register (c : Catalogue) (d : Definition) :
    (c.register d).finished = c.finished := by
  unfold register
  split <;> rfl

theorem get?_register_ne {name : String} (hname : name ≠ d.name) :
    (c.register d).get? name = c.get? name := by
  rw [get?_register, if_neg hname.symm]

theorem announce_register_ne {e : Definition} (hname : e.name ≠ d.name) :
    (c.register d).announce console e = c.announce console e := by
  rw [announce, announce, get?_register_ne hname]

theorem collision_congr {new new' old old' : Definition} (hname : new'.name = new.name)
    (hsource : new'.source = new.source) (hold : old'.source = old.source) :
    collision new' old' = collision new old := by
  rw [collision, collision, hname, hsource, hold]

theorem announce_iff {c : Catalogue} {d : Definition} : c.announce console d = .ok () ↔
    ∀ old, c.get? d.name = some old →
      console.print s!"[yellow]{(collision d old).message}[/yellow]" = .ok () := by
  rw [announce]
  cases c.get? d.name with
  | none => exact ⟨fun _ => nofun, fun _ => rfl⟩
  | some old => exact ⟨fun h _ hold => Option.some.inj hold ▸ h, fun h => h old rfl⟩

theorem get?_addErrors (c : Catalogue) (space name : String) (errors : List Diagnostic) :
    (c.addErrors space errors).get? name =
      if space = name then (c.get? name).map fun d => d.addErrors errors else c.get? name :=
  Assoc.get?_modify _ _ _ _

theorem addErrors_nil (c : Catalogue) (name : String) : c.addErrors name [] = c := by
  have hnone (d : Definition) : d.addErrors [] = d := by simp [Definition.addErrors]
  have htypes : Assoc.modify c.types name (fun d => d.addErrors []) = c.types := by
    rw [Assoc.modify]
    cases h : Assoc.get? c.types name with
    | none => rfl
    | some d =>
      simp only [hnone]
      exact Assoc.insert_same h
  rw [addErrors, htypes]

/-- A catalogue in the making, of one source only. -/
structure Of (source : String) (c : Catalogue) : Prop where
  unfinished : c.finished = false
  own : ∀ name d, c.get? name = some d → d.source = source

theorem of_empty (source : String) : Of source empty := ⟨rfl, nofun⟩

theorem Of.register (h : Of source c) (hd : d.source = source) : Of source (c.register d) where
  unfinished := (finished_register c d).trans h.unfinished
  own name e he := by
    rw [get?_register] at he
    split at he
    · cases he
      exact (c.source_placed d).trans hd
    · exact h.own name e he

theorem Of.registerAll (h : Of source c) (hds : ∀ d ∈ ds, d.source = source)
    {result : Except Text.Markup.Fault Unit} (hrun : c.registerAll console ds = (result, c')) :
    Of source c' := by
  induction ds generalizing c with
  | nil =>
    cases hrun
    exact h
  | cons d ds ih =>
    obtain ⟨hd, hds⟩ := List.forall_mem_cons.mp hds
    rw [Catalogue.registerAll] at hrun
    split at hrun
    · exact ih (h.register hd) hds hrun
    · cases hrun
      exact h

theorem Of.addErrors (h : Of source c) (name : String) (errors : List Diagnostic) :
    Of source (c.addErrors name errors) where
  unfinished := h.unfinished
  own name' e he := by
    rw [get?_addErrors] at he
    split at he
    · obtain ⟨d, hd, rfl⟩ := Option.map_eq_some_iff.mp he
      exact h.own name' d hd
    · exact h.own name' e he

theorem madeOf_missingRoot (c : Catalogue) (m : Markers) (d : Document) :
    ∀ e ∈ (c.missingRoot? d).toList, MadeOf m d.origin d.name d.sample e := by
  intro e he
  rw [missingRoot?] at he
  split at he
  · cases he
  · rw [Option.toList_some, List.mem_singleton] at he
    rw [he]
    exact ⟨⟨rfl, .inl rfl, rfl, rfl⟩, .inl rfl, nofun⟩

theorem Of.addDocument {d : Document} (h : Of d.origin c) (options : Options)
    {result : Except Text.Markup.Fault Unit} (hrun : c.addDocument options d = (result, c')) :
    Of d.origin c' := by
  have hdefined : ∀ e ∈ d.definitions options, e.source = d.origin := fun e he =>
    (madeBy_definitions options d e he).source
  rw [Catalogue.addDocument] at hrun
  split at hrun
  · next f c₁ hfailed =>
    cases hrun
    exact h.registerAll hdefined hfailed
  · next c₁ hall =>
    have hroot : ∀ e ∈ (c₁.missingRoot? d).toList, e.source = d.origin := fun e he =>
      (c₁.madeOf_missingRoot (d.markers options) d e he).source
    have h₁ := h.registerAll hdefined hall
    split at hrun
    · next f c₂ hfailed =>
      cases hrun
      exact h₁.registerAll hroot hfailed
    · next c₂ hlast =>
      cases hrun
      exact (h₁.registerAll hroot hlast).addErrors d.name d.errors

/-- A document is added when its definitions are registered, and then a root for its diagnostics, if it
has none. -/
theorem addDocument_ok_iff {options : Options} {d : Document} :
    c.addDocument options d = (.ok (), c') ↔
      ∃ c₁ c₂, c.registerAll options.console (d.definitions options) = (.ok (), c₁) ∧
        c₁.registerAll options.console (c₁.missingRoot? d).toList = (.ok (), c₂) ∧
        c₂.addErrors d.name d.errors = c' := by
  rw [Catalogue.addDocument]
  constructor
  · intro h
    split at h
    · cases h
    · next c₁ hall =>
      split at h
      · cases h
      · next c₂ hlast =>
        cases h
        exact ⟨c₁, c₂, hall, hlast, rfl⟩
  · rintro ⟨c₁, c₂, hall, hlast, rfl⟩
    simp only [hall, hlast]

end Exemplar.Catalogue
