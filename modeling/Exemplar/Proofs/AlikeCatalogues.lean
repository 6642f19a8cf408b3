import Exemplar.Proofs.RegistrationHistory
import Exemplar.Proofs.SameNames

/-! Catalogues that are alike under each name. What stands under a name only depends on what was
registered under it, in which order the names come makes no difference. -/
namespace Exemplar
open Inference

namespace Catalogue

variable {console : Text.Console} {options : Options} {c c' c₁ : Catalogue} {d d' : Definition}
  {ds ds' : List Definition} {old old' : Option Definition} {q : String → Aliases → Aliases → Prop}

def behind (old : Option Definition) (d : Definition) : Definition :=
  match old with
  | none => d
  | some old => { d.addErrors [collision d old] with edition := old.edition + 1 }

/-- What is under a name when definitions of the name are registered. -/
def lastOver (old : Option Definition) (ds : List Definition) : Option Definition :=
  ds.foldl (fun old d => some (behind old d)) old

/-- Each of some definitions of one name can be announced. -/
def Announced (console : Text.Console) (old : Option Definition) : List Definition → Prop
  | [] => True
  | d :: ds => (∀ x, old = some x →
      console.print s!"[yellow]{(collision d x).message}[/yellow]" = .ok ()) ∧
    Announced console (some (behind old d)) ds

theorem get?_register_behind (c : Catalogue) (d : Definition) (name : String) :
    (c.register d).get? name =
      if d.name = name then some (behind (c.get? name) d) else c.get? name := by
  rw [get?_register]
  split
  · next hname =>
    subst hname
    rfl
  · rfl

/-- What is under a name only depends on what was registered under it. -/
theorem get?_foldl_register (c : Catalogue) (ds : List Definition) (name : String) :
    (ds.foldl register c).get? name = lastOver (c.get? name) (ds.filter fun d => d.name = name) := by
  induction ds generalizing c with
  | nil => rfl
  | cons d ds ih =>
    rw [List.foldl_cons, ih, get?_register_behind, List.filter_cons]
    by_cases hname : d.name = name
    · simp only [hname, decide_true, if_true]
      rfl
    · simp only [hname, decide_false, if_false, Bool.false_eq_true]

theorem registerAll_ok_iff : (c.registerAll console ds).1 = .ok () ↔
    ∀ name, Announced console (c.get? name) (ds.filter fun d => d.name = name) := by
  induction ds generalizing c with
  | nil => exact ⟨fun _ _ => trivial, fun _ => rfl⟩
  | cons d ds ih =>
    have hfirst : c.announce console d = .ok () ↔ ∀ x, c.get? d.name = some x →
        console.print s!"[yellow]{(collision d x).message}[/yellow]" = .ok () := announce_iff
    rw [registerAll]
    constructor
    · intro h name
      cases hannounce : c.announce console d with
      | error f =>
        rw [hannounce] at h
        cases h
      | ok =>
        rw [hannounce] at h
        have hrest := ih.mp h name
        rw [get?_register_behind] at hrest
        rw [List.filter_cons]
        by_cases hname : d.name = name
        · subst hname
          simp only [decide_true, if_true] at hrest ⊢
          exact ⟨hfirst.mp hannounce, hrest⟩
        · simp only [hname, decide_false, if_false, Bool.false_eq_true] at hrest ⊢
          exact hrest
    · intro h
      have hown := h d.name
      rw [List.filter_cons] at hown
      simp only [decide_true, if_true] at hown
      rw [hfirst.mpr hown.1]
      refine ih.mpr fun name => ?_
      have hname := h name
      rw [List.filter_cons] at hname
      rw [get?_register_behind]
      by_cases hsame : d.name = name
      · simp only [hsame, decide_true, if_true] at hname ⊢
        exact hname.2
      · simp only [hsame, decide_false, if_false, Bool.false_eq_true] at hname ⊢
        exact hname

theorem behind_alike (hold : Option.Rel (Definition.Alike q) old old') (hd : d.Alike q d') :
    (behind old d).Alike q (behind old' d') := by
  cases hold with
  | none => exact hd
  | @some x x' hx =>
    have hcollision := collision_congr hd.name hd.source hx.source
    refine ⟨hd.name, hd.source, ?_, ?_, hd.shape⟩
    · simp only [behind, hx.edition]
    · simp only [behind, Definition.addErrors, hcollision, hd.errors]

theorem lastOver_alike (hold : Option.Rel (Definition.Alike q) old old')
    (hds : List.Forall₂ (Definition.Alike q) ds ds') :
    Option.Rel (Definition.Alike q) (lastOver old ds) (lastOver old' ds') := by
  induction hds generalizing old old' with
  | nil => exact hold
  | cons hd _ ih => exact ih (.some (behind_alike hold hd))

theorem Announced.alike (h : Announced console old ds)
    (hold : Option.Rel (Definition.Alike q) old old')
    (hds : List.Forall₂ (Definition.Alike q) ds ds') : Announced console old' ds' := by
  induction hds generalizing old old' with
  | nil => trivial
  | @cons d d' ds ds' hd _ ih =>
    obtain ⟨hfirst, hrest⟩ := h
    refine ⟨fun x' hx' => ?_, ih hrest (.some (behind_alike hold hd))⟩
    subst hx'
    cases hold with
    | @some x _ hx =>
      rw [collision_congr hd.name hd.source hx.source]
      exact hfirst x rfl

/-- Catalogues with definitions that are alike under each name. -/
def AlikeByName (q : String → Aliases → Aliases → Prop) (c c' : Catalogue) : Prop :=
  ∀ name, Option.Rel (Definition.Alike q) (c.get? name) (c'.get? name)

theorem AlikeByName.get? (h : c.AlikeByName q c') (name : String) :
    c.get? name = none ∧ c'.get? name = none ∨
      ∃ d d', c.get? name = some d ∧ c'.get? name = some d' ∧ d.Alike q d' := by
  have hname := h name
  generalize c.get? name = found at hname
  generalize c'.get? name = found' at hname
  cases hname with
  | none => exact .inl ⟨rfl, rfl⟩
  | some hd => exact .inr ⟨_, _, rfl, rfl, hd⟩

theorem AlikeByName.registerAll (h : c.AlikeByName q c') (hds : Inference.AlikeByName q ds ds')
    (hrun : c.registerAll console ds = (.ok (), c₁)) :
    ∃ c₁', c'.registerAll console ds' = (.ok (), c₁') ∧ c₁.AlikeByName q c₁' := by
  have hok : (c'.registerAll console ds').1 = .ok () := by
    have hfirst : (c.registerAll console ds).1 = .ok () := by rw [hrun]
    rw [registerAll_ok_iff] at hfirst ⊢
    exact fun name => (hfirst name).alike (h name) (hds name)
  obtain ⟨c₁', hrun'⟩ : ∃ c₁', c'.registerAll console ds' = (.ok (), c₁') := ⟨_, Prod.ext hok rfl⟩
  refine ⟨c₁', hrun', fun name => ?_⟩
  rw [← (foldl_register_of_ok hrun).2, ← (foldl_register_of_ok hrun').2, get?_foldl_register,
    get?_foldl_register]
  exact lastOver_alike (h name) (hds name)

theorem AlikeByName.missingRoot? (h : c.AlikeByName q c') {d d' : Document} (hname : d'.name = d.name)
    (horigin : d'.origin = d.origin) : c'.missingRoot? d' = c.missingRoot? d := by
  rw [Catalogue.missingRoot?, Catalogue.missingRoot?, hname, horigin]
  rcases h.get? d.name with ⟨hnone, hnone'⟩ | ⟨root, root', hroot, hroot', halike⟩
  · rw [hnone, hnone']
  · rw [hroot, hroot', Option.any_some, Option.any_some, halike.source]

theorem AlikeByName.addErrors (h : c.AlikeByName q c') (name : String) (errors : List Diagnostic) :
    AlikeByName q (c.addErrors name errors) (c'.addErrors name errors) := by
  intro space
  rw [get?_addErrors, get?_addErrors]
  rcases h.get? space with ⟨hnone, hnone'⟩ | ⟨d, d', hd, hd', halike⟩
  · rw [hnone, hnone']
    split <;> exact .none
  · rw [hd, hd']
    split
    · refine .some ⟨halike.name, halike.source, halike.edition, ?_, halike.shape⟩
      simp only [Definition.addErrors, halike.errors]
    · exact .some halike

/-- Documents that define the same under each name leave the same under each name. -/
theorem AlikeByName.addDocument (h : c.AlikeByName q c') {d d' : Document} (hname : d'.name = d.name)
    (horigin : d'.origin = d.origin) (herrors : d'.errors = d.errors) (hq : ∀ name t, q name t t)
    (hds : Inference.AlikeByName q (d.definitions options) (d'.definitions options))
    (hrun : c.addDocument options d = (.ok (), c₁)) :
    ∃ c₁', c'.addDocument options d' = (.ok (), c₁') ∧ c₁.AlikeByName q c₁' := by
  obtain ⟨c₂, c₃, hall, hlast, rfl⟩ := addDocument_ok_iff.mp hrun
  obtain ⟨c₂', hall', h₂⟩ := h.registerAll hds hall
  have hroot : Inference.AlikeByName q (c₂.missingRoot? d).toList (c₂'.missingRoot? d').toList := by
    rw [h₂.missingRoot? hname horigin]
    refine .of_forall₂ (List.forall₂_same.mpr fun e he => ?_)
    rw [Catalogue.missingRoot?] at he
    split at he
    · cases he
    · rw [Option.toList_some, List.mem_singleton] at he
      rw [he]
      exact ⟨rfl, rfl, rfl, rfl, .nil, hq _ _⟩
  obtain ⟨c₃', hlast', h₃⟩ := h₂.registerAll hroot hlast
  refine ⟨_, addDocument_ok_iff.mpr ⟨c₂', c₃', hall', hlast', rfl⟩, ?_⟩
  rw [hname, herrors]
  exact h₃.addErrors d.name d.errors

end Catalogue
end Exemplar
