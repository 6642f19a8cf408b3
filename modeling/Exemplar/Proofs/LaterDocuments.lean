import Exemplar.Proofs.PlainFields
import Exemplar.Proofs.Registration

/-! A plain sample that is read after other documents. What it defines takes the place of what was
defined under the same names; all other definitions stay. -/
namespace Exemplar
open Json Inference

namespace Catalogue

variable {console : Text.Console} {c c' : Catalogue} {d : Definition} {ds : List Definition}
  {name : String}

/-- Definitions were taken in, each once, and nothing else was changed. -/
structure Took (c : Catalogue) (ds : List Definition) (c' : Catalogue) : Prop where
  finished : c'.finished = c.finished
  own : ∀ d ∈ ds, c'.get? d.name = some (c.placed d)
  others : ∀ name, name ∉ ds.map Definition.name → c'.get? name = c.get? name

theorem took_registerAll (hnames : (ds.map Definition.name).Nodup)
    (hquiet : ∀ d ∈ ds, c.announce console d = .ok ()) :
    ∃ c', c.registerAll console ds = (.ok (), c') ∧ c.Took ds c' := by
  induction ds generalizing c with
  | nil => exact ⟨c, rfl, rfl, List.forall_mem_nil _, fun _ _ => rfl⟩
  | cons d ds ih =>
    obtain ⟨hd, hnames⟩ := List.nodup_cons.mp hnames
    have hother {e : Definition} (he : e ∈ ds) : e.name ≠ d.name := by
      intro hsame
      exact hd (hsame ▸ List.mem_map_of_mem he)
    have hquiet' : ∀ e ∈ ds, (c.register d).announce console e = .ok () := by
      intro e he
      rw [announce_register_ne (hother he)]
      exact hquiet e (List.mem_cons_of_mem d he)
    obtain ⟨c', hrun, htook⟩ := ih hnames hquiet'
    refine ⟨c', ?_, htook.finished.trans (finished_register c d), fun e he => ?_, fun name hname => ?_⟩
    · rw [registerAll, hquiet d List.mem_cons_self]
      exact hrun
    · rcases List.mem_cons.mp he with rfl | he
      · rw [htook.others _ hd, get?_register, if_pos rfl]
      · rw [htook.own e he, placed, placed, get?_register_ne (hother he)]
    · obtain ⟨hne, hnot⟩ := not_or.mp (List.mem_cons.not.mp hname)
      rw [htook.others name hnot, get?_register_ne hne]

theorem failed_registerAll (hnames : (ds.map Definition.name).Nodup)
    (hloud : ¬∀ d ∈ ds, c.announce console d = .ok ()) :
    ∃ f c', c.registerAll console ds = (.error f, c') := by
  induction ds generalizing c with
  | nil => exact (hloud (List.forall_mem_nil _)).elim
  | cons d ds ih =>
    obtain ⟨hd, hnames⟩ := List.nodup_cons.mp hnames
    cases hfirst : c.announce console d with
    | error f =>
      refine ⟨f, c, ?_⟩
      rw [registerAll, hfirst]
    | ok =>
      have hloud' : ¬∀ e ∈ ds, (c.register d).announce console e = .ok () := by
        intro hquiet
        refine hloud (List.forall_mem_cons.mpr ⟨hfirst, fun e he => ?_⟩)
        have hother : e.name ≠ d.name := by
          intro hsame
          exact hd (hsame ▸ List.mem_map_of_mem he)
        rw [← announce_register_ne hother]
        exact hquiet e he
      obtain ⟨f, c', hrun⟩ := ih hnames hloud'
      refine ⟨f, c', ?_⟩
      rw [registerAll, hfirst]
      exact hrun

end Catalogue

namespace Document

def defined (d : Document) : List Definition := definitionsAt d.origin (sites d.name d.root)

/-- A definition of a document as it stands in a catalogue behind others. The diagnostics of the
document go to its root. -/
def taken (d : Document) (c : Catalogue) (e : Definition) : Definition :=
  if d.name = e.name then (c.placed e).addErrors d.errors else c.placed e

variable {c c' : Catalogue} {d : Document} {q : Scalar → Prop} {e : Definition}

theorem name_taken (d : Document) (c : Catalogue) (e : Definition) :
    (d.taken c e).name = e.name := by
  unfold taken
  split <;> exact c.name_placed e

theorem source_taken (d : Document) (c : Catalogue) (e : Definition) :
    (d.taken c e).source = e.source := by
  unfold taken
  split <;> exact c.source_placed e

/-- Everything that a plain document defines has a name of its own. -/
theorem nodup_defined (hv : IsDocument q d.value) : (d.defined.map Definition.name).Nodup := by
  rw [defined, names_definitionsAt]
  exact once_definedNames (apart_sites (d.isDocument_root hv) d.name)

/-- What a plain document defines in its text; a scalar defines nothing there. -/
theorem definitions_cases (options : Options) (hplain : d.plain = true) (hv : IsDocument q d.value) :
    d.definitions options = d.defined ∧ (∃ e ∈ d.defined, e.name = d.name) ∨
      d.definitions options = [] ∧
        d.defined = [{ name := d.name, source := d.origin, shape := .struct [] [] }] := by
  have hroot := d.isDocument_root hv
  have hcontainer {v : Json} (hvalue : d.root = v) (hv : IsDocument q v)
      (hsample : d.sample = v.typeNames) {e : Definition}
      (he : definitionAt d.origin (d.name, v) = some e) :
      d.definitions options = d.defined ∧ ∃ e ∈ d.defined, e.name = d.name := by
    refine ⟨by rw [definitions_plain options hplain hv hsample, defined, hvalue], e, ?_, (made_at he).1⟩
    rw [defined, hvalue]
    exact List.mem_filterMap.mpr ⟨_, self_mem_sites _ _, he⟩
  cases hvalue : d.value with
  | scalar s =>
    have hmap : d.root = .map [] := by rw [root, hvalue]
    rw [hmap] at hroot
    cases s with
    | null =>
      refine Or.inl (hcontainer hmap hroot ?_ rfl)
      rw [sample, hplain, hvalue]
      rfl
    | _ =>
      rw [hvalue] at hv
      refine Or.inr ⟨?_, by rw [defined, hmap]; rfl⟩
      rw [definitions_plain options hplain hv (by rw [sample, hplain, hvalue]; rfl)]
      rfl
  | list items =>
    have hlist : d.root = .list items := by rw [root, hvalue]
    rw [hlist] at hroot
    refine Or.inl (hcontainer hlist hroot ?_ rfl)
    rw [sample, hplain, hvalue]
    rfl
  | map entries =>
    have hmap : d.root = .map entries := by rw [root, hvalue]
    rw [hmap] at hroot
    refine Or.inl (hcontainer hmap hroot ?_ rfl)
    rw [sample, hplain, hvalue]
    rfl

/-- A plain document was taken in: what it defines stands behind what was there, and nothing else was
changed. -/
structure Added (d : Document) (c c' : Catalogue) : Prop where
  finished : c'.finished = c.finished
  own : ∀ e ∈ d.defined, c'.get? e.name = some (d.taken c e)
  others : ∀ name, name ∉ d.defined.map Definition.name → c'.get? name = c.get? name

theorem missingRoot?_foreign (hforeign : ∀ old, c.get? d.name = some old → old.source ≠ d.origin) :
    c.missingRoot? d = some { name := d.name, source := d.origin, shape := .struct [] [] } := by
  rw [Catalogue.missingRoot?]
  cases hfound : c.get? d.name with
  | none => rfl
  | some old => simp [hforeign old hfound]

/-- A plain document takes the place of whatever other sources defined under the same names. -/
theorem added_addDocument (options : Options) (hplain : d.plain = true) (hv : IsDocument q d.value)
    (hforeign : ∀ old, c.get? d.name = some old → old.source ≠ d.origin)
    (hquiet : ∀ e ∈ d.defined, c.announce options.console e = .ok ()) :
    ∃ c', c.addDocument options d = (.ok (), c') ∧ d.Added c c' := by
  obtain ⟨c₁, hrun, htook⟩ := Catalogue.took_registerAll (nodup_defined hv) hquiet
  have hadded : c.addDocument options d = (.ok (), c₁.addErrors d.name d.errors) := by
    rw [Catalogue.addDocument]
    rcases definitions_cases options hplain hv with ⟨hdefined, e, he, hname⟩ | ⟨hnothing, hone⟩
    · have hroot : c₁.missingRoot? d = none := by
        have hsource : e.source = d.origin := by
          obtain ⟨site, -, hat⟩ := List.mem_filterMap.mp he
          exact (made_at hat).2.1
        have hfound := htook.own e he
        rw [hname] at hfound
        rw [Catalogue.missingRoot?, hfound, Option.any_some, Catalogue.source_placed, hsource]
        simp
      rw [hdefined, hrun]
      simp only [hroot, Option.toList_none, Catalogue.registerAll]
    · rw [hone] at hrun
      rw [hnothing]
      simp only [Catalogue.registerAll, missingRoot?_foreign hforeign, Option.toList_some] at hrun ⊢
      rw [hrun]
  have hroot_defined : d.name ∈ d.defined.map Definition.name := by
    rw [defined, names_definitionsAt]
    refine List.mem_map.mpr ⟨(d.name, d.root), List.mem_filter.mpr ⟨self_mem_sites _ _, ?_⟩, rfl⟩
    rw [root]
    cases d.value <;> rfl
  refine ⟨_, hadded, ⟨htook.finished, fun e he => ?_, fun name hname => ?_⟩⟩
  · rw [Catalogue.get?_addErrors, htook.own e he, taken]
    split <;> rfl
  · have hne : d.name ≠ name := fun h => hname (h ▸ hroot_defined)
    rw [Catalogue.get?_addErrors, if_neg hne, htook.others name hname]

/-- A plain document is not taken in if one of its definitions replaces another one and this cannot be
announced. -/
theorem failed_addDocument (options : Options) (hplain : d.plain = true) (hv : IsDocument q d.value)
    (hforeign : ∀ old, c.get? d.name = some old → old.source ≠ d.origin)
    (hloud : ¬∀ e ∈ d.defined, c.announce options.console e = .ok ()) :
    ∃ f c', c.addDocument options d = (.error f, c') := by
  obtain ⟨f, c', hrun⟩ := Catalogue.failed_registerAll (nodup_defined hv) hloud
  refine ⟨f, c', ?_⟩
  rw [Catalogue.addDocument]
  rcases definitions_cases options hplain hv with ⟨hdefined, -⟩ | ⟨hnothing, hone⟩
  · rw [hdefined, hrun]
  · rw [hone] at hrun
    rw [hnothing]
    simp only [Catalogue.registerAll, missingRoot?_foreign hforeign, Option.toList_some] at hrun ⊢
    rw [hrun]

/-- At a site stands what the site defines, or what was there before. -/
theorem Added.get?_site (h : d.Added c c') (hv : IsDocument q d.value) {site : String × Json}
    (hsite : site ∈ sites d.name d.root) :
    c'.get? site.1 = match definitionAt d.origin site with
      | some e => some (d.taken c e)
      | none => c.get? site.1 := by
  have hapart := apart_sites (d.isDocument_root hv) d.name
  cases hat : definitionAt d.origin site with
  | some e =>
    have he : e ∈ d.defined := List.mem_filterMap.mpr ⟨site, hsite, hat⟩
    rw [← (made_at hat).1]
    exact h.own e he
  | none =>
    refine h.others site.1 fun hmem => ?_
    obtain ⟨e, he, hname⟩ := List.mem_map.mp hmem
    obtain ⟨site', hsite', hat'⟩ := List.mem_filterMap.mp he
    have hsame : site'.1 = site.1 := (made_at hat').1.symm.trans hname
    rw [List.inj_on_of_nodup_map hapart.once hsite' hsite hsame, hat] at hat'
    cases hat'

end Document
end Exemplar
