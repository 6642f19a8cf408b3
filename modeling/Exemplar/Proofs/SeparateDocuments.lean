import Exemplar.Proofs.BuildOrder

/-! Documents that have nothing to do with one another. Into a catalogue that has none of its names and
nothing of its source a document puts what it puts into an empty one, behind all that is there. -/
namespace Exemplar
open Inference

namespace Catalogue

def beside (c c' : Catalogue) : Catalogue :=
  { types := c.types ++ c'.types
    files := c.files ++ c'.files
    replaced := c'.replaced ++ c.replaced
    finished := c.finished }

/-- None of the names of a document is taken in a catalogue, and nothing is listed under its source. -/
structure Spares (c : Catalogue) (d : Document) : Prop where
  names : ∀ name, Name.Inside d.name name → c.get? name = none
  source : c.files.get? d.origin = none

variable {options : Options} {console : Text.Console} {c : Catalogue} {d : Document} {e : Definition}
  {ds : List Definition}

theorem spares_empty (d : Document) : empty.Spares d := ⟨fun _ _ => rfl, rfl⟩

theorem beside_empty (c : Catalogue) : c.beside empty = c := by
  obtain ⟨types, files, replaced, finished⟩ := c
  simp only [beside, empty, List.append_nil, List.nil_append]

theorem Spares.get?_beside (h : c.Spares d) {name : String} (hname : Name.Inside d.name name)
    (c' : Catalogue) : (c.beside c').get? name = c'.get? name :=
  Assoc.get?_append (h.names name hname) c'.types

theorem Spares.register_beside (h : c.Spares d) (he : MadeBy d.origin d.name e) (c' : Catalogue) :
    (c.beside c').register e = c.beside (c'.register e) := by
  have hname := h.names e.name he.inside
  have hlist : listUnder (c.files ++ c'.files) e.source e.name =
      c.files ++ listUnder c'.files e.source e.name := by
    have hsource : c.files.get? e.source = none := he.source ▸ h.source
    rw [listUnder, listUnder, Assoc.get?_append hsource, Assoc.insert_append hsource]
  have hplaced : (c.beside c').placed e = c'.placed e := by
    rw [placed, placed, h.get?_beside he.inside]
  have hinsert : Assoc.insert (c.types ++ c'.types) e.name (c'.placed e) =
      c.types ++ Assoc.insert c'.types e.name (c'.placed e) := Assoc.insert_append hname c'.types _
  rw [register_eq, register_eq, hplaced, h.get?_beside he.inside]
  simp only [beside, hlist, hinsert, List.append_assoc]

theorem Spares.registerAll_beside (h : c.Spares d) (hds : ∀ e ∈ ds, MadeBy d.origin d.name e)
    (c' : Catalogue) : (c.beside c').registerAll console ds =
      ((c'.registerAll console ds).1, c.beside (c'.registerAll console ds).2) := by
  induction ds generalizing c' with
  | nil => rfl
  | cons e ds ih =>
    obtain ⟨he, hds⟩ := List.forall_mem_cons.mp hds
    have hannounce : (c.beside c').announce console e = c'.announce console e := by
      rw [announce, announce, h.get?_beside he.inside]
    rw [registerAll, registerAll, hannounce]
    cases c'.announce console e with
    | error f => rfl
    | ok =>
      rw [h.register_beside he]
      exact ih hds _

/-- A document is added behind what spares it, without regard to that. -/
theorem Spares.addDocument_beside (h : c.Spares d) (options : Options) (c' : Catalogue) :
    (c.beside c').addDocument options d =
      ((c'.addDocument options d).1, c.beside (c'.addDocument options d).2) := by
  have hroot (c' : Catalogue) : (c.beside c').missingRoot? d = c'.missingRoot? d := by
    rw [missingRoot?, missingRoot?, h.get?_beside (.inl rfl)]
  have herrors (c' : Catalogue) :
      (c.beside c').addErrors d.name d.errors = c.beside (c'.addErrors d.name d.errors) := by
    simp only [addErrors, beside, Assoc.modify_append (h.names d.name (.inl rfl)) c'.types]
  rw [addDocument, addDocument, h.registerAll_beside (madeBy_definitions options d)]
  cases c'.registerAll options.console (d.definitions options) with
  | mk result c₁ =>
    cases result with
    | error f => rfl
    | ok =>
      simp only [hroot, h.registerAll_beside fun e he =>
        (madeOf_missingRoot c₁ (d.markers options) d e he).toMadeBy]
      cases c₁.registerAll options.console (c₁.missingRoot? d).toList with
      | mk result c₂ =>
        cases result with
        | error f => rfl
        | ok => simp only [herrors]

end Catalogue

namespace Document

def alone (options : Options) (d : Document) : Catalogue := (Catalogue.empty.addDocument options d).2

def Separate (d d' : Document) : Prop := Name.Unrelated d.name d'.name ∧ d.origin ≠ d'.origin

variable {options : Options} {d d' : Document}

theorem Separate.symm (h : d.Separate d') : d'.Separate d := ⟨h.1.symm, h.2.symm⟩

theorem accounts_alone (options : Options) (d : Document) :
    (d.alone options).Accounts (Catalogue.empty.admittedOf options d) :=
  Catalogue.accounts_empty.addDocument options d

theorem inside_alone {name : String} {x : Definition} (h : (d.alone options).get? name = some x) :
    Name.Inside d.name name := by
  have hname := (accounts_alone options d).stands name x h
  obtain ⟨e, he, -⟩ := hname.2.last
  obtain ⟨hmem, hsame⟩ := List.mem_filter.mp (List.mem_of_getLast? he)
  rw [← hname.1, ← of_decide_eq_true hsame]
  exact (Catalogue.madeOf_admittedOf options .empty d e hmem).inside

theorem source_alone (options : Options) (d : Document) :
    ∀ source ∈ Assoc.keys (d.alone options).files, source = d.origin := by
  intro source hsource
  obtain ⟨e, he, rfl⟩ := (accounts_alone options d).sources.2 source hsource
  exact (Catalogue.madeOf_admittedOf options .empty d e he).source

theorem Separate.spares (h : d.Separate d') {c : Catalogue} (hspares : c.Spares d')
    (options : Options) : (c.beside (d.alone options)).Spares d' where
  names name hname := by
    rw [hspares.get?_beside hname, ← Option.not_isSome_iff_eq_none, Option.isSome_iff_exists]
    rintro ⟨x, hx⟩
    exact h.1.not_inside (inside_alone hx) hname
  source := by
    have hsource : Assoc.get? (d.alone options).files d'.origin = none := by
      rw [← Option.not_isSome_iff_eq_none]
      intro hsome
      exact h.2 (source_alone options d _ (Assoc.has_iff.mp hsome)).symm
    exact (Assoc.get?_append hspares.source _).trans hsource

end Document

namespace Catalogue

variable {options : Options} {c : Catalogue} {d : Document} {docs docs' : List Document}

theorem Spares.addDocument_eq (h : c.Spares d) (options : Options) :
    c.addDocument options d = ((empty.addDocument options d).1, c.beside (d.alone options)) := by
  have hbeside := h.addDocument_beside options empty
  rwa [beside_empty] at hbeside

/-- Separate documents stand one behind the other, each as it is alone. -/
theorem addDocuments_separate (hdocs : docs.Pairwise Document.Separate)
    (hspares : ∀ d ∈ docs, c.Spares d) (options : Options) : c.addDocuments options docs =
      { types := c.types ++ docs.flatMap fun d => (d.alone options).types
        files := c.files ++ docs.flatMap fun d => (d.alone options).files
        replaced := (docs.reverse.flatMap fun d => (d.alone options).replaced) ++ c.replaced
        finished := c.finished } := by
  induction docs generalizing c with
  | nil => simp [addDocuments]
  | cons d docs ih =>
    obtain ⟨hd, hdocs⟩ := List.pairwise_cons.mp hdocs
    obtain ⟨hfirst, hspares⟩ := List.forall_mem_cons.mp hspares
    -- What the first document adds is spared by those behind it.
    have hrest := ih hdocs fun e he => (hd e he).spares (hspares e he) options
    rw [addDocuments, List.foldl_cons, hfirst.addDocument_eq]
    refine hrest.trans ?_
    simp [beside]

/-- Separate documents can all be added if each of them can be added alone. -/
theorem addsAll_separate (hdocs : docs.Pairwise Document.Separate) (hspares : ∀ d ∈ docs, c.Spares d) :
    c.AddsAll options docs ↔ ∀ d ∈ docs, (empty.addDocument options d).1 = .ok () := by
  induction docs generalizing c with
  | nil => exact ⟨fun _ => List.forall_mem_nil _, fun _ => trivial⟩
  | cons d docs ih =>
    obtain ⟨hd, hdocs⟩ := List.pairwise_cons.mp hdocs
    obtain ⟨hfirst, hspares⟩ := List.forall_mem_cons.mp hspares
    have hrest := ih hdocs fun e he => (hd e he).spares (hspares e he) options
    rw [AddsAll, hfirst.addDocument_eq, List.forall_mem_cons, hrest]

structure Shuffled (c c' : Catalogue) : Prop where
  types : c'.types.Perm c.types
  files : c'.files.Perm c.files
  replaced : c'.replaced.Perm c.replaced

theorem shuffled_addDocuments (hdocs : docs.Pairwise Document.Separate) (hperm : docs'.Perm docs)
    (options : Options) :
    (empty.addDocuments options docs).Shuffled (empty.addDocuments options docs') := by
  have hdocs' : docs'.Pairwise Document.Separate :=
    (hperm.pairwise_iff fun {_ _} h => Document.Separate.symm h).mpr hdocs
  rw [addDocuments_separate hdocs fun d _ => spares_empty d,
    addDocuments_separate hdocs' fun d _ => spares_empty d]
  refine ⟨?_, ?_, ?_⟩
  · exact (hperm.flatMap_right _).append_left _
  · exact (hperm.flatMap_right _).append_left _
  · refine List.Perm.append_right _ (List.Perm.flatMap_right _ ?_)
    exact (docs'.reverse_perm.trans hperm).trans docs.reverse_perm.symm

end Catalogue
end Exemplar
