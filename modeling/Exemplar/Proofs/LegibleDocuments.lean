import Exemplar.Text.Console
import Exemplar.Proofs.BuildOrder

/-! Documents that are taken in without fail. If nothing in their names and sources can be taken for
markup, every replacement can be announced, and the announcements make no difference. -/
namespace Exemplar
open Text.Markup

theorem Text.Markup.unmarked_append {s t : String} (hs : Unmarked s.toList) (ht : Unmarked t.toList) :
    Unmarked (s ++ t).toList := by
  rw [String.toList_append]
  exact fun c hc => (List.mem_append.mp hc).elim (hs c) (ht c)

/-- The name and the source are plain text. -/
def Definition.Legible (d : Definition) : Prop :=
  Unmarked d.name.toList ∧ Unmarked d.source.toList

instance (d : Definition) : Decidable d.Legible := inferInstanceAs (Decidable (_ ∧ _))

/-- All that the document can register has a plain name and source. -/
def Document.Legible (options : Options) (d : Document) : Prop :=
  (∀ e ∈ d.definitions options, e.Legible) ∧ Unmarked d.name.toList ∧ Unmarked d.origin.toList

instance (options : Options) (d : Document) : Decidable (d.Legible options) :=
  inferInstanceAs (Decidable (_ ∧ _))

namespace Catalogue

/-- All types have plain names and sources. -/
def Legible (c : Catalogue) : Prop := ∀ name d, c.get? name = some d → d.Legible

/-- Take in a document without a word on what it replaces. -/
def takeUp (options : Options) (c : Catalogue) (d : Document) : Catalogue :=
  let c := (d.definitions options).foldl register c
  ((c.missingRoot? d).toList.foldl register c).addErrors d.name d.errors

variable {options : Options} {c : Catalogue} {e : Definition} {ds : List Definition} {d : Document}
  {docs : List Document}

theorem legible_empty : empty.Legible := nofun

theorem unmarked_collision {old : Definition} (he : e.Legible) (hold : old.Legible) :
    Unmarked (collision e old).message.toList := by
  have hwords : Unmarked "Type ".toList ∧ Unmarked " from ".toList ∧
      Unmarked " replaces the definition from ".toList := by
    decide
  obtain ⟨htype, hfrom, hreplaces⟩ := hwords
  have hnew := unmarked_append (unmarked_append (unmarked_append htype he.1) hfrom) he.2
  exact unmarked_append (unmarked_append hnew hreplaces) hold.2

theorem Legible.announce (h : c.Legible) (he : e.Legible) (console : Text.Console) :
    c.announce console e = .ok () :=
  announce_iff.mpr fun old hold => (console.unmarked _ (unmarked_collision he (h _ old hold))).1

theorem Legible.register (h : c.Legible) (he : e.Legible) : (c.register e).Legible := by
  intro name x hx
  rw [get?_register] at hx
  split at hx
  · cases hx
    rwa [Definition.Legible, name_placed, source_placed]
  · exact h name x hx

theorem Legible.addErrors (h : c.Legible) (name : String) (errors : List Diagnostic) :
    (c.addErrors name errors).Legible := by
  intro name' x hx
  rw [get?_addErrors] at hx
  split at hx
  · obtain ⟨y, hy, rfl⟩ := Option.map_eq_some_iff.mp hx
    exact h name' y hy
  · exact h name' x hx

theorem Legible.registerAll (h : c.Legible) (hds : ∀ e ∈ ds, e.Legible) (console : Text.Console) :
    c.registerAll console ds = (.ok (), ds.foldl Catalogue.register c) ∧
      (ds.foldl Catalogue.register c).Legible := by
  induction ds generalizing c with
  | nil => exact ⟨rfl, h⟩
  | cons e ds ih =>
    obtain ⟨he, hds⟩ := List.forall_mem_cons.mp hds
    rw [Catalogue.registerAll, h.announce he]
    exact ih (h.register he) hds

theorem Legible.addDocument (h : c.Legible) (hd : d.Legible options) :
    c.addDocument options d = (.ok (), c.takeUp options d) ∧ (c.takeUp options d).Legible := by
  obtain ⟨hdefined, hname, horigin⟩ := hd
  obtain ⟨hall, h₁⟩ := h.registerAll hdefined options.console
  have hroot (c : Catalogue) : ∀ e ∈ (c.missingRoot? d).toList, e.Legible := by
    intro e he
    rw [missingRoot?] at he
    split at he
    · cases he
    · rw [Option.toList_some, List.mem_singleton] at he
      rw [he]
      exact ⟨hname, horigin⟩
  obtain ⟨hlast, h₂⟩ := h₁.registerAll (hroot _) options.console
  refine ⟨?_, h₂.addErrors _ _⟩
  simp only [Catalogue.addDocument, hall, hlast, takeUp]

theorem Legible.addDocuments (h : c.Legible) (hdocs : ∀ d ∈ docs, d.Legible options) :
    c.AddsAll options docs ∧ c.addDocuments options docs = docs.foldl (takeUp options) c := by
  induction docs generalizing c with
  | nil => exact ⟨trivial, rfl⟩
  | cons d docs ih =>
    obtain ⟨hd, hdocs⟩ := List.forall_mem_cons.mp hdocs
    obtain ⟨hadded, h₁⟩ := h.addDocument hd
    obtain ⟨hall, hlast⟩ := ih h₁ hdocs
    rw [AddsAll, Catalogue.addDocuments, List.foldl_cons, List.foldl_cons, hadded]
    exact ⟨⟨rfl, hall⟩, hlast⟩

end Catalogue

/-- A build of such documents publishes what they register. -/
theorem Builder.build_legible [Json.Reader] {b : Builder} (hidle : b.building = false)
    {sources : List Source} {docs : List Document}
    (hread : List.Forall₂ (fun s d => Source.document? s = .ok d) (Source.inOrder sources) docs)
    (hdocs : ∀ d ∈ docs, d.Legible b.options) :
    (b.build sources).1 =
      .ok (.ofCatalogue (docs.foldl (Catalogue.takeUp b.options) .empty).finish) := by
  obtain ⟨hall, hlast⟩ := Catalogue.legible_empty.addDocuments hdocs
  exact Source.build_ok_iff.mpr ⟨hidle, docs, hread, hall, by rw [hlast]⟩

end Exemplar
