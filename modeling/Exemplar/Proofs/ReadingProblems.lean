import Exemplar.Proofs.FinishedTypes
import Exemplar.Proofs.LegibleDocuments

/-! What becomes of the problems that are found while a source is read. They are listed with the type
that has the name of the document, and a later document that registers a type of that name takes its
place without them. -/
namespace Exemplar

/-- The problem was found when a source was read, not when types were inferred. -/
def Diagnostic.OfReading (x : Diagnostic) : Prop := x.kind = .io ∨ x.kind = .parse

variable {x : Diagnostic}

theorem Diagnostic.OfReading.ne_collision (h : x.OfReading) (new old : Definition) :
    x ≠ Catalogue.collision new old := by
  rintro rfl
  rcases h with h | h <;> cases h

theorem Source.ofReading_document [Json.Reader] {s : Source} {d : Document} (h : s.document? = .ok d) :
    ∀ x ∈ d.errors, x.OfReading := by
  obtain ⟨heading, content⟩ := s
  obtain ⟨data, -, hdata⟩ : ∃ data, content.whileBuilding = .ok data ∧ heading.document data = d := by
    rw [document?] at h
    cases hcontent : content.whileBuilding with
    | error e => simp [hcontent, Except.map] at h
    | ok data => exact ⟨data, rfl, by simpa [hcontent, Except.map] using h⟩
  intro x hx
  rw [← hdata] at hx
  change x ∈ (heading.parse data).errors at hx
  cases data with
  | error reason =>
    rw [List.mem_singleton.mp hx]
    exact .inl rfl
  | ok data =>
    obtain ⟨p, -, rfl⟩ := Option.map_eq_some_iff.mp (Option.mem_toList.mp hx)
    exact .inr rfl

namespace Catalogue
open Inference

def Reports (c : Catalogue) (name : String) (x : Diagnostic) : Prop :=
  ∃ d, c.get? name = some d ∧ x ∈ d.errors

variable {options : Options} {console : Text.Console} {c : Catalogue} {name : String} {e : Definition}
  {d : Document}
  {ds : List Definition} {docs : List Document}

theorem not_reports_empty (name : String) (x : Diagnostic) : ¬empty.Reports name x := nofun

/-- A registration leaves a problem of reading behind if it is for another name, and else drops it:
what is registered was made with no diagnostics. -/
theorem reports_register (hx : x.OfReading) (he : e.errors = []) :
    (c.register e).Reports name x ↔ c.Reports name x ∧ e.name ≠ name := by
  rw [Reports, Reports, get?_register]
  by_cases hname : e.name = name
  · have hplaced : x ∉ (c.placed e).errors := by
      unfold placed
      cases c.get? e.name with
      | none => simp [he]
      | some old => simpa [Definition.addErrors, he] using hx.ne_collision e old
    simp [hname, hplaced]
  · simp [hname]

theorem reports_registerAll (hx : x.OfReading) (hds : ∀ e ∈ ds, e.errors = []) :
    (ds.foldl register c).Reports name x ↔ c.Reports name x ∧ ∀ e ∈ ds, e.name ≠ name := by
  induction ds generalizing c with
  | nil => simp
  | cons e ds ih =>
    obtain ⟨he, hds⟩ := List.forall_mem_cons.mp hds
    rw [List.foldl_cons, ih hds, reports_register hx he, List.forall_mem_cons, and_assoc]

theorem reports_addErrors (hroot : ∃ root, c.get? d.name = some root) :
    (c.addErrors d.name d.errors).Reports name x ↔
      c.Reports name x ∨ d.name = name ∧ x ∈ d.errors := by
  rw [Reports, Reports, get?_addErrors]
  by_cases hname : d.name = name
  · obtain ⟨root, hroot⟩ := hroot
    subst hname
    simp [hroot, Definition.addErrors]
  · simp [hname]

/-- A document that has no root of its own gets one. -/
theorem root_of_missingRoot (c : Catalogue) (d : Document) :
    ∃ root, ((c.missingRoot? d).toList.foldl register c).get? d.name = some root := by
  rw [missingRoot?]
  split
  · next hroot =>
    cases hget : c.get? d.name with
    | none => simp [hget] at hroot
    | some root => exact ⟨root, hget⟩
  · rw [Option.toList_some, List.foldl_cons, List.foldl_nil, get?_register, if_pos rfl]
    exact ⟨_, rfl⟩

/-- A document that is added has a type of its name, which gets its diagnostics. -/
theorem added_addDocument (hadded : (c.addDocument options d).1 = .ok ()) :
    (∃ root, ((c.admittedOf options d).foldl register c).get? d.name = some root) ∧
      (c.addDocument options d).2 =
        ((c.admittedOf options d).foldl register c).addErrors d.name d.errors := by
  obtain ⟨c₁, c₂, hall, hrest, hafter⟩ := addDocument_ok_iff.mp (Prod.ext hadded rfl)
  obtain ⟨hdefined, hfirst⟩ := foldl_register_of_ok hall
  obtain ⟨hroot, hlast⟩ := foldl_register_of_ok hrest
  have hadmitted : (c.admittedOf options d).foldl register c = c₂ := by
    simp only [admittedOf, hall, List.foldl_append, hdefined, hfirst, hroot, hlast]
  rw [hadmitted]
  exact ⟨hlast ▸ c₁.root_of_missingRoot d, hafter.symm⟩

theorem reports_addDocument (hx : x.OfReading) (hadded : (c.addDocument options d).1 = .ok ()) :
    (c.addDocument options d).2.Reports name x ↔
      (c.Reports name x ∧ ∀ e ∈ c.admittedOf options d, e.name ≠ name) ∨
        d.name = name ∧ x ∈ d.errors := by
  obtain ⟨hroot, hafter⟩ := added_addDocument hadded
  have hfresh : ∀ e ∈ c.admittedOf options d, e.errors = [] := fun e he =>
    (madeOf_admittedOf options c d e he).errors
  rw [hafter, reports_addErrors hroot, reports_registerAll hx hfresh]

/-- A document of the name found the problem, and no document behind it registers the name. -/
def Keeps (options : Options) (c : Catalogue) (docs : List Document) (name : String)
    (x : Diagnostic) : Prop :=
  ∃ before d after, docs = before ++ d :: after ∧ d.name = name ∧ x ∈ d.errors ∧
    ∀ e ∈ (c.addDocuments options (before ++ [d])).history options after, e.name ≠ name

theorem keeps_cons : c.Keeps options (d :: docs) name x ↔
    (d.name = name ∧ x ∈ d.errors ∧
      ∀ e ∈ (c.addDocument options d).2.history options docs, e.name ≠ name) ∨
    (c.addDocument options d).2.Keeps options docs name x := by
  constructor
  · rintro ⟨before, d', after, hsplit, hrest⟩
    cases before with
    | nil =>
      obtain ⟨rfl, rfl⟩ := List.cons.inj hsplit
      exact .inl hrest
    | cons first before =>
      obtain ⟨rfl, rfl⟩ := List.cons.inj hsplit
      exact .inr ⟨before, d', after, rfl, hrest⟩
  · rintro (hfirst | ⟨before, d', after, rfl, hrest⟩)
    · exact ⟨[], d, docs, rfl, hfirst⟩
    · exact ⟨d :: before, d', after, rfl, hrest⟩

/-- What is reported of reading is what was reported before, unless the name is registered again,
and what the documents keep. -/
theorem reports_addDocuments (hx : x.OfReading) (hall : c.AddsAll options docs) :
    (c.addDocuments options docs).Reports name x ↔
      (c.Reports name x ∧ ∀ e ∈ c.history options docs, e.name ≠ name) ∨
        c.Keeps options docs name x := by
  induction docs generalizing c with
  | nil => simp [addDocuments, history, Keeps]
  | cons d docs ih =>
    obtain ⟨hadded, hall⟩ := hall
    have hrest := ih hall
    rw [addDocuments, List.foldl_cons] at *
    rw [hrest, reports_addDocument hx hadded, keeps_cons, history, List.forall_mem_append]
    tauto

end Catalogue

namespace Registry
open Inference

def Lists (r : Registry) (name : String) (x : Diagnostic) : Prop :=
  ∃ errors, (name, errors) ∈ r.errors ∧ x ∈ errors

/-- Resolving references only adds what could not be resolved. -/
theorem mem_errors_resolvedIn (hx : x.OfReading) (types : TypeTable) (d : Definition) :
    x ∈ (resolvedIn types d).errors ↔ x ∈ d.errors := by
  have hnew (y : Diagnostic) (hy : y.kind = .unresolvedType) : x ≠ y := by
    rintro rfl
    rcases hx with hx | hx <;> rw [hy] at hx <;> cases hx
  rw [resolvedIn, TypeTable.resolve]
  split
  · next fields aliases _ =>
    have hfields (f : Field) : x ≠ TypeTable.unknownField (types.linkInner d) f := hnew _ rfl
    simp only [List.mem_append, List.mem_map, TypeTable.linkInner]
    refine or_iff_left ?_
    rintro ⟨f, -, rfl⟩
    exact hfields f rfl
  · next depth sample element _ =>
    split
    · rfl
    · have helement := hnew (TypeTable.unknownElement d.name sample) rfl
      simp [TypeTable.linkInner, helement]
  · rfl

theorem lists_iff {r : Registry} (hnames : (Assoc.keys r.types).Nodup) {name : String} :
    r.Lists name x ↔ ∃ d, r.get? name = some d ∧ x ∈ d.errors := by
  constructor
  · rintro ⟨errors, hmem, hx⟩
    obtain ⟨⟨key, d⟩, hd, hlisted⟩ := List.mem_filterMap.mp hmem
    cases hempty : d.errors.isEmpty <;> simp only [hempty] at hlisted <;> cases hlisted
    exact ⟨d, Assoc.get?_of_mem hnames hd, hx⟩
  · rintro ⟨d, hd, hx⟩
    obtain ⟨key, hmem, hkey⟩ := Assoc.get?_mem hd
    rw [beq_iff_eq] at hkey
    subst hkey
    refine ⟨d.errors, List.mem_filterMap.mpr ⟨_, hmem, ?_⟩, hx⟩
    simp [List.ne_nil_of_mem hx]

theorem lists_finish {c : Catalogue} (hopen : c.finished = false)
    (hnames : (Assoc.keys c.types).Nodup) (hx : x.OfReading) {name : String} :
    (ofCatalogue c.finish).Lists name x ↔ c.Reports name x := by
  have hfinished : (Assoc.keys (ofCatalogue c.finish).types).Nodup := by
    rw [types_finish hopen, Assoc.keys, List.map_map]
    exact hnames
  rw [lists_iff hfinished, get?_finish hopen, Catalogue.Reports]
  cases c.get? name with
  | none => simp
  | some d => simp [mem_errors_resolvedIn hx]

end Registry

namespace Builder
open Catalogue

/-- A problem of reading is listed under a name if and only if a document of that name found it and
no document taken in behind that one registers a type of the name. -/
theorem build_lists [Json.Reader] {b : Builder} {sources : List Source} {r : Registry}
    (hr : (b.build sources).1 = .ok r) :
    ∃ docs, List.Forall₂ (fun s d => Source.document? s = .ok d) (Source.inOrder sources) docs ∧
      (∀ d ∈ docs, ∀ x ∈ d.errors, x.OfReading) ∧
      ∀ name x, x.OfReading → (r.Lists name x ↔
        ∃ before d after, docs = before ++ d :: after ∧ d.name = name ∧ x ∈ d.errors ∧
          ∀ e ∈ (empty.addDocuments b.options (before ++ [d])).history b.options after,
            e.name ≠ name) := by
  obtain ⟨-, docs, hread, hall, rfl⟩ := Source.build_ok_iff.mp hr
  refine ⟨docs, hread, fun d hd => ?_, fun name x hx => ?_⟩
  · obtain ⟨s, -, hs⟩ := Source.exists_source hread d hd
    exact Source.ofReading_document hs
  · have hopen := finished_addDocuments b.options empty docs
    have hnames := (accounts_addDocuments b.options docs).once
    rw [Registry.lists_finish hopen hnames hx, reports_addDocuments hx hall]
    simp [not_reports_empty, Keeps]

/-- The first two sources cannot be read, and the last one registers the name of the first. -/
def unreadableSources : List Source :=
  [({ name := "N", origin := some "N.jschema" }, .unreadable "gone"),
    ({ name := "M", origin := some "M.jschema" }, .unreadable "gone"),
    ({ name := "N", kind := .sample, origin := some "N.json" }, .octets (Text.encodeString "\x7b\x7d"))]

theorem build_lists_unreadable :
    let unable (origin : String) : Diagnostic :=
      .placeless .io s!"Unable to open JSON file {origin}: gone"
    let collision : Diagnostic :=
      .placeless .nameCollision "Type N from N.json replaces the definition from N.jschema"
    ∃ r, ((Builder.new {}).build unreadableSources).1 = .ok r ∧
      r.errors = [("N", [collision]), ("M", [unable "M.jschema"])] ∧
      ∃ docs, List.Forall₂ (fun s d => Source.document? s = .ok d)
          (Source.inOrder unreadableSources) docs ∧
        (∀ d ∈ docs, ∀ x ∈ d.errors, x.OfReading) ∧
        ∀ name x, x.OfReading → (r.Lists name x ↔
          ∃ before d after, docs = before ++ d :: after ∧ d.name = name ∧ x ∈ d.errors ∧
            ∀ e ∈ (empty.addDocuments {} (before ++ [d])).history {} after, e.name ≠ name) := by
  intro unable collision
  let document (s : Source) : Document := s.1.document (s.2.whileBuilding.toOption.getD (.ok []))
  let docs := (Source.inOrder unreadableSources).map document
  have hread : List.Forall₂ (fun s d => Source.document? s = .ok d)
      (Source.inOrder unreadableSources) docs :=
    .cons rfl (.cons rfl (.cons rfl .nil))
  have hlegible : ∀ d ∈ docs, d.Legible {} := by
    decide +kernel
  have hr := build_legible (b := .new {}) rfl hread hlegible
  exact ⟨_, hr, by decide +kernel, build_lists hr⟩

end Builder
end Exemplar
