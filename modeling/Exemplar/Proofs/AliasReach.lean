import Exemplar.Proofs.AlikeCatalogues
import Exemplar.Proofs.BuildOrder
import Exemplar.Proofs.Outlines
import Exemplar.Proofs.RoundTrip
import Exemplar.Proofs.TrimmedAliases

/-! How far the aliases of texts in a document reach. Without them, all types of other names are the
same in the end, but for lists whose nearest struct is one of the document: the elements of a list
are looked up with the aliases of that struct, whatever document the list is from. -/
namespace Exemplar
open Inference

theorem TypeTable.innerTypes_matched {types types' : TypeTable}
    (h : Assoc.Matched (fun _ d d' => d'.name = d.name) types types') (name : String) :
    types'.innerTypes name = types.innerTypes name := by
  have hnames : (types'.map Prod.snd).map Definition.name = (types.map Prod.snd).map Definition.name := by
    induction h with
    | nil => rfl
    | cons he _ ih => rw [List.map_cons, List.map_cons, List.map_cons, List.map_cons, ih, he.2]
  have hentries (ds : List Definition) : (ds.filterMap fun d =>
      if Name.namespaceOf d.name = name then some (Name.segment d.name, d.name) else none) =
        (ds.map Definition.name).filterMap fun n =>
          if Name.namespaceOf n = name then some (Name.segment n, n) else none := by
    rw [List.filterMap_map]
    rfl
  rw [TypeTable.innerTypes, TypeTable.innerTypes, hentries, hentries, hnames]

/-- Definitions of a name that differ in the aliases they see, and only if the name is one of those
given. -/
def Definition.SameBut (own : List String) (name : String) (d d' : Definition) : Prop :=
  d.Alike AnyAliases d' ∧ (name ∉ own → d' = d)

theorem Definition.SameBut.refl (own : List String) (d : Definition) : SameBut own d.name d d := by
  refine ⟨⟨rfl, rfl, rfl, rfl, ?_⟩, fun _ => rfl⟩
  cases d.shape with
  | struct fields aliases => exact ⟨List.forall₂_same.mpr fun f _ => .refl f, trivial⟩
  | enum values origin => rfl
  | list depth sample element => exact ⟨rfl, .refl sample⟩

namespace Catalogue

/-- Catalogues that differ in the aliases of types of the given names only. -/
structure SameBut (own : List String) (c c' : Catalogue) : Prop where
  types : Assoc.Matched (Definition.SameBut own) c.types c'.types
  files : c'.files = c.files
  finished : c'.finished = c.finished

variable {console : Text.Console} {own : List String} {c c' c₁ : Catalogue} {d d' : Definition}
  {ds ds' : List Definition}

theorem sameBut_empty (own : List String) : SameBut own empty empty := ⟨.nil, rfl, rfl⟩

theorem SameBut.get? (h : SameBut own c c') (name : String) :
    c.get? name = none ∧ c'.get? name = none ∨
      ∃ d d', c.get? name = some d ∧ c'.get? name = some d' ∧ Definition.SameBut own name d d' :=
  h.types.get? name

theorem SameBut.announce (h : SameBut own c c') (hd : d.Alike AnyAliases d') :
    c'.announce console d' = c.announce console d := by
  rw [Catalogue.announce, Catalogue.announce, hd.name]
  rcases h.get? d.name with ⟨hnone, hnone'⟩ | ⟨old, old', hold, hold', halike, -⟩
  · rw [hnone, hnone']
  · rw [hold, hold']
    simp only [collision_congr hd.name hd.source halike.source]

theorem SameBut.alikeByName (h : SameBut own c c') : c.AlikeByName AnyAliases c' := by
  intro name
  rcases h.get? name with ⟨hnone, hnone'⟩ | ⟨d, d', hd, hd', halike, -⟩
  · rw [hnone, hnone']
    exact .none
  · rw [hd, hd']
    exact .some halike

theorem SameBut.placed (h : SameBut own c c') (hd : Definition.SameBut own d.name d d') :
    Definition.SameBut own d.name (c.placed d) (c'.placed d') := by
  refine ⟨?_, fun hname => ?_⟩
  · have hplaced : c'.placed d' = behind (c'.get? d.name) d' := by
      rw [← hd.1.name]
      rfl
    rw [hplaced]
    exact behind_alike (h.alikeByName d.name) hd.1
  · unfold Catalogue.placed
    rw [hd.1.name]
    rcases h.get? d.name with ⟨hnone, hnone'⟩ | ⟨old, old', hold, hold', -, hsame⟩
    · rw [hnone, hnone']
      exact hd.2 hname
    · rw [hold, hold', hd.2 hname, hsame hname]

theorem SameBut.register (h : SameBut own c c') (hd : Definition.SameBut own d.name d d') :
    SameBut own (c.register d) (c'.register d') := by
  rw [register_eq, register_eq, hd.1.name, hd.1.source, h.files]
  exact ⟨h.types.insert (h.placed hd), rfl, h.finished⟩

theorem SameBut.registerAll (h : SameBut own c c')
    (hds : List.Forall₂ (fun d d' => Definition.SameBut own d.name d d') ds ds')
    (hrun : c.registerAll console ds = (.ok (), c₁)) :
    ∃ c₁', c'.registerAll console ds' = (.ok (), c₁') ∧ SameBut own c₁ c₁' := by
  induction hds generalizing c c' with
  | nil =>
    cases hrun
    exact ⟨c', rfl, h⟩
  | @cons d d' ds ds' hd _ ih =>
    rw [Catalogue.registerAll] at hrun ⊢
    rw [h.announce hd.1]
    cases hannounced : c.announce console d with
    | error f =>
      rw [hannounced] at hrun
      cases hrun
    | ok =>
      rw [hannounced] at hrun
      exact ih (h.register hd) hrun

theorem SameBut.addErrors (h : SameBut own c c') (name : String) (errors : List Diagnostic) :
    SameBut own (c.addErrors name errors) (c'.addErrors name errors) := by
  refine ⟨h.types.modify fun d d' hd => ?_, h.files, h.finished⟩
  have hall : (d'.addErrors errors).errors = (d.addErrors errors).errors := by
    rw [Definition.addErrors, Definition.addErrors, hd.1.errors]
  exact ⟨⟨hd.1.name, hd.1.source, hd.1.edition, hall, hd.1.shape⟩, fun hname => by rw [hd.2 hname]⟩

theorem SameBut.outlined (h : SameBut own c c') : TypeTable.Outlined c.types c'.types := by
  intro name
  rcases h.types.get? name with ⟨hnone, hnone'⟩ | ⟨d, d', hd, hd', halike, -⟩
  · rw [hnone, hnone']
    exact .none
  · rw [hd, hd']
    exact .some ⟨halike.ref, halike.kind⟩

theorem SameBut.innerTypes (h : SameBut own c c') (name : String) :
    TypeTable.innerTypes c'.types name = TypeTable.innerTypes c.types name :=
  TypeTable.innerTypes_matched (h.types.imp fun _ _ he => ⟨he.1, he.2.1.name⟩) name

/-- The nearest struct is the same, if it is none of those whose aliases differ. -/
theorem SameBut.enclosingStruct (h : SameBut own c c') {name : String}
    (haround : ∀ y, TypeTable.enclosingStruct c.types name = some y → y.name ∉ own)
    (hnamed : ∀ name d, c.get? name = some d → d.name = name) :
    TypeTable.enclosingStruct c'.types name = TypeTable.enclosingStruct c.types name := by
  rw [TypeTable.enclosingStruct] at haround ⊢
  rw [TypeTable.enclosingStruct]
  generalize Name.enclosing name = spaces at haround ⊢
  induction spaces with
  | nil => rfl
  | cons space spaces ih =>
    rw [List.findSome?_cons] at haround
    rw [List.findSome?_cons, List.findSome?_cons]
    rcases h.types.get? space with ⟨hnone, hnone'⟩ | ⟨y, y', hy, hy', halike, hsame⟩
    · rw [hnone] at haround ⊢
      rw [hnone']
      exact ih haround
    · rw [hy, Option.filter_some] at haround
      rw [hy, hy', Option.filter_some, Option.filter_some, halike.kind]
      by_cases hstruct : (y.kind == .struct) = true
      · simp only [if_pos hstruct] at haround ⊢
        rw [hsame (hnamed space y hy ▸ haround y rfl)]
      · simp only [if_neg hstruct] at haround ⊢
        exact ih haround

end Catalogue

namespace Document
open Catalogue

/-- The document without the aliases of texts. Plain samples have no aliases. -/
def trimmed (options : Options) (d : Document) : Document :=
  if d.plain then d else { d with value := d.value.trimmed (.ofOptions options) }

/-- Documents that differ in the aliases of types of the given names only. -/
structure SameBut (options : Options) (own : List String) (d d' : Document) : Prop where
  name : d'.name = d.name
  origin : d'.origin = d.origin
  errors : d'.errors = d.errors
  definitions : List.Forall₂ (fun e e' => Definition.SameBut own e.name e e')
    (d.definitions options) (d'.definitions options)

variable {options : Options} {own : List String} {d d' : Document} {docs docs' : List Document}
  {c c' : Catalogue}

theorem SameBut.refl (options : Options) (own : List String) (d : Document) :
    d.SameBut options own d :=
  ⟨rfl, rfl, rfl, List.forall₂_same.mpr fun e _ => Definition.SameBut.refl own e⟩

theorem sample_trimmed (hschema : d.plain = false) :
    (d.trimmed options).sample = d.sample.trimmed (.ofOptions options) := by
  have hnull := isNull_of_alike (Json.alike_trimmed (.ofOptions options) d.value)
  simp only [sample, trimmed, hschema, Bool.false_eq_true, if_false, hnull]
  split
  · simp [Json.trimmed, Json.trimmedEntries]
  · rfl

/-- The names for the document are those of what it defines. -/
theorem sameBut_trimmed (options : Options) (d : Document) :
    d.SameBut options ((d.definitions options).map Definition.name) (d.trimmed options) := by
  cases hplain : d.plain with
  | true =>
    rw [trimmed, if_pos hplain]
    exact .refl _ _ d
  | false =>
    have hkept : d.trimmed options = { d with value := d.value.trimmed (.ofOptions options) } := by
      rw [trimmed, hplain]
      rfl
    refine ⟨by rw [hkept], by rw [hkept]; rfl, by rw [hkept], ?_⟩
    have hplain' : (d.trimmed options).plain = false := by rw [hkept]; exact hplain
    have horigin : (d.trimmed options).origin = d.origin := by rw [hkept]; rfl
    have hname : (d.trimmed options).name = d.name := by rw [hkept]
    have hown : ∀ e ∈ d.definitions options,
        e.name ∈ (d.definitions options).map Definition.name := fun _ => List.mem_map_of_mem
    have halike : List.Forall₂ (Definition.Alike AnyAliases) (d.definitions options)
        ((d.trimmed options).definitions options) := by
      have hc : Context.Alike ⟨d.origin, .ofOptions options, d.linked && true, none⟩
          ⟨d.origin, .ofOptions options, (d.trimmed options).linked && true, none⟩ := ⟨rfl, rfl⟩
      rw [definitions, definitions, hplain, hplain', sample_trimmed hplain, horigin, hname]
      exact trimmed_ofValue hc .empty .empty d.name d.sample
    exact (List.forall₂_and_left _ _ |>.mpr ⟨hown, halike⟩).imp
      fun e e' he => ⟨he.2, fun hother => (hother he.1).elim⟩

theorem SameBut.addDocument (h : d.SameBut options own d') (hc : Catalogue.SameBut own c c')
    (hrun : c.addDocument options d = (.ok (), c₁)) :
    ∃ c₁', c'.addDocument options d' = (.ok (), c₁') ∧ Catalogue.SameBut own c₁ c₁' := by
  obtain ⟨c₂, c₃, hall, hlast, rfl⟩ := Catalogue.addDocument_ok_iff.mp hrun
  obtain ⟨c₂', hall', h₂⟩ := hc.registerAll h.definitions hall
  have hroot : List.Forall₂ (fun e e' => Definition.SameBut own e.name e e')
      (c₂.missingRoot? d).toList (c₂'.missingRoot? d').toList := by
    rw [h₂.alikeByName.missingRoot? h.name h.origin]
    exact List.forall₂_same.mpr fun e _ => Definition.SameBut.refl own e
  obtain ⟨c₃', hlast', h₃⟩ := h₂.registerAll hroot hlast
  refine ⟨_, Catalogue.addDocument_ok_iff.mpr ⟨c₂', c₃', hall', hlast', rfl⟩, ?_⟩
  rw [h.name, h.errors]
  exact h₃.addErrors d.name d.errors

theorem SameBut.addDocuments (hc : Catalogue.SameBut own c c')
    (hdocs : List.Forall₂ (SameBut options own) docs docs') (hall : c.AddsAll options docs) :
    c'.AddsAll options docs' ∧
      Catalogue.SameBut own (c.addDocuments options docs) (c'.addDocuments options docs') := by
  induction hdocs generalizing c c' with
  | nil => exact ⟨trivial, hc⟩
  | @cons d d' docs docs' hd _ ih =>
    obtain ⟨hadded, hall⟩ := hall
    obtain ⟨c₁', hadded', hnext⟩ := hd.addDocument hc (Prod.ext hadded rfl)
    obtain rfl : (c'.addDocument options d').2 = c₁' := congrArg Prod.snd hadded'
    obtain ⟨hall', hlast⟩ := ih hnext hall
    exact ⟨⟨congrArg Prod.fst hadded', hall'⟩, hlast⟩

end Document

namespace Registry

/-- Types of other names are the same in the end, but for lists in a struct of one of the names. -/
theorem get?_sameBut {own : List String} {c c' : Catalogue} {log : List Definition}
    (h : c.SameBut own c') (haccounts : c.Accounts log) (hopen : c.finished = false) {name : String}
    (hname : name ∉ own) (haround : ∀ x, (ofCatalogue c.finish).get? name = some x →
      x.kind = .list → ∀ y, (ofCatalogue c.finish).types.enclosingStruct name = some y →
        y.name ∉ own) :
    (ofCatalogue c'.finish).get? name = (ofCatalogue c.finish).get? name := by
  have hopen' : c'.finished = false := h.finished.trans hopen
  have hnamed (space : String) (y : Definition) (hy : c.get? space = some y) : y.name = space :=
    (haccounts.stands space y hy).1
  rw [get?_finish hopen] at haround ⊢
  rw [get?_finish hopen']
  rcases h.get? name with ⟨hnone, hnone'⟩ | ⟨x, x', hx, hx', -, hsame⟩
  · rw [hnone, hnone', Option.map_none, Option.map_none]
  · rw [hx] at haround
    rw [hx, hx', hsame hname, Option.map_some, Option.map_some]
    rw [resolvedIn, resolvedIn, TypeTable.linkInner, TypeTable.linkInner, h.innerTypes]
    refine congrArg some (h.outlined.resolve fun hlist => h.enclosingStruct ?_ hnamed)
    rw [hnamed name x hx]
    intro y hy
    have hfinished : (resolvedIn c.types y).name = y.name := (resolvedIn_name_source_ref _ _).1
    rw [← hfinished]
    refine haround _ rfl ((kind_resolvedIn _ _).trans hlist) _ ?_
    rw [enclosingStruct_finish hopen, hy, Option.map_some]

end Registry

namespace Source

variable [Json.Reader]

/-- Two sources at one place of a build, with documents that differ in the aliases of types of the
given names only. -/
def Retold (options : Options) (own : List String) (s s' : Source) : Prop :=
  s'.1.isPlain = s.1.isPlain ∧
    ∀ d, s.document? = .ok d → ∃ d', s'.document? = .ok d' ∧ d.SameBut options own d'

variable {options : Options} {own : List String} {sources sources' : List Source}
  {docs : List Document}

theorem Retold.refl (options : Options) (own : List String) (s : Source) : Retold options own s s :=
  ⟨rfl, fun d hd => ⟨d, hd, .refl options own d⟩⟩

theorem retold_inOrder (h : List.Forall₂ (Retold options own) sources sources') :
    List.Forall₂ (Retold options own) (inOrder sources) (inOrder sources') := by
  have hgroup (plain : Bool) :
      List.Forall₂ (Retold options own) (ofGroup plain sources) (ofGroup plain sources') := by
    refine List.rel_filter (fun s s' hs => ?_) h
    change (s.1.isPlain == plain) = true ↔ (s'.1.isPlain == plain) = true
    rw [hs.1]
  exact List.rel_append (hgroup false) (hgroup true)

theorem retold_documents (h : List.Forall₂ (Retold options own) sources sources')
    (hdocs : List.Forall₂ (fun s d => document? s = .ok d) sources docs) :
    ∃ docs', List.Forall₂ (fun s d => document? s = .ok d) sources' docs' ∧
      List.Forall₂ (Document.SameBut options own) docs docs' := by
  induction h generalizing docs with
  | nil =>
    cases hdocs
    exact ⟨[], .nil, .nil⟩
  | cons hs _ ih =>
    cases hdocs with
    | cons hd hdocs =>
      obtain ⟨d', hd', hsame⟩ := hs.2 _ hd
      obtain ⟨docs', hdocs', hrest⟩ := ih hdocs
      exact ⟨d' :: docs', .cons hd' hdocs', .cons hsame hrest⟩

end Source

namespace Builder
open Source

/-- Where a source gives its document without the aliases of texts, a build succeeds as before. All
types that are not of the document are the same, unless they are lists and the nearest struct around
them is of the document. -/
theorem build_trimmed [Json.Reader] {b : Builder} {before after : List Source} {h : Heading}
    {content content' : Content} {d : Document} (hread : document? (h, content) = .ok d)
    (hread' : document? (h, content') = .ok (d.trimmed b.options)) {r : Registry}
    (hr : (b.build (before ++ (h, content) :: after)).1 = .ok r) :
    ∃ r', (b.build (before ++ (h, content') :: after)).1 = .ok r' ∧
      r'.names = r.names ∧ r'.files = r.files ∧
      ∀ name, name ∉ (d.definitions b.options).map Definition.name →
        (∀ x, r.get? name = some x → x.kind = .list →
          ∀ y, r.types.enclosingStruct name = some y →
            y.name ∉ (d.definitions b.options).map Definition.name) →
        r'.get? name = r.get? name := by
  let own := (d.definitions b.options).map Definition.name
  have hretold : Retold b.options own (h, content) (h, content') := by
    refine ⟨rfl, fun d₀ hd₀ => ⟨_, hread', ?_⟩⟩
    obtain rfl : d = d₀ := Except.ok.inj (hread.symm.trans hd₀)
    exact Document.sameBut_trimmed b.options d
  have hrest (sources : List Source) : List.Forall₂ (Retold b.options own) sources sources :=
    List.forall₂_same.mpr fun s _ => .refl b.options own s
  obtain ⟨hidle, docs, hdocs, hall, rfl⟩ := build_ok_iff.mp hr
  obtain ⟨docs', hdocs', hsame⟩ := retold_documents
    (retold_inOrder (List.rel_append (hrest before) (.cons hretold (hrest after)))) hdocs
  obtain ⟨hall', hlast⟩ := Document.SameBut.addDocuments (Catalogue.sameBut_empty own) hsame hall
  have hopen := Catalogue.finished_addDocuments b.options .empty docs
  have hopen' := Catalogue.finished_addDocuments b.options .empty docs'
  refine ⟨_, build_ok_iff.mpr ⟨hidle, docs', hdocs', hall', rfl⟩, ?_, ?_, fun name hname haround => ?_⟩
  · rw [Registry.names_finish hopen, Registry.names_finish hopen']
    exact hlast.types.keys
  · rw [Registry.files_finish, Registry.files_finish, hlast.files]
  · have haccounts := Catalogue.accounts_addDocuments b.options docs
    exact Registry.get?_sameBut hlast haccounts hopen hname haround

def aliasHeading : Heading := { name := "A", origin := some "A.jschema" }

def aliasTree : Json := .map [(.str "__typedefs", .map [(.str "X", .scalar (.str "int"))])]

def noAliasTree : Json := .map [(.str "__typedefs", .map [])]

def aliasOctets : List UInt8 := Text.encodeString (aliasTree.textIn .compact)

def noAliasOctets : List UInt8 := Text.encodeString (noAliasTree.textIn .compact)

/-- A list inside the struct by its name, and a struct with a list of its own. -/
def listSources : List Source :=
  [({ name := "A.b", origin := some "A.b.jschema" }, .octets (Text.encodeString "[\"X\"]")),
    ({ name := "B", origin := some "B.jschema" },
      .octets (Text.encodeString "\x7b\"l\": [\"A\"]\x7d"))]

theorem document_noAlias :
    aliasHeading.document (.ok noAliasOctets) =
      (aliasHeading.document (.ok aliasOctets)).trimmed {} := by
  have hparse {v : Json} (hv : v.IsDocument (Json.Readable (some Json.integerLimit))) :
      Json.parse (Text.encodeString (v.textIn .compact)) = ⟨v, []⟩ :=
    have hcompact : Json.SpacedOut .compact := trivial
    Json.parse_textIn (Json.follows_ofLimit _) hcompact hv
  have halias : Json.parse aliasOctets = ⟨aliasTree, []⟩ := hparse (by decide)
  have hnone : Json.parse noAliasOctets = ⟨noAliasTree, []⟩ := hparse (by decide)
  rw [Heading.document, Heading.document, Heading.parse, Heading.parse, halias, hnone]
  rfl

/-- The element of the list inside `A` gets its type from the alias, the other list does not. -/
theorem build_trimmed_inside :
    let d := aliasHeading.document (.ok aliasOctets)
    document? (aliasHeading, .octets aliasOctets) = .ok d ∧
    document? (aliasHeading, .octets noAliasOctets) = .ok (d.trimmed {}) ∧
    ∃ r r', ((Builder.new {}).build ((aliasHeading, .octets aliasOctets) :: listSources)).1 = .ok r ∧
      ((Builder.new {}).build ((aliasHeading, .octets noAliasOctets) :: listSources)).1 = .ok r' ∧
      (∀ name, name ∉ (d.definitions {}).map Definition.name →
        (∀ x, r.get? name = some x → x.kind = .list →
          ∀ y, r.types.enclosingStruct name = some y →
            y.name ∉ (d.definitions {}).map Definition.name) →
        r'.get? name = r.get? name) ∧
      r'.get? "B.l" = r.get? "B.l" ∧
      (∃ x, r.get? "A.b" = some x ∧ x.errors = []) ∧
      ∃ x', r'.get? "A.b" = some x' ∧ x'.errors ≠ [] := by
  intro d
  have hread : document? (aliasHeading, .octets aliasOctets) = .ok d := rfl
  have hread' : document? (aliasHeading, .octets noAliasOctets) = .ok (d.trimmed {}) :=
    congrArg Except.ok document_noAlias
  have hlisted : ∃ r ∈ ((Builder.new {}).build
      ([] ++ (aliasHeading, .octets aliasOctets) :: listSources)).1.toOption,
      (∃ x ∈ r.get? "A.b", x.errors = []) ∧
        "B.l" ∉ (d.definitions {}).map Definition.name ∧
        ∃ y ∈ r.types.enclosingStruct "B.l", y.name ∉ (d.definitions {}).map Definition.name := by
    decide +kernel
  have hlost : ∀ r' ∈ ((Builder.new {}).build
      ([] ++ (aliasHeading, .octets noAliasOctets) :: listSources)).1.toOption,
      ∃ x' ∈ r'.get? "A.b", x'.errors ≠ [] := by
    decide +kernel
  obtain ⟨r, hr, hx, hother, y, hy, haround⟩ := hlisted
  have hbuilt := ok_of_toOption hr
  obtain ⟨r', hbuilt', -, -, hsame⟩ := build_trimmed (b := .new {}) hread hread' hbuilt
  refine ⟨hread, hread', r, r', hbuilt, hbuilt', hsame, hsame "B.l" hother ?_, hx, ?_⟩
  · intro x _ _ y' hy'
    rw [Option.mem_def, hy'] at hy
    rw [Option.some.inj hy]
    exact haround
  · rw [hbuilt'] at hlost
    exact hlost r' rfl

end Builder
end Exemplar
