import Exemplar.Json.OctetReader
import Exemplar.Proofs.RegistrationHistory
import Exemplar.Schema.Build
import Mathlib.Data.List.Forall2

/-! The order of a build, and what becomes of everything that is registered. All plain samples are
taken in behind all other documents, and each group stays in the order in which its sources are
given. Every registration is found again in the types and in the lists of the sources. -/
namespace Exemplar

/-- What content gives to a build that is running: a build that the content asks for is refused. -/
def Content.whileBuilding : Content → Except BuildError (Except String (List UInt8))
  | .octets data => .ok (.ok data)
  | .unreadable reason => .ok (.error reason)
  | .requestsBuild _ none => .error .inProgress
  | .requestsBuild _ (some next) => next.whileBuilding

theorem Builder.run_busy {b : Builder} (hbusy : b.building = true)
    (collect : Bool → Builder → Catalogue → Except BuildError Catalogue × Builder) :
    b.run collect = (.error .inProgress, b) := by
  rw [Builder.run, Builder.start, hbusy]
  rfl

theorem Content.read_building [Json.Reader] {b : Builder} (hbusy : b.building = true) :
    (content : Content) → content.read b = (content.whileBuilding, b)
  | .octets _ => by
    rw [Content.read, Content.whileBuilding]
  | .unreadable _ => by
    rw [Content.read, Content.whileBuilding]
  | .requestsBuild _ none => by
    rw [Content.read, Builder.run_busy hbusy, Content.whileBuilding]
  | .requestsBuild _ (some next) => by
    rw [Content.read, Builder.run_busy hbusy, Content.whileBuilding]
    exact Content.read_building hbusy next

theorem Heading.origin_document [Json.Reader] (h : Heading) (data : Except String (List UInt8)) :
    (h.document data).origin = h.identity := by
  change (if h.identity = "" then h.name else h.identity) = h.identity
  split
  · next hempty =>
    rw [hempty]
    rw [identity] at hempty
    split at hempty
    · exact hempty
    · next hne horigin => exact (hne hempty).elim
    · exact hempty
  · rfl

def Catalogue.AddsAll (options : Options) (c : Catalogue) : List Document → Prop
  | [] => True
  | d :: docs =>
    (c.addDocument options d).1 = .ok () ∧ (c.addDocument options d).2.AddsAll options docs

namespace Source

variable [Json.Reader]

def document? (s : Source) : Except BuildError Document := s.2.whileBuilding.map s.1.document

def takeIn (options : Options) (c : Catalogue) (s : Source) : Except BuildError Catalogue :=
  s.2.whileBuilding.bind (s.1.collect options c)

def takeAll (options : Options) (c : Catalogue) (sources : List Source) :
    Except BuildError Catalogue :=
  sources.foldlM (takeIn options) c

def ofGroup (plain : Bool) (sources : List Source) : List Source :=
  sources.filter fun s => s.1.isPlain == plain

/-- The sources in the order in which a build takes them in. -/
def inOrder (sources : List Source) : List Source :=
  ofGroup false sources ++ ofGroup true sources

variable {options : Options} {c c' : Catalogue} {s : Source} {sources : List Source} {b : Builder}

theorem takeAll_cons (options : Options) (c : Catalogue) (s : Source) (sources : List Source) :
    takeAll options c (s :: sources) =
      (takeIn options c s).bind fun c => takeAll options c sources := by
  rw [takeAll, List.foldlM_cons]
  rfl

theorem takeAll_append (options : Options) (c : Catalogue) (sources more : List Source) :
    takeAll options c (sources ++ more) =
      (takeAll options c sources).bind fun c => takeAll options c more := by
  rw [takeAll, List.foldlM_append]
  rfl

theorem collect_building (hbusy : b.building = true) (plain : Bool) (c : Catalogue)
    (sources : List Source) :
    Source.collect plain b c sources = (takeAll b.options c (ofGroup plain sources), b) := by
  induction sources generalizing c with
  | nil => rfl
  | cons s sources ih =>
    obtain ⟨heading, content⟩ := s
    rw [Source.collect, ofGroup, List.filter_cons, Content.read_building hbusy]
    by_cases hkind : heading.isPlain = plain
    · rw [if_pos hkind, if_pos (beq_iff_eq.mpr hkind), takeAll_cons, takeIn]
      cases content.whileBuilding with
      | error e => rfl
      | ok data =>
        simp only [Except.bind]
        cases heading.collect b.options c data with
        | error e => rfl
        | ok c => exact ih c
    · rw [if_neg hkind, if_neg (mt beq_iff_eq.mp hkind)]
      exact ih c

theorem takeAll_one (options : Options) (c : Catalogue) (s : Source) :
    takeAll options c [s] = takeIn options c s := by
  rw [takeAll, List.foldlM_cons]
  exact bind_pure _

theorem takeIn_octets (options : Options) (c : Catalogue) (h : Heading) (data : List UInt8) :
    takeIn options c (h, .octets data) = h.collect options c (.ok data) := by
  rw [takeIn, Content.whileBuilding]
  rfl

/-- A build takes in the sources in order and finishes the types. -/
theorem build_inOrder (hidle : b.building = false) (sources : List Source) :
    (b.build sources).1 =
      (takeAll b.options .empty (inOrder sources)).map fun c => .ofCatalogue c.finish := by
  have hbusy : ({ b with building := true } : Builder).building = true := rfl
  rw [Builder.build, Builder.run, Builder.start, hidle, inOrder, takeAll_append]
  simp only [Bool.false_eq_true, if_false, collect_building hbusy]
  cases takeAll b.options .empty (ofGroup false sources) with
  | error e => rfl
  | ok c =>
    simp only [Except.bind, collect_building hbusy]
    cases takeAll b.options c (ofGroup true sources) <;> rfl

theorem ofSources_inOrder (options : Options) (sources : List Source) :
    Registry.ofSources options sources =
      (takeAll options .empty (inOrder sources)).map fun c => .ofCatalogue c.finish :=
  build_inOrder (b := .new options) rfl sources

theorem build_busy (hbusy : b.building = true) (sources : List Source) :
    (b.build sources).1 = .error .inProgress := by
  rw [Builder.build, Builder.run_busy hbusy]

theorem takeIn_ok_iff : takeIn options c s = .ok c' ↔
    ∃ d, s.document? = .ok d ∧ c.addDocument options d = (.ok (), c') := by
  obtain ⟨heading, content⟩ := s
  rw [takeIn, document?]
  cases content.whileBuilding with
  | error e => simp [Except.bind, Except.map]
  | ok data =>
    simp only [Except.bind, Except.map, Heading.collect, Except.ok.injEq, exists_eq_left']
    cases c.addDocument options (heading.document data) with
    | mk result c₁ =>
      cases result with
      | error f => simp
      | ok =>
        simp only [Except.ok.injEq, Prod.mk.injEq, true_and]

/-- Sources are taken in if each document can be read, and added behind those before it. -/
theorem takeAll_ok_iff : takeAll options c sources = .ok c' ↔
    ∃ docs, List.Forall₂ (fun s d => s.document? = .ok d) sources docs ∧
      c.AddsAll options docs ∧ c.addDocuments options docs = c' := by
  induction sources generalizing c with
  | nil =>
    constructor
    · intro h
      cases h
      exact ⟨[], .nil, trivial, rfl⟩
    · rintro ⟨docs, hdocs, -, rfl⟩
      cases hdocs
      rfl
  | cons s sources ih =>
    rw [takeAll_cons]
    constructor
    · intro h
      cases hfirst : takeIn options c s with
      | error e =>
        rw [hfirst] at h
        cases h
      | ok c₁ =>
        rw [hfirst] at h
        obtain ⟨d, hd, hadded⟩ := takeIn_ok_iff.mp hfirst
        obtain ⟨docs, hdocs, hall, hlast⟩ := ih.mp h
        refine ⟨d :: docs, .cons hd hdocs, ⟨by rw [hadded], ?_⟩, ?_⟩
        · rwa [hadded]
        · rw [Catalogue.addDocuments, List.foldl_cons, hadded]
          exact hlast
    · rintro ⟨docs, hdocs, hall, hlast⟩
      cases hdocs with
      | @cons _ d _ docs hd hdocs =>
        obtain ⟨hadded, hall⟩ := hall
        rw [takeIn_ok_iff.mpr ⟨d, hd, Prod.ext hadded rfl⟩]
        exact ih.mpr ⟨docs, hdocs, hall, hlast⟩

/-- Reading reports no replacement. -/
theorem quiet_document {d : Document} (h : s.document? = .ok d) :
    ∀ x ∈ d.errors, x.kind ≠ .nameCollision := by
  obtain ⟨heading, content⟩ := s
  rw [document?] at h
  cases hcontent : content.whileBuilding with
  | error e =>
    rw [hcontent] at h
    cases h
  | ok data =>
    rw [hcontent] at h
    cases h
    intro x hx
    change x ∈ (heading.parse data).errors at hx
    cases data with
    | error reason =>
      rw [List.mem_singleton.mp hx]
      simp [Diagnostic.placeless]
    | ok data =>
      obtain ⟨p, -, rfl⟩ := Option.map_eq_some_iff.mp (Option.mem_toList.mp hx)
      simp [Json.problemDiagnostic]

theorem exists_source {docs : List Document}
    (h : List.Forall₂ (fun s d => document? s = .ok d) sources docs) :
    ∀ d ∈ docs, ∃ s ∈ sources, s.document? = .ok d := by
  induction h with
  | nil => exact List.forall_mem_nil _
  | cons hd _ ih =>
    refine List.forall_mem_cons.mpr ⟨⟨_, List.mem_cons_self, hd⟩, fun d hmem => ?_⟩
    obtain ⟨s, hs, hread⟩ := ih d hmem
    exact ⟨s, List.mem_cons_of_mem _ hs, hread⟩

theorem split_documents {more : List Source} {docs : List Document}
    (h : List.Forall₂ (fun s d => document? s = .ok d) (sources ++ more) docs) :
    ∃ ds ds', docs = ds ++ ds' ∧ List.Forall₂ (fun s d => document? s = .ok d) sources ds ∧
      List.Forall₂ (fun s d => document? s = .ok d) more ds' := by
  refine ⟨docs.take sources.length, docs.drop sources.length, (List.take_append_drop _ _).symm, ?_, ?_⟩
  · simpa using List.forall₂_take sources.length h
  · simpa using List.forall₂_drop sources.length h

/-- A build succeeds if no other one is running and all documents can be read and added, first those
that are no plain samples. -/
theorem build_ok_iff {r : Registry} : (b.build sources).1 = .ok r ↔ b.building = false ∧
    ∃ docs, List.Forall₂ (fun s d => document? s = .ok d) (inOrder sources) docs ∧
      Catalogue.empty.AddsAll b.options docs ∧
      r = .ofCatalogue (Catalogue.empty.addDocuments b.options docs).finish := by
  cases hbusy : b.building with
  | true =>
    rw [build_busy hbusy]
    simp
  | false =>
    rw [build_inOrder hbusy]
    constructor
    · intro h
      cases hall : takeAll b.options .empty (inOrder sources) with
      | error e =>
        rw [hall] at h
        cases h
      | ok c =>
        rw [hall] at h
        cases h
        obtain ⟨docs, hdocs, hadds, rfl⟩ := takeAll_ok_iff.mp hall
        exact ⟨rfl, docs, hdocs, hadds, rfl⟩
    · rintro ⟨-, docs, hdocs, hadds, rfl⟩
      rw [takeAll_ok_iff.mpr ⟨docs, hdocs, hadds, rfl⟩]
      rfl

end Source

theorem Registry.exists_of_isSome {built : Except BuildError Registry}
    (h : built.toOption.isSome = true) : ∃ r, built = .ok r := by
  obtain ⟨r, hr⟩ := Option.isSome_iff_exists.mp h
  exact ⟨r, ok_of_toOption hr⟩

namespace Catalogue

/-- What can be seen of a history in a catalogue: the names of the types are those in the lists of
the sources, each list is the part of the history that its source has, the type of a name is what was
registered last under it, and it carries the diagnostic of a replacement if and only if the name
occurs in the lists more than once. -/
structure Accounted (log : List Definition) (c : Catalogue) : Prop where
  names : ∀ name, name ∈ Assoc.keys c.types ↔ ∃ list ∈ c.files, name ∈ list.2
  listed : ∀ source, (c.files.get? source).getD [] =
    (log.filter fun d => d.source = source).map Definition.name
  last : ∀ name d, c.get? name = some d → d.name = name ∧
    name ∈ (c.files.get? d.source).getD [] ∧
    ∃ e, (log.filter fun x => x.name = name).getLast? = some e ∧ d.source = e.source ∧
      d.shape = e.shape
  marked : ∀ name d, c.get? name = some d →
    (Collided d ↔ 2 ≤ (c.files.flatMap Prod.snd).count name)

variable {options : Options} {c : Catalogue} {log : List Definition}

theorem Accounts.mem_keys_iff (h : Accounts log c) (name : String) :
    name ∈ Assoc.keys c.types ↔ name ∈ log.map Definition.name := by
  rw [← Assoc.has_iff, Assoc.has]
  constructor
  · intro hsome
    obtain ⟨d, hd⟩ := Option.isSome_iff_exists.mp hsome
    obtain ⟨rfl, ⟨e, he, -⟩, -⟩ := h.stands name d hd
    obtain ⟨hmem, hname⟩ := List.mem_filter.mp (List.mem_of_getLast? he)
    exact List.mem_map.mpr ⟨e, hmem, of_decide_eq_true hname⟩
  · intro hmem
    obtain ⟨d, hd, rfl⟩ := List.mem_map.mp hmem
    obtain ⟨x, hx⟩ := h.known d hd
    exact Option.isSome_iff_exists.mpr ⟨x, hx⟩

theorem Accounts.accounted (h : Accounts log c) (hmarked : Marked c) : Accounted log c where
  names name := by
    rw [h.mem_keys_iff, ← h.lists.mem_iff, List.mem_flatMap]
  listed := h.listed
  last name d hd := by
    obtain ⟨rfl, hstands⟩ := h.stands name d hd
    obtain ⟨e, he, hsource, hshape⟩ := hstands.last
    obtain ⟨hmem, hname⟩ := List.mem_filter.mp (List.mem_of_getLast? he)
    refine ⟨rfl, ?_, e, he, hsource, hshape⟩
    rw [h.listed]
    refine List.mem_map.mpr ⟨e, List.mem_filter.mpr ⟨hmem, ?_⟩, of_decide_eq_true hname⟩
    exact decide_eq_true hsource.symm
  marked name d hd := by
    obtain ⟨rfl, hstands⟩ := h.stands name d hd
    rw [hmarked _ d hd, h.lists.count_eq, ← hstands.edition]
    omega

theorem history_append (options : Options) (c : Catalogue) (docs more : List Document) :
    c.history options (docs ++ more) =
      c.history options docs ++ (c.addDocuments options docs).history options more := by
  induction docs generalizing c with
  | nil => rfl
  | cons d docs ih =>
    rw [List.cons_append, history, history, ih, List.append_assoc]
    rfl

/-- Everything that is registered is accounted for, whatever documents are taken in. In a build, the
documents that are no plain samples register first, and each group registers in the given order. -/
theorem registrations_accounted [Json.Reader] (options : Options) :
    (∀ docs : List Document, (∀ d ∈ docs, ∀ x ∈ d.errors, x.kind ≠ .nameCollision) →
      Accounted (empty.history options docs) (empty.addDocuments options docs)) ∧
    ∀ (b : Builder) (sources : List Source) (r : Registry), b.options = options →
      (b.build sources).1 = .ok r →
        ∃ schemas samples, List.Forall₂ (fun s d => Source.document? s = .ok d)
            (sources.filter fun s => s.1.isPlain == false) schemas ∧
          List.Forall₂ (fun s d => Source.document? s = .ok d)
            (sources.filter fun s => s.1.isPlain == true) samples ∧
          r = .ofCatalogue (empty.addDocuments options (schemas ++ samples)).finish ∧
          empty.history options (schemas ++ samples) = empty.history options schemas ++
            (empty.addDocuments options schemas).history options samples ∧
          Accounted (empty.history options (schemas ++ samples))
            (empty.addDocuments options (schemas ++ samples)) := by
  have hdocs (docs : List Document) (hquiet : ∀ d ∈ docs, ∀ x ∈ d.errors, x.kind ≠ .nameCollision) :
      Accounted (empty.history options docs) (empty.addDocuments options docs) := by
    have hempty : Marked empty := fun _ _ h => by cases h
    exact (accounts_addDocuments options docs).accounted (hempty.addDocuments options hquiet)
  refine ⟨hdocs, fun b sources r hoptions hr => ?_⟩
  obtain ⟨-, docs, hread, -, hregistry⟩ := Source.build_ok_iff.mp hr
  rw [hoptions] at hregistry
  have hquiet : ∀ d ∈ docs, ∀ x ∈ d.errors, x.kind ≠ .nameCollision := by
    intro d hd
    obtain ⟨s, -, hs⟩ := Source.exists_source hread d hd
    exact Source.quiet_document hs
  obtain ⟨schemas, samples, rfl, hschemas, hsamples⟩ := Source.split_documents hread
  exact ⟨schemas, samples, hschemas, hsamples, hregistry, history_append options empty schemas samples,
    hdocs _ hquiet⟩

def doubled : Document :=
  { name := "N"
    source := "N.jschema"
    value := .map [(.str "__typedefs", .map [(.str "a", .map [])]), (.str "a", .map [])] }

def sampleBeforeSchema : List Source :=
  [({ name := "M", kind := .sample, origin := some "M.json" }, .octets (Text.encodeString "[5]")),
    ({ name := "N", origin := some "N.jschema" }, .octets (Text.encodeString "\x7b\x7d"))]

theorem registrations_accounted_doubled :
    ((∀ d ∈ [doubled], ∀ x ∈ d.errors, x.kind ≠ .nameCollision) ∧
      Accounted (empty.history {} [doubled]) (empty.addDocuments {} [doubled])) ∧
    ∃ r, ((Builder.new {}).build sampleBeforeSchema).1 = .ok r ∧
      ∃ schemas samples, List.Forall₂ (fun s d => Source.document? s = .ok d)
          (sampleBeforeSchema.filter fun s => s.1.isPlain == false) schemas ∧
        List.Forall₂ (fun s d => Source.document? s = .ok d)
          (sampleBeforeSchema.filter fun s => s.1.isPlain == true) samples ∧
        r = .ofCatalogue (empty.addDocuments {} (schemas ++ samples)).finish ∧
        empty.history {} (schemas ++ samples) = empty.history {} schemas ++
          (empty.addDocuments {} schemas).history {} samples ∧
        Accounted (empty.history {} (schemas ++ samples))
          (empty.addDocuments {} (schemas ++ samples)) := by
  have hquiet : ∀ d ∈ [doubled], ∀ x ∈ d.errors, x.kind ≠ .nameCollision := by decide
  have hbuilds : ∃ r, ((Builder.new {}).build sampleBeforeSchema).1 = .ok r :=
    Registry.exists_of_isSome (by decide +kernel)
  obtain ⟨r, hr⟩ := hbuilds
  exact ⟨⟨hquiet, (registrations_accounted {}).1 [doubled] hquiet⟩, r, hr,
    (registrations_accounted {}).2 (Builder.new {}) sampleBeforeSchema r rfl hr⟩

example : (doubled.definitions {}).map Definition.name = ["N.a", "N.a", "N"] := by
  decide +kernel

end Catalogue
end Exemplar
