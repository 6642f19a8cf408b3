import Exemplar.Text.Console
import Exemplar.Proofs.BuildOrder
import Exemplar.Proofs.ParsedDocuments
import Exemplar.Proofs.Replacement
import Mathlib.Data.List.Permutation

/-! Builds of a plain sample together with another document. Plain samples come last, whatever the
order of the sources, so the types of the sample take the place of those of the other document. -/
namespace Exemplar
open Json Inference

namespace Registry

variable {options : Options} {h h' : Heading} {data data' : List UInt8}

theorem ofSources_one [Json.Reader] (options : Options) (h : Heading) (data : List UInt8) :
    ofSources options [(h, .octets data)] =
      (h.collect options .empty (.ok data)).map fun c => ofCatalogue c.finish := by
  have horder : Source.inOrder [(h, .octets data)] = [(h, .octets data)] := by
    cases hkind : h.isPlain <;> simp [Source.inOrder, Source.ofGroup, hkind]
  rw [Source.ofSources_inOrder, horder, Source.takeAll_one, Source.takeIn_octets]

/-- A build of two sources takes in the plain sample last. -/
theorem ofSources_two [Json.Reader] (options : Options) (hschema : h.isPlain = false)
    (hsample : h'.isPlain = true) {sources : List Source}
    (hsources : sources.Perm [(h, .octets data), (h', .octets data')]) :
    ofSources options sources =
      (h.collect options .empty (.ok data)).bind fun c =>
        (h'.collect options c (.ok data')).map fun c => ofCatalogue c.finish := by
  have horder : Source.inOrder sources = [(h, .octets data), (h', .octets data')] := by
    rcases List.perm_pair.mp hsources with rfl | rfl <;>
      simp [Source.inOrder, Source.ofGroup, hschema, hsample]
  rw [Source.ofSources_inOrder, horder, Source.takeAll_cons, Source.takeIn_octets]
  cases h.collect options .empty (.ok data) with
  | error e => rfl
  | ok c =>
    simp only [Except.bind]
    rw [Source.takeAll_one, Source.takeIn_octets]

/-- Every replacement of a type of the first registry by one of the other can be announced. -/
def Announceable (console : Text.Console) (alone first : Registry) : Prop :=
  ∀ name new old, alone.get? name = some new → first.get? name = some old →
    console.print s!"[yellow]{(Catalogue.collision new old).message}[/yellow]" = .ok ()

/-- What can be announced of finished types could be announced when they were registered. -/
theorem announceable_iff {c c₀ : Catalogue} {d : Document} {q : Scalar → Prop}
    (hv : IsDocument q d.value) (h₀ : d.Added .empty c₀) (hopen : c.finished = false) :
    Announceable options.console (ofCatalogue c₀.finish) (ofCatalogue c.finish) ↔
      ∀ e ∈ d.defined, c.announce options.console e = .ok () := by
  have hcollision (e old : Definition) :
      Catalogue.collision (resolvedIn c₀.types (d.taken .empty e)) (resolvedIn c.types old) =
        Catalogue.collision e old := by
    obtain ⟨hname, hsource, -⟩ := resolvedIn_name_source_ref c₀.types (d.taken .empty e)
    exact Catalogue.collision_congr (hname.trans (d.name_taken .empty e))
      (hsource.trans (d.source_taken .empty e)) (resolvedIn_name_source_ref c.types old).2.1
  have halone {name : String} {v : Json} {e : Definition} (hsite : (name, v) ∈ sites d.name d.root)
      (hat : definitionAt d.origin (name, v) = some e) :
      (ofCatalogue c₀.finish).get? e.name = some (resolvedIn c₀.types (d.taken .empty e)) := by
    have hget := get?_later h₀ hv rfl hsite
    rw [hat] at hget
    rw [(made_at hat).1]
    exact hget
  constructor
  · intro hquiet e he
    obtain ⟨⟨name, v⟩, hsite, hat⟩ := List.mem_filterMap.mp he
    rw [Catalogue.announce_iff]
    intro old hold
    have hfirst : (ofCatalogue c.finish).get? e.name = some (resolvedIn c.types old) := by
      rw [get?_finish hopen, hold, Option.map_some]
    have hprinted := hquiet e.name _ _ (halone hsite hat) hfirst
    rw [hcollision] at hprinted
    exact hprinted
  · intro hquiet name new old hnew hold
    obtain ⟨v, e, hsite, hat⟩ := defined_later h₀ hnew
    have hname : e.name = name := (made_at hat).1
    have hget := halone hsite hat
    rw [hname, hnew] at hget
    rw [get?_finish hopen] at hold
    obtain ⟨before, hbefore, rfl⟩ := Option.map_eq_some_iff.mp hold
    have he : e ∈ d.defined := List.mem_filterMap.mpr ⟨_, hsite, hat⟩
    have hprinted := Catalogue.announce_iff.mp (hquiet e he) before (by rw [hname]; exact hbefore)
    rw [Option.some.inj hget, hcollision]
    exact hprinted

/-- Names and sources without brackets and backslashes can be announced. -/
theorem announceable_of_unmarked {console : Text.Console} {alone first : Registry}
    (h : ∀ e ∈ alone.types, ∀ e' ∈ first.types, e.1 = e'.1 →
      Text.Markup.Unmarked (Catalogue.collision e.2 e'.2).message.toList) :
    Announceable console alone first := by
  intro name new old hnew hold
  obtain ⟨place, hplace, hname⟩ := Assoc.get?_mem hnew
  obtain ⟨place', hplace', hname'⟩ := Assoc.get?_mem hold
  have hsame : place = place' := (beq_iff_eq.mp hname).trans (beq_iff_eq.mp hname').symm
  exact (console.unmarked _ (h (place, new) hplace (place', old) hplace' hsame)).1

section Together

variable [Json.Reader]

theorem of_collect {c : Catalogue} (hc : h.collect options .empty (.ok data) = .ok c) :
    Catalogue.Of h.identity c := by
  rw [Heading.collect] at hc
  split at hc
  · next c' hadded =>
    cases hc
    have hempty := Catalogue.of_empty (h.document (.ok data)).origin
    have hof := hempty.addDocument options hadded
    rw [h.origin_document] at hof
    exact hof
  · cases hc

theorem collect_alone (options : Options) (hsample : h.isPlain = true) (data : List UInt8) :
    ∃ c, h.collect options .empty (.ok data) = .ok c ∧ (h.document (.ok data)).Added .empty c := by
  obtain ⟨c, hadded, h₀⟩ := (h.document (.ok data)).added_addDocument options hsample
    (isDocument_parse data) (c := .empty) nofun fun _ _ => rfl
  refine ⟨c, ?_, h₀⟩
  rw [Heading.collect, hadded]

theorem added_of_collect (hsample : h.isPlain = true) {c : Catalogue}
    (hc : h.collect options .empty (.ok data) = .ok c) :
    (h.document (.ok data)).Added .empty c := by
  obtain ⟨c₁, hc₁, h₁⟩ := collect_alone options hsample data
  rw [hc] at hc₁
  cases hc₁
  exact h₁

theorem foreign_of {c : Catalogue} {source : String} (hof : Catalogue.Of source c)
    (hforeign : source ≠ h.identity) (read : Except String (List UInt8)) (old : Definition)
    (hold : c.get? h.name = some old) : old.source ≠ (h.document read).origin := by
  rw [hof.own h.name old hold, h.origin_document]
  exact hforeign

theorem collect_later (options : Options) (hsample : h.isPlain = true) {c c₀ : Catalogue}
    {source : String} (hof : Catalogue.Of source c) (hforeign : source ≠ h.identity)
    (h₀ : (h.document (.ok data)).Added .empty c₀)
    (hquiet : Announceable options.console (ofCatalogue c₀.finish) (ofCatalogue c.finish)) :
    ∃ c', h.collect options c (.ok data) = .ok c' ∧ (h.document (.ok data)).Added c c' := by
  have hv : IsDocument (fun _ => True) (h.document (.ok data)).value := isDocument_parse data
  obtain ⟨c', hadded, hlater⟩ := (h.document (.ok data)).added_addDocument options hsample hv
    (foreign_of hof hforeign _) ((announceable_iff hv h₀ hof.unfinished).mp hquiet)
  refine ⟨c', ?_, hlater⟩
  rw [Heading.collect, hadded]

theorem collect_failed (options : Options) (hsample : h.isPlain = true) {c c₀ : Catalogue}
    {source : String} (hof : Catalogue.Of source c) (hforeign : source ≠ h.identity)
    (h₀ : (h.document (.ok data)).Added .empty c₀)
    (hloud : ¬Announceable options.console (ofCatalogue c₀.finish) (ofCatalogue c.finish)) :
    ∃ f, h.collect options c (.ok data) = .error (.announcement f) := by
  have hv : IsDocument (fun _ => True) (h.document (.ok data)).value := isDocument_parse data
  rw [announceable_iff hv h₀ hof.unfinished] at hloud
  obtain ⟨f, c', hfailed⟩ := (h.document (.ok data)).failed_addDocument options hsample hv
    (foreign_of hof hforeign _) hloud
  refine ⟨f, ?_⟩
  rw [Heading.collect, hfailed]

theorem exists_collect {r : Registry} (hr : ofSources options [(h, .octets data)] = .ok r) :
    ∃ c, h.collect options .empty (.ok data) = .ok c ∧ ofCatalogue c.finish = r := by
  rw [ofSources_one] at hr
  cases hc : h.collect options .empty (.ok data) with
  | error e =>
    rw [hc] at hr
    cases hr
  | ok c =>
    rw [hc] at hr
    exact ⟨c, rfl, Except.ok.inj hr⟩

variable {first alone : Registry} {sources : List Source}

/-- The types of a sample are restated behind those of another document. -/
theorem exists_restates (hschema : h.isPlain = false) (hsample : h'.isPlain = true)
    (hforeign : h.identity ≠ h'.identity)
    (hfirst : ofSources options [(h, .octets data)] = .ok first)
    (halone : ofSources options [(h', .octets data')] = .ok alone)
    (hsources : sources.Perm [(h, .octets data), (h', .octets data')])
    (hquiet : Announceable options.console alone first) :
    ∃ r, ofSources options sources = .ok r ∧ ∀ name x, alone.get? name = some x →
      ∃ x', r.get? name = some x' ∧ Restates r alone first x x' := by
  obtain ⟨c, hc, rfl⟩ := exists_collect hfirst
  obtain ⟨c₀, hc₀, rfl⟩ := exists_collect halone
  have hof := of_collect hc
  have h₀ := added_of_collect hsample hc₀
  obtain ⟨c', hlast, hlater⟩ := collect_later options hsample hof hforeign h₀ hquiet
  refine ⟨ofCatalogue c'.finish, ?_, fun name x hx => ?_⟩
  · rw [ofSources_two options hschema hsample hsources, hc]
    simp only [Except.bind, hlast]
    rfl
  · exact restates_later hlater h₀ (isDocument_parse data') hof.unfinished hx

/-- A replacement that cannot be announced is all that can go wrong. -/
theorem exists_error (hschema : h.isPlain = false) (hsample : h'.isPlain = true)
    (hforeign : h.identity ≠ h'.identity)
    (hfirst : ofSources options [(h, .octets data)] = .ok first)
    (halone : ofSources options [(h', .octets data')] = .ok alone)
    (hsources : sources.Perm [(h, .octets data), (h', .octets data')])
    (hloud : ¬Announceable options.console alone first) :
    ∃ f, ofSources options sources = .error (.announcement f) := by
  obtain ⟨c, hc, rfl⟩ := exists_collect hfirst
  obtain ⟨c₀, hc₀, rfl⟩ := exists_collect halone
  have h₀ := added_of_collect hsample hc₀
  obtain ⟨f, hfailed⟩ := collect_failed options hsample (of_collect hc) hforeign h₀ hloud
  refine ⟨f, ?_⟩
  rw [ofSources_two options hschema hsample hsources, hc]
  simp only [Except.bind, hfailed]
  rfl

end Together

/-- A plain sample that is built together with another document, in whatever order. If what it
replaces can be announced, the build succeeds, and each type of the sample is what it is when the
sample is built alone, save that places where only the other document has a type refer to that.
Otherwise the build fails. -/
theorem restates_ofSources [Json.Reader] (options : Options) {h₁ h₂ : Heading}
    (hschema : h₁.isPlain = false) (hsample : h₂.isPlain = true)
    (hforeign : h₁.identity ≠ h₂.identity) (data₁ data₂ : List UInt8) {first : Registry}
    (hfirst : ofSources options [(h₁, .octets data₁)] = .ok first) :
    ∃ alone, ofSources options [(h₂, .octets data₂)] = .ok alone ∧
      ∀ sources : List Source, sources.Perm [(h₁, .octets data₁), (h₂, .octets data₂)] →
        (Announceable options.console alone first →
          ∃ r, ofSources options sources = .ok r ∧ ∀ name x, alone.get? name = some x →
            ∃ x', r.get? name = some x' ∧ Restates r alone first x x') ∧
        (¬Announceable options.console alone first →
          ∃ f, ofSources options sources = .error (.announcement f)) := by
  obtain ⟨c₀, hc₀, -⟩ := collect_alone options hsample data₂
  have halone : ofSources options [(h₂, .octets data₂)] = .ok (ofCatalogue c₀.finish) := by
    rw [ofSources_one, hc₀]
    rfl
  refine ⟨_, halone, fun sources hsources => ⟨fun hquiet => ?_, fun hloud => ?_⟩⟩
  · exact exists_restates hschema hsample hforeign hfirst halone hsources hquiet
  · exact exists_error hschema hsample hforeign hfirst halone hsources hloud

def schemaHeading : Heading := { name := "N", origin := some "N.jschema" }

def sampleHeading : Heading := { name := "N", kind := .sample, origin := some "N.json" }

/-- A schema with a struct where the sample has a number, and another one where it has a struct. -/
def schemaOctets : List UInt8 :=
  Text.encodeString "\x7b\"a\": \x7b\"x\": \"int\"\x7d, \"b\": \x7b\"x\": \"int\"\x7d\x7d"

def sampleOctets : List UInt8 :=
  Text.encodeString "\x7b\"a\": 5, \"b\": \x7b\"y\": true\x7d\x7d"

theorem schema_builds : ∃ first, ofSources {} [(schemaHeading, .octets schemaOctets)] = .ok first :=
  exists_of_isSome (by decide +kernel)

theorem sample_builds : ∃ alone, ofSources {} [(sampleHeading, .octets sampleOctets)] = .ok alone :=
  exists_of_isSome (by decide +kernel)

theorem announceable_sample (console : Text.Console) {first alone : Registry}
    (hfirst : ofSources {} [(schemaHeading, .octets schemaOctets)] = .ok first)
    (halone : ofSources {} [(sampleHeading, .octets sampleOctets)] = .ok alone) :
    Announceable console alone first := by
  have hunmarked : ((ofSources {} [(schemaHeading, .octets schemaOctets)]).toOption.all fun first =>
      (ofSources {} [(sampleHeading, .octets sampleOctets)]).toOption.all fun alone =>
        alone.types.all fun e => first.types.all fun e' =>
          e.1 != e'.1 || decide (Text.Markup.Unmarked (Catalogue.collision e.2 e'.2).message.toList)) =
        true := by
    decide +kernel
  rw [hfirst, halone] at hunmarked
  refine announceable_of_unmarked fun e he e' he' hsame => ?_
  have hpair := List.all_eq_true.mp (List.all_eq_true.mp hunmarked e he) e' he'
  rw [hsame] at hpair
  simpa using hpair

theorem restates_ofSources_sample : ∃ first alone,
    ofSources {} [(schemaHeading, .octets schemaOctets)] = .ok first ∧
    ofSources {} [(sampleHeading, .octets sampleOctets)] = .ok alone ∧
    Announceable Text.Markup.console alone first ∧
      ∀ sources : List Source,
        sources.Perm [(schemaHeading, .octets schemaOctets), (sampleHeading, .octets sampleOctets)] →
          ∃ r, ofSources {} sources = .ok r ∧ ∀ name x, alone.get? name = some x →
            ∃ x', r.get? name = some x' ∧ Restates r alone first x x' := by
  obtain ⟨first, hfirst⟩ := schema_builds
  have hsample : sampleHeading.isPlain = true := rfl
  have hforeign : schemaHeading.identity ≠ sampleHeading.identity := by decide
  obtain ⟨alone, halone, hrest⟩ :=
    restates_ofSources {} rfl hsample hforeign schemaOctets sampleOctets hfirst
  have hquiet := announceable_sample Text.Markup.console hfirst halone
  exact ⟨first, alone, hfirst, halone, hquiet, fun sources hsources =>
    (hrest sources hsources).1 hquiet⟩

/-- Alone the number is an integer; behind the schema it has the struct that the schema left. -/
theorem field_type_of_left : ∃ alone r x x' f f' left,
    ofSources {} [(sampleHeading, .octets sampleOctets)] = .ok alone ∧
    ofSources {} [(schemaHeading, .octets schemaOctets), (sampleHeading, .octets sampleOctets)] =
      .ok r ∧
    alone.get? "N" = some x ∧ x.field? "a" = some f ∧ f.type = some (.primitive .int) ∧
    r.get? "N" = some x' ∧ x'.source = "N.json" ∧ x'.field? "a" = some f' ∧
    r.get? "N.a" = some left ∧ left.source = "N.jschema" ∧ f'.type = some left.ref ∧
    f'.type ≠ f.type := by
  have hinteger : ∀ alone ∈ (ofSources {} [(sampleHeading, .octets sampleOctets)]).toOption,
      alone.get? "N.a" = none ∧ ∃ x ∈ alone.get? "N", x.source = "N.json" ∧
        ∃ f ∈ x.field? "a", Name.member x.name f.property = "N.a" ∧
          f.type = some (.primitive .int) := by
    simp only [← Option.isNone_iff_eq_none]
    decide +kernel
  have hstruct : ∀ first ∈ (ofSources {} [(schemaHeading, .octets schemaOctets)]).toOption,
      ∃ old ∈ first.get? "N.a", old.source = "N.jschema" := by
    decide +kernel
  obtain ⟨first, hfirst⟩ := schema_builds
  obtain ⟨alone, halone⟩ := sample_builds
  rw [hfirst] at hstruct
  rw [halone] at hinteger
  obtain ⟨old, hold, hsource⟩ := hstruct first rfl
  obtain ⟨hnone, x, hx, hxsource, f, hf, hplace, htype⟩ := hinteger alone rfl
  obtain ⟨r, hr, hrest⟩ := exists_restates rfl rfl (by decide) hfirst halone (.refl _)
    (announceable_sample _ hfirst halone)
  obtain ⟨x', hx', hrestates⟩ := hrest "N" x hx
  obtain ⟨f', hf', hfollows⟩ := hrestates.field? hf
  have hleft := hfollows.type.left
  rw [hplace] at hleft
  obtain ⟨left, hleft, hleftSource, hleftType⟩ := hleft hnone old hold
  refine ⟨alone, r, x, x', f, f', left, halone, hr, hx, hf, htype, hx',
    hrestates.source.trans hxsource, hf', hleft, hleftSource.trans hsource, hleftType, ?_⟩
  rw [hleftType, htype]
  exact nofun

end Registry

end Exemplar
