import Exemplar.Proofs.BuildOrder

/-! The lifecycle of a builder. Build requests are followed moment by moment, those included that a
source makes while it is read: a build begins, sources are read, requests that come meanwhile are
refused, and the build succeeds or fails. At every moment the builder is known from the moments
before it, and what a build publishes depends on its own sources only. -/
namespace Exemplar

inductive Moment where
  | begins
  | reads (h : Heading)
  | refuses
  | succeeds (r : Registry)
  | fails (e : BuildError)

namespace Moment

def isBegin : Moment → Bool
  | .begins => true
  | _ => false

def isEnd : Moment → Bool
  | .succeeds _ => true
  | .fails _ => true
  | _ => false

def registry? : Moment → Option Registry
  | .succeeds r => some r
  | _ => none

end Moment

/-- The registries that were published in the course of moments, in order. -/
def publishedIn (ms : List Moment) : List Registry := ms.filterMap Moment.registry?

namespace Builder

/-- How a moment changes a builder, and when it can come: builds begin while none is in progress, and
everything else belongs to the build in progress. -/
inductive Step : Builder → Moment → Builder → Prop where
  | begins {b : Builder} (idle : b.building = false) : Step b .begins { b with building := true }
  | reads {b : Builder} (h : Heading) (busy : b.building = true) : Step b (.reads h) b
  | refuses {b : Builder} (busy : b.building = true) : Step b .refuses b
  | succeeds {b : Builder} (r : Registry) (busy : b.building = true) :
    Step b (.succeeds r)
      { b with published := r, generation := b.generation + 1, building := false }
  | fails {b : Builder} (e : BuildError) (busy : b.building = true) :
    Step b (.fails e) { b with building := false }

inductive Steps : Builder → List Moment → Builder → Prop where
  | none (b : Builder) : Steps b [] b
  | next {b b' b'' : Builder} {m : Moment} {ms : List Moment} (step : Step b m b')
    (rest : Steps b' ms b'') : Steps b (m :: ms) b''

variable {b b' b'' : Builder} {m : Moment} {ms ms' : List Moment}

theorem Steps.append (h : Steps b ms b') (h' : Steps b' ms' b'') : Steps b (ms ++ ms') b'' := by
  induction h with
  | none b => exact h'
  | next step _ ih => exact .next step (ih h')

theorem Steps.split {b b'' : Builder} (h : Steps b (ms ++ ms') b'') :
    ∃ b', Steps b ms b' ∧ Steps b' ms' b'' := by
  induction ms generalizing b with
  | nil => exact ⟨b, .none b, h⟩
  | cons m ms ih =>
    cases h with
    | next step rest =>
      obtain ⟨b', hfirst, hlast⟩ := ih rest
      exact ⟨b', .next step hfirst, hlast⟩

theorem Step.single (h : Step b m b') : Steps b [m] b' := .next h (.none b')

/-- What a builder is once the moments of a list have passed, by what it was before them. -/
structure Reached (b : Builder) (ms : List Moment) (b' : Builder) : Prop where
  options : b'.options = b.options
  building : ms.countP Moment.isBegin + b.building.toNat =
    ms.countP Moment.isEnd + b'.building.toNat
  generation : b'.generation = b.generation + (publishedIn ms).length
  published : b'.published = ((publishedIn ms).getLast?).getD b.published

theorem Step.reached (h : Step b m b') : Reached b [m] b' := by
  cases h with
  | begins idle => constructor <;> simp [Moment.isBegin, Moment.isEnd, publishedIn,
      Moment.registry?, idle]
  | reads h busy => constructor <;> simp [Moment.isBegin, Moment.isEnd, publishedIn,
      Moment.registry?]
  | refuses busy => constructor <;> simp [Moment.isBegin, Moment.isEnd, publishedIn,
      Moment.registry?]
  | succeeds r busy => constructor <;> simp [Moment.isBegin, Moment.isEnd, publishedIn,
      Moment.registry?, busy]
  | fails e busy => constructor <;> simp [Moment.isBegin, Moment.isEnd, publishedIn,
      Moment.registry?, busy]

theorem Reached.append (h : Reached b ms b') (h' : Reached b' ms' b'') :
    Reached b (ms ++ ms') b'' where
  options := h'.options.trans h.options
  building := by
    have hfirst := h.building
    have hlast := h'.building
    simp only [List.countP_append]
    omega
  generation := by
    have hcount : (publishedIn (ms ++ ms')).length =
        (publishedIn ms).length + (publishedIn ms').length := by
      simp [publishedIn]
    rw [h'.generation, h.generation, hcount, Nat.add_assoc]
  published := by
    rw [h'.published, h.published]
    simp only [publishedIn, List.filterMap_append, List.getLast?_append]
    cases (ms'.filterMap Moment.registry?).getLast? <;> rfl

theorem Steps.reached (h : Steps b ms b') : Reached b ms b' := by
  induction h with
  | none b => constructor <;> simp [publishedIn]
  | next step _ ih => exact step.reached.append ih

end Builder

/-- The moments that a run passes, what comes of it, and the builder behind it. -/
abbrev Course (α : Type) := List Moment × Except BuildError α × Builder

def Builder.runCourse (b : Builder) (collect : Bool → Builder → Catalogue → Course Catalogue) :
    Course Registry :=
  match b.start with
  | .error e => ([.refuses], .error e, b)
  | .ok b =>
    match collect false b .empty with
    | (ms, .error e, b) => (.begins :: ms ++ [.fails e], .error e, b.settle (.error e))
    | (ms, .ok c, b) =>
      match collect true b c with
      | (ms', .error e, b) => (.begins :: ms ++ ms' ++ [.fails e], .error e, b.settle (.error e))
      | (ms', .ok c, b) =>
        let registry := Registry.ofCatalogue c.finish
        (.begins :: ms ++ ms' ++ [.succeeds registry], .ok registry, b.settle (.ok registry))

mutual
def Content.course [Json.Reader] (b : Builder) : Content → Course (Except String (List UInt8))
  | .octets data => ([], .ok (.ok data), b)
  | .unreadable reason => ([], .ok (.error reason), b)
  | .requestsBuild sources none =>
    match b.runCourse fun plain b c => Source.course plain b c sources with
    | (ms, .error e, b) => (ms, .error e, b)
    | (ms, .ok _, b) => (ms, .ok (.ok []), b)
  | .requestsBuild sources (some next) =>
    let requested := b.runCourse fun plain b c => Source.course plain b c sources
    let rest := next.course requested.2.2
    (requested.1 ++ rest.1, rest.2)
def Source.course [Json.Reader] (plain : Bool) (b : Builder) (c : Catalogue) :
    List (Heading × Content) → Course Catalogue
  | [] => ([], .ok c, b)
  | (heading, content) :: rest =>
    if heading.isPlain = plain then
      match content.course b with
      | (ms, .error e, b) => (.reads heading :: ms, .error e, b)
      | (ms, .ok data, b) =>
        match heading.collect b.options c data with
        | .error e => (.reads heading :: ms, .error e, b)
        | .ok c =>
          let later := Source.course plain b c rest
          (.reads heading :: ms ++ later.1, later.2)
    else Source.course plain b c rest
end

namespace Builder

def course [Json.Reader] (b : Builder) (sources : List Source) : Course Registry :=
  b.runCourse fun plain b c => Source.course plain b c sources

/-- Build requests one after the other: what came of each, and the builder behind them. -/
def serve [Json.Reader] (b : Builder) :
    List (List Source) → List (Except BuildError Registry) × Builder
  | [] => ([], b)
  | sources :: rest =>
    let built := b.build sources
    let later := built.2.serve rest
    (built.1 :: later.1, later.2)

/-- The moments that build requests pass, one request after the other. -/
def history [Json.Reader] (b : Builder) : List (List Source) → List Moment
  | [] => []
  | sources :: rest => (b.course sources).1 ++ (b.build sources).2.history rest

theorem runCourse_snd {b : Builder} {course : Bool → Builder → Catalogue → Course Catalogue}
    {collect : Bool → Builder → Catalogue → Except BuildError Catalogue × Builder}
    (h : ∀ plain b c, (course plain b c).2 = collect plain b c) :
    (b.runCourse course).2 = b.run collect := by
  rw [runCourse, run]
  cases b.start with
  | error e => rfl
  | ok b =>
    simp only [← h]
    obtain ⟨ms, result, b⟩ := course false b .empty
    cases result with
    | error e => rfl
    | ok c =>
      simp only []
      obtain ⟨ms', result, b⟩ := course true b c
      cases result <;> rfl

end Builder

mutual
/-- Nothing but the moments is new in a course. -/
theorem Content.course_snd [Json.Reader] (b : Builder) :
    (content : Content) → (content.course b).2 = content.read b
  | .octets _ => by rw [Content.course, Content.read]
  | .unreadable _ => by rw [Content.course, Content.read]
  | .requestsBuild sources none => by
    have hrun := Builder.runCourse_snd (b := b) fun plain b c => Source.course_snd plain b c sources
    rw [Content.course, Content.read, ← hrun]
    obtain ⟨ms, result, b⟩ := b.runCourse fun plain b c => Source.course plain b c sources
    cases result <;> rfl
  | .requestsBuild sources (some next) => by
    have hrun := Builder.runCourse_snd (b := b) fun plain b c => Source.course_snd plain b c sources
    rw [Content.course, Content.read, ← hrun]
    exact Content.course_snd _ next
theorem Source.course_snd [Json.Reader] (plain : Bool) (b : Builder) (c : Catalogue) :
    (sources : List (Heading × Content)) →
      (Source.course plain b c sources).2 = Source.collect plain b c sources
  | [] => by rw [Source.course, Source.collect]
  | (heading, content) :: rest => by
    rw [Source.course, Source.collect, ← Content.course_snd b content]
    split
    · obtain ⟨ms, result, b⟩ := content.course b
      cases result with
      | error e => rfl
      | ok data =>
        simp only []
        cases heading.collect b.options c data with
        | error e => rfl
        | ok c => exact Source.course_snd plain b c rest
    · exact Source.course_snd plain b c rest
end

namespace Builder

variable {b : Builder}

theorem course_snd [Json.Reader] (b : Builder) (sources : List Source) :
    (b.course sources).2 = b.build sources :=
  runCourse_snd fun plain b c => Source.course_snd plain b c sources

theorem runCourse_busy (busy : b.building = true)
    (collect : Bool → Builder → Catalogue → Course Catalogue) :
    b.runCourse collect = ([.refuses], .error .inProgress, b) := by
  rw [runCourse, start, busy]
  rfl

end Builder

/-- How many builds content asks for, one after the other, while another one is in progress. -/
def Content.requests : Content → Nat
  | .octets _ => 0
  | .unreadable _ => 0
  | .requestsBuild _ none => 1
  | .requestsBuild _ (some next) => next.requests + 1

/-- Whatever content asks for while a build is in progress is refused, and the reading of the content
goes on or ends with that. -/
theorem Content.course_busy [Json.Reader] {b : Builder} (busy : b.building = true) :
    (content : Content) → content.course b =
      (List.replicate content.requests .refuses, content.whileBuilding, b)
  | .octets _ => by rw [course, requests, whileBuilding]; rfl
  | .unreadable _ => by rw [course, requests, whileBuilding]; rfl
  | .requestsBuild _ none => by rw [course, Builder.runCourse_busy busy, whileBuilding]; rfl
  | .requestsBuild _ (some next) => by
    rw [course, Builder.runCourse_busy busy, whileBuilding]
    simp only [Content.course_busy busy next]
    rfl

namespace Builder

theorem steps_refuses {b : Builder} (busy : b.building = true) (n : Nat) :
    Steps b (List.replicate n .refuses) b := by
  induction n with
  | zero => exact .none b
  | succ n ih => exact .next (.refuses busy) ih

variable {b : Builder}

theorem steps_sources [Json.Reader] (busy : b.building = true) (plain : Bool) (c : Catalogue)
    (sources : List Source) : Steps b (Source.course plain b c sources).1 b := by
  induction sources generalizing c with
  | nil =>
    rw [Source.course]
    exact .none b
  | cons source rest ih =>
    obtain ⟨heading, content⟩ := source
    rw [Source.course]
    split
    · have hread := steps_refuses busy content.requests
      rw [Content.course_busy busy]
      cases content.whileBuilding with
      | error e => exact .next (.reads heading busy) hread
      | ok data =>
        simp only []
        cases heading.collect b.options c data with
        | error e => exact .next (.reads heading busy) hread
        | ok c => exact .next (.reads heading busy) (hread.append (ih c))
    · exact ih c

/-- A build passes moments that lead from the builder before it to the builder behind it. -/
theorem steps_course [Json.Reader] (b : Builder) (sources : List Source) :
    Steps b (b.course sources).1 (b.build sources).2 := by
  cases hbuilding : b.building with
  | true =>
    rw [course, runCourse_busy hbuilding, build, run_busy hbuilding]
    exact (Step.refuses hbuilding).single
  | false =>
    have busy : ({ b with building := true } : Builder).building = true := rfl
    have hsteps (plain : Bool) (c : Catalogue) := steps_sources busy plain c sources
    have hsame (plain : Bool) (c : Catalogue) :
        (Source.course plain { b with building := true } c sources).2 =
          (Source.takeAll b.options c (Source.ofGroup plain sources),
            { b with building := true }) := by
      rw [Source.course_snd, Source.collect_building busy]
    rw [← course_snd, course, runCourse, start, hbuilding]
    simp only [Bool.false_eq_true, if_false]
    have hfirst := hsteps false .empty
    have hsecond := hsame false .empty
    generalize Source.course false { b with building := true } .empty sources = course
      at hfirst hsecond
    obtain ⟨ms, result⟩ := course
    obtain rfl := hsecond
    cases Source.takeAll b.options .empty (Source.ofGroup false sources) with
    | error e => exact .next (.begins hbuilding) (hfirst.append (Step.fails e busy).single)
    | ok c =>
      have hlater := hsteps true c
      have hend := hsame true c
      simp only []
      generalize Source.course true { b with building := true } c sources = course at hlater hend
      obtain ⟨ms', result⟩ := course
      obtain rfl := hend
      have hboth := hfirst.append hlater
      cases Source.takeAll b.options c (Source.ofGroup true sources) with
      | error e => exact .next (.begins hbuilding) (hboth.append (Step.fails e busy).single)
      | ok c => exact .next (.begins hbuilding) (hboth.append (Step.succeeds _ busy).single)

theorem steps_history [Json.Reader] (b : Builder) (requests : List (List Source)) :
    Steps b (b.history requests) (b.serve requests).2 := by
  induction requests generalizing b with
  | nil => exact .none b
  | cons sources rest ih => exact (steps_course b sources).append (ih _)

/-- A build that is let in leaves the builder settled by what came of it, and nothing else of it. -/
theorem build_settles [Json.Reader] (idle : b.building = false) (sources : List Source) :
    (b.build sources).2 = b.settle (b.build sources).1 := by
  have busy : ({ b with building := true } : Builder).building = true := rfl
  rw [build, run, start, idle]
  simp only [Bool.false_eq_true, if_false, Source.collect_building busy]
  cases Source.takeAll b.options .empty (Source.ofGroup false sources) with
  | error e => rfl
  | ok c =>
    simp only [Source.collect_building busy]
    cases Source.takeAll b.options c (Source.ofGroup true sources) <;> rfl

theorem build_alone [Json.Reader] (idle : b.building = false) (sources : List Source) :
    (b.build sources).1 = Registry.ofSources b.options sources := by
  rw [Source.build_inOrder idle, Source.ofSources_inOrder]

theorem settle_idle (b : Builder) (built : Except BuildError Registry) :
    (b.settle built).building = false ∧ (b.settle built).options = b.options := by
  cases built <;> exact ⟨rfl, rfl⟩

/-- A build publishes its registry if it succeeds, and no other one. -/
theorem publishedIn_course [Json.Reader] (idle : b.building = false) (sources : List Source) :
    publishedIn (b.course sources).1 = (b.build sources).1.toOption.toList := by
  have hreached := (steps_course b sources).reached
  have hgeneration := hreached.generation
  have hpublished := hreached.published
  rw [build_settles idle] at hgeneration hpublished
  cases hbuilt : (b.build sources).1 with
  | error e =>
    rw [hbuilt] at hgeneration
    have hnone : (publishedIn (b.course sources).1).length = 0 := by
      simp only [settle] at hgeneration
      omega
    rw [List.eq_nil_of_length_eq_zero hnone]
    rfl
  | ok r =>
    rw [hbuilt] at hgeneration hpublished
    have hone : (publishedIn (b.course sources).1).length = 1 := by
      simp only [settle] at hgeneration
      omega
    obtain ⟨r', hr'⟩ := List.length_eq_one_iff.mp hone
    rw [hr'] at hpublished ⊢
    have hsame : r = r' := hpublished
    rw [hsame]
    rfl

/-- Requests that come one after the other are all let in. Each gives what its sources give on their
own, and those that succeed are what is published. -/
theorem serve_idle [Json.Reader] (idle : b.building = false) (requests : List (List Source)) :
    (b.serve requests).2.building = false ∧
      (b.serve requests).1 = requests.map (Registry.ofSources b.options) ∧
      publishedIn (b.history requests) = (b.serve requests).1.filterMap Except.toOption := by
  induction requests generalizing b with
  | nil => exact ⟨idle, rfl, rfl⟩
  | cons sources rest ih =>
    obtain ⟨hfree, hoptions⟩ := settle_idle b (b.build sources).1
    rw [← build_settles idle] at hfree hoptions
    obtain ⟨hlast, hbuilt, hpublished⟩ := ih hfree
    refine ⟨hlast, ?_, ?_⟩
    · rw [serve, List.map_cons, build_alone idle, hbuilt, hoptions]
    · have hfirst := publishedIn_course idle sources
      rw [serve, history, List.filterMap_cons, ← hpublished, publishedIn, List.filterMap_append]
      rw [publishedIn] at hfirst
      rw [hfirst, publishedIn]
      cases (b.build sources).1 <;> rfl

/-- The lifecycle of a builder under any requests, with any requests made by their sources while they
are read, and wherever builds fail. At each moment no more than one build is in progress, and the
builder says so; the generation counts the builds that succeeded so far, and the last of them is
published. Requests during a build are refused and change nothing. In the end the builder is free,
and each registry is what its own sources give, whatever was built before or behind it. -/
theorem lifecycle [Json.Reader] (options : Options) (requests : List (List Source)) :
    let b := Builder.new options
    let served := b.serve requests
    (∀ (now : Builder) sources, (now.course sources).2 = now.build sources) ∧
    Steps b (b.history requests) served.2 ∧
    (∀ before behind, b.history requests = before ++ behind → ∃ now, Steps b before now ∧
      Steps now behind served.2 ∧
      before.countP Moment.isBegin = before.countP Moment.isEnd + now.building.toNat ∧
      now.generation = (publishedIn before).length ∧
      now.published = ((publishedIn before).getLast?).getD .empty) ∧
    (∀ now : Builder, now.building = true →
      (∀ sources, now.course sources = ([.refuses], .error .inProgress, now)) ∧
      ∀ content : Content, content.course now =
        (List.replicate content.requests .refuses, content.whileBuilding, now)) ∧
    served.2.building = false ∧
    served.1 = requests.map (Registry.ofSources options) ∧
    publishedIn (b.history requests) = served.1.filterMap Except.toOption := by
  intro b served
  have hsteps := steps_history b requests
  obtain ⟨hfree, hbuilt, hpublished⟩ := serve_idle (b := b) rfl requests
  refine ⟨course_snd, hsteps, ?moments, ?refused, hfree, hbuilt, hpublished⟩
  case moments =>
    intro before behind hsplit
    rw [hsplit] at hsteps
    obtain ⟨now, hbefore, hbehind⟩ := hsteps.split
    have hreached := hbefore.reached
    refine ⟨now, hbefore, hbehind, hreached.building, ?_, hreached.published⟩
    rw [hreached.generation]
    exact Nat.zero_add _
  case refused =>
    intro now busy
    exact ⟨fun sources => runCourse_busy busy _, Content.course_busy busy⟩

/-- A source that asks for two builds and goes on without them, one that fails with the build that it
asks for, and one that asks for none. -/
def mixedRequests : List (List Source) :=
  [[({ name := "M" }, .requestsBuild [] (some (.requestsBuild [({ name := "X" }, .octets [])]
      (some (.octets (Text.encodeString "\x7b\x7d"))))))],
    [({ name := "M" }, .octets []), ({ name := "P" }, .requestsBuild [] none)],
    [({ name := "N" }, .unreadable "gone")]]

theorem lifecycle_mixed :
    let b := Builder.new {}
    let served := b.serve mixedRequests
    (∃ now, Steps b ((b.history mixedRequests).take 4) now ∧
      now.building = true ∧ now.generation = 0 ∧
      (now.course [({ name := "X" }, .octets [])]).2.1 = .error .inProgress) ∧
    ((b.history mixedRequests).take 4).map Moment.isBegin = [true, false, false, false] ∧
    served.2.building = false ∧ served.2.generation = 2 ∧
    served.1.map Except.isOk = [true, false, true] := by
  intro b served
  obtain ⟨-, -, hmoments, hrefused, hfree, -⟩ := lifecycle {} mixedRequests
  obtain ⟨now, hbefore, -, hbuilding, hgeneration, -⟩ :=
    hmoments _ _ (List.take_append_drop 4 _).symm
  have hbegun : ((b.history mixedRequests).take 4).countP Moment.isBegin = 1 := by decide +kernel
  have hended : ((b.history mixedRequests).take 4).countP Moment.isEnd = 0 := by decide +kernel
  have hnone : (publishedIn ((b.history mixedRequests).take 4)).length = 0 := by decide +kernel
  have hbusy : now.building = true := by
    have hone : 1 = 0 + now.building.toNat := hended ▸ hbegun ▸ hbuilding
    cases hnow : now.building with
    | true => rfl
    | false => simp [hnow] at hone
  have hrequest : (now.course [({ name := "X" }, .octets [])]).2.1 = .error .inProgress := by
    rw [(hrefused now hbusy).1]
  exact ⟨⟨now, hbefore, hbusy, hgeneration.trans hnone, hrequest⟩, by decide +kernel, hfree,
    by decide +kernel, by decide +kernel⟩

end Builder
end Exemplar
