import Exemplar.Json.Document
import Exemplar.Schema.Registry
/-!
# Building registries

A builder reads sources, infers their types and publishes the registry. Only one build runs at a
time: a source that asks for another build while it is read is refused. A source that cannot be
read contributes one diagnostic, and the build goes on. Each source is taken in before the next one
is read.
-/
namespace Exemplar

inductive SourceKind where
  | schema
  | sample
  | other (extension : String)
  deriving DecidableEq, Repr

namespace SourceKind

def extension : SourceKind → String
  | .schema => "jschema"
  | .sample => "json"
  | .other e => e

def ofExtension (e : String) : SourceKind :=
  if e = "jschema" then .schema else if e = "json" then .sample else .other e

end SourceKind

/-- What is known of a source before it is read: the name of its root type, its kind, and where it
comes from. -/
structure Heading where
  name : String
  kind : SourceKind := .schema
  origin : Option String := none
  deriving DecidableEq, Repr

namespace Heading

/-- What the source is listed under: its origin, or else its name. -/
def identity (h : Heading) : String :=
  match h.origin with
  | some "" => h.name
  | some origin => origin
  | none => h.name

def isPlain (h : Heading) : Bool := h.kind == .sample

end Heading

/-- What reading a source does: it gives octets, it fails with a reason, or it first asks the
builder for a build of other sources. When that fails, reading goes on with other content, or fails
in the same way if there is none. A source fails in no other way than with a reason or with a build that
is refused. -/
inductive Content where
  | octets (data : List UInt8)
  | unreadable (reason : String)
  | requestsBuild (sources : List (Heading × Content)) (next : Option Content)

abbrev Source := Heading × Content

/-- Why a build fails: another one is running, or it cannot be announced that a definition replaces
another one. -/
inductive BuildError where
  | inProgress
  | announcement (f : Text.Markup.Fault)
  deriving DecidableEq, Repr

def BuildError.message : BuildError → String
  | .inProgress => "A type registry build is already in progress"
  | .announcement _ => "A replaced definition cannot be announced"

variable [Json.Reader]

/-- Parse what was read from a source. One that cannot be read counts as an empty map with one
diagnostic. -/
def Heading.parse (h : Heading) : Except String (List UInt8) → Json.Parsed
  | .ok data => Json.parse data
  | .error reason =>
    ⟨.map [], [.placeless .io s!"Unable to open JSON file {h.identity}: {reason}"]⟩

def Heading.document (h : Heading) (data : Except String (List UInt8)) : Document :=
  let parsed := h.parse data
  { name := h.name, source := h.identity, value := parsed.value, errors := parsed.errors,
    plain := h.isPlain }

def Heading.collect (options : Options) (c : Catalogue) (h : Heading)
    (data : Except String (List UInt8)) : Except BuildError Catalogue :=
  match c.addDocument options (h.document data) with
  | (.ok (), c) => .ok c
  | (.error f, _) => .error (.announcement f)

/-- A builder with the registry it published last and the number of builds that succeeded. -/
structure Builder where
  options : Options
  published : Registry
  generation : Nat
  building : Bool

namespace Builder

def new (options : Options) : Builder := ⟨options, .empty, 0, false⟩

def start (b : Builder) : Except BuildError Builder :=
  if b.building then .error .inProgress else .ok { b with building := true }

/-- Release the builder, publishing the registry of a build that succeeded. -/
def settle (b : Builder) : Except BuildError Registry → Builder
  | .ok registry =>
    { b with published := registry, generation := b.generation + 1, building := false }
  | .error _ => { b with building := false }

/-- Run one build. `collect` takes the plain samples or the other sources into a catalogue, and may
use the builder meanwhile; plain samples come last. -/
def run (b : Builder)
    (collect : Bool → Builder → Catalogue → Except BuildError Catalogue × Builder) :
    Except BuildError Registry × Builder :=
  match b.start with
  | .error e => (.error e, b)
  | .ok b =>
    match collect false b .empty with
    | (.error e, b) => (.error e, b.settle (.error e))
    | (.ok c, b) =>
      match collect true b c with
      | (.error e, b) => (.error e, b.settle (.error e))
      | (.ok c, b) =>
        let registry := Registry.ofCatalogue c.finish
        (.ok registry, b.settle (.ok registry))

end Builder

mutual
/-- Read content with the help of a builder. -/
def Content.read (b : Builder) : Content → Except BuildError (Except String (List UInt8)) × Builder
  | .octets data => (.ok (.ok data), b)
  | .unreadable reason => (.ok (.error reason), b)
  | .requestsBuild sources none =>
    match b.run fun plain b c => Source.collect plain b c sources with
    | (.error e, b) => (.error e, b)
    | (.ok _, b) => (.ok (.ok []), b)
  | .requestsBuild sources (some next) =>
    next.read (b.run fun plain b c => Source.collect plain b c sources).2
/-- Take those sources into a catalogue that are plain samples, or those that are not. -/
def Source.collect (plain : Bool) (b : Builder) (c : Catalogue) :
    List (Heading × Content) → Except BuildError Catalogue × Builder
  | [] => (.ok c, b)
  | (heading, content) :: rest =>
    if heading.isPlain = plain then
      match content.read b with
      | (.error e, b) => (.error e, b)
      | (.ok data, b) =>
        match heading.collect b.options c data with
        | .error e => (.error e, b)
        | .ok c => Source.collect plain b c rest
    else Source.collect plain b c rest
end

/-- Run a build of sources. -/
def Builder.build (b : Builder) (sources : List Source) : Except BuildError Registry × Builder :=
  b.run fun plain b c => Source.collect plain b c sources

def Registry.ofSources (options : Options) (sources : List Source) :
    Except BuildError Registry :=
  ((Builder.new options).build sources).1

def Registry.ofText (options : Options) (name text : String) (plain : Bool) :
    Except Text.Markup.Fault Registry :=
  let heading : Heading := { name, kind := if plain then .sample else .schema }
  Registry.ofDocument options (heading.document (.ok (Text.encodeString text)))

end Exemplar
