import Exemplar.Json.TokenEvents
import Exemplar.Json.Tree
/-!
# A reader of octets

The reader that cuts octets into tokens. Its problems are told with the octets around them, and
integers beyond 64 bits are a problem of its own.
-/
namespace Exemplar.Json

def Cause.message : Cause → String
  | .lexical fault => fault.message
  | .unexpected => "unallowed token at this point in JSON text"
  | .notAKey => "invalid object key (must be a string)"
  | .missingColon => "object key and value must be separated by a colon (':')"
  | .afterEntry => "after key and value, inside map, I expect ',' or '\x7d'"
  | .afterItem => "after array element, I expect ',' or ']'"
  | .trailing => "trailing garbage"
  | .integerOverflow => "integer overflow"
  | .floatOverflow => "numeric (floating point) overflow"
  | .prematureEnd => "premature EOF"
  | .encoding f =>
    let value := String.ofList (Text.hexDigits 2 f.value.toNat)
    let reason := if f.badLead then "invalid start byte" else "invalid continuation byte"
    let place := Decimal.natText f.offset
    s!"'utf-8' codec can't decode byte 0x{value} in position {place}: {reason}"

def windowReach : Nat := 30

def markerColumn : Nat := 40

/-- The line that shows the octets around an offset, line breaks as blanks, and the line break
behind it. A null octet cuts the line off. -/
def windowLine (shown : List UInt8) (offset : Nat) : List UInt8 :=
  let indent := if offset < windowReach then markerColumn - offset else markerColumn - windowReach
  let octets := (shown.take (offset + windowReach)).drop (offset - windowReach)
  let octets := octets.map fun b => if b = 0x0A || b = 0x0D then (0x20 : UInt8) else b
  let line := List.replicate indent 0x20 ++ octets
  if octets.contains 0 then line.takeWhile (· ≠ 0) else line ++ [0x0A]

/-- The octets of the message of a problem of the grammar or of a token: the cause, the octets
around it, and a marker. A problem that shows only at the end of the text shows no octets. -/
def Problem.messageOctets (p : Problem) (data : List UInt8) : List UInt8 :=
  let level := match p.cause with
    | .lexical _ => "lexical"
    | _ => "parse"
  let shown := if p.atEnd then [] else data
  let offset := if p.atEnd then p.offset - data.length else p.offset
  Text.encodeString s!"{level} error: {p.cause.message}\n" ++ windowLine shown offset ++
    List.replicate 21 0x20 ++ Text.encodeString "(right here) ------^\n"

def Problem.message (p : Problem) (data : List UInt8) : String :=
  match p.cause with
  | .encoding _ => p.cause.message
  | _ =>
    let octets := p.messageOctets data
    match Text.decode? octets with
    | .ok cs => String.ofList cs
    | .error _ => String.ofList (Text.quotedOctets octets)

/-- An integer may not be larger than this, whatever its sign. -/
def integerLimit : Nat := 0x7FFFFFFFFFFFFFFF

/-- The tree of a text as far as it can be read, with integers of any size. -/
def treeOfText (text : String) : Json :=
  ofEvents (Reading.ofOctets none (Text.encodeString text)).events

/-- Events behind which a value may come, inside these open containers: complete parts, and in a map
a key. -/
inductive ValueDue : List Container → List Event → Prop
  | root : ValueDue [] []
  | item {stack : List Container} {es : List Event} (outer : ValueDue stack es) (done : List Json) :
      ValueDue (.list :: stack) (es ++ .startList :: itemEvents done)
  | entry {stack : List Container} {es : List Event} (outer : ValueDue stack es)
      (done : List (Scalar × Json)) (name : String) :
      ValueDue (.map :: stack) (es ++ .startMap :: (entryEvents done ++ [.key name]))

inductive Stands : Position → List Event → Prop
  | value {stack : List Container} {es : List Event} (h : ValueDue stack es) :
      Stands ⟨.value, stack⟩ es
  | item {stack : List Container} {es : List Event} {expected : Expected}
      (h : ValueDue (.list :: stack) es) (he : expected = .itemOrEnd ∨ expected = .itemEnd) :
      Stands ⟨expected, .list :: stack⟩ es
  | entry {stack : List Container} {es : List Event} {expected : Expected} (outer : ValueDue stack es)
      (done : List (Scalar × Json))
      (he : expected = .keyOrEnd ∨ expected = .key ∨ expected = .entryEnd) :
      Stands ⟨expected, .map :: stack⟩ (es ++ .startMap :: entryEvents done)
  | colon {stack : List Container} {es : List Event} (h : ValueDue (.map :: stack) es) :
      Stands ⟨.colon, .map :: stack⟩ es
  | nothing (v : Json) : Stands ⟨.nothing, []⟩ v.events

variable {limit : Option Nat} {stack : List Container} {es more : List Event} {p q : Position}
  {lexeme : Lexeme}

/-- A value in front, and then the ends of the open containers, complete a tree. -/
theorem ValueDue.begins (h : ValueDue stack es) (v : Json) : ∃ w : Json, es ++ v.events <+: w.events := by
  induction h generalizing v with
  | root => exact ⟨v, List.prefix_rfl⟩
  | item _ done ih =>
    obtain ⟨w, hw⟩ := ih (.list (done ++ [v]))
    refine ⟨w, List.IsPrefix.trans ⟨[.endList], ?_⟩ hw⟩
    simp [events, itemEvents_append, itemEvents]
  | entry _ done name ih =>
    obtain ⟨w, hw⟩ := ih (.map (done ++ [(.str name, v)]))
    refine ⟨w, List.IsPrefix.trans ⟨[.endMap], ?_⟩ hw⟩
    simp [events, entryEvents_append, entryEvents, writePlain]

theorem Stands.begins (h : Stands p es) : ∃ v : Json, es <+: v.events := by
  have hvalue {stack : List Container} {es : List Event} (h : ValueDue stack es) :
      ∃ v : Json, es <+: v.events := by
    obtain ⟨w, hw⟩ := h.begins null
    exact ⟨w, (List.prefix_append _ _).trans hw⟩
  cases h with
  | value h => exact hvalue h
  | item h _ => exact hvalue h
  | entry outer done _ =>
    obtain ⟨w, hw⟩ := outer.begins (.map done)
    refine ⟨w, List.IsPrefix.trans ⟨[.endMap], ?_⟩ hw⟩
    simp [events]
  | colon h => exact hvalue h
  | nothing v => exact ⟨v, List.prefix_rfl⟩

theorem stands_behindValue (h : ValueDue stack es) (v : Json) :
    Stands (.behindValue stack) (es ++ v.events) := by
  cases h with
  | root => exact .nothing v
  | @item stack es outer done =>
    have hitems : es ++ .startList :: itemEvents done ++ v.events =
        es ++ .startList :: itemEvents (done ++ [v]) := by
      simp [itemEvents_append, itemEvents]
    rw [hitems]
    exact .item (.item outer _) (.inr rfl)
  | @entry stack es outer done name =>
    have hentries : es ++ .startMap :: (entryEvents done ++ [.key name]) ++ v.events =
        es ++ .startMap :: entryEvents (done ++ [(.str name, v)]) := by
      simp [entryEvents_append, entryEvents, writePlain]
    rw [hentries]
    exact .entry outer _ (.inr (.inr rfl))

theorem stands_valueToken (hp : ValueDue stack es)
    (h : valueToken limit stack lexeme = .ok (more, q)) : Stands q (es ++ more) := by
  have hscalar (s : Scalar) := stands_behindValue hp (.scalar s)
  cases lexeme with
  | openMap =>
    cases h
    exact .entry hp [] (.inl rfl)
  | openList =>
    cases h
    exact .item (.item hp []) (.inl rfl)
  | literal s =>
    cases h
    exact hscalar s
  | string octets =>
    rw [valueToken] at h
    split at h
    · cases h
      exact hscalar _
    · cases h
  | number n =>
    rw [valueToken] at h
    split at h
    · cases h
      exact hscalar _
    · cases h
  | _ => cases h

theorem stands_keyToken (outer : ValueDue stack es) (done : List (Scalar × Json))
    (h : keyToken (.map :: stack) lexeme = .ok (more, q)) :
    Stands q (es ++ .startMap :: entryEvents done ++ more) := by
  cases lexeme with
  | string octets =>
    rw [keyToken] at h
    split at h
    · cases h
      have hkey := ValueDue.entry outer done
      simp only [List.append_assoc, List.cons_append] at hkey ⊢
      exact .colon (hkey _)
    · cases h
  | _ => cases h

theorem stands_closeList (h : ValueDue (.list :: stack) es) :
    Stands (.behindValue stack) (es ++ [.endList]) := by
  cases h with
  | item outer done =>
    have hclosed := stands_behindValue outer (.list done)
    rwa [events, ← List.append_assoc] at hclosed

theorem stands_closeMap (outer : ValueDue stack es) (done : List (Scalar × Json)) :
    Stands (.behindValue stack) (es ++ .startMap :: entryEvents done ++ [.endMap]) := by
  have hclosed := stands_behindValue outer (.map done)
  rwa [events, ← List.append_assoc] at hclosed

/-- Every token keeps the events and the position in step. -/
theorem Stands.advance (hp : Stands p es) (h : advance limit p lexeme = .ok (more, q)) :
    Stands q (es ++ more) := by
  cases hp with
  | value hp => exact stands_valueToken hp h
  | @item stack _ _ hp he =>
    have hvalue (h : valueToken limit (.list :: stack) lexeme = .ok (more, q)) :=
      stands_valueToken hp h
    rcases he with rfl | rfl
    · cases lexeme with
      | closeList =>
        cases h
        exact stands_closeList hp
      | _ => exact hvalue h
    · cases lexeme with
      | closeList =>
        cases h
        exact stands_closeList hp
      | comma =>
        cases h
        rw [List.append_nil]
        exact .value hp
      | _ => cases h
  | @entry stack _ _ outer done he =>
    have hkey (h : keyToken (.map :: stack) lexeme = .ok (more, q)) := stands_keyToken outer done h
    rcases he with rfl | rfl | rfl
    · cases lexeme with
      | closeMap =>
        cases h
        exact stands_closeMap outer done
      | _ => exact hkey h
    · exact hkey h
    · cases lexeme with
      | closeMap =>
        cases h
        exact stands_closeMap outer done
      | comma =>
        cases h
        rw [List.append_nil]
        exact .entry outer done (.inr (.inl rfl))
      | _ => cases h
  | colon hp =>
    cases lexeme with
    | colon =>
      cases h
      rw [List.append_nil]
      exact .value hp
    | _ => cases h
  | nothing v => cases h

theorem begins_ofTokens (size : Nat) (ending : Ending) {ts : List Token} (hp : Stands p es) :
    ∃ v : Json, es ++ (Reading.ofTokens limit size ending p ts).events <+: v.events := by
  induction ts generalizing p es with
  | nil =>
    rw [Reading.ofTokens, List.append_nil]
    exact hp.begins
  | cons t ts ih =>
    rw [Reading.ofTokens]
    cases hadvance : Json.advance limit p t.lexeme with
    | error cause =>
      simp only [List.append_nil]
      exact hp.begins
    | ok read =>
      obtain ⟨more, next⟩ := read
      simpa only [Reading.prepend, List.append_assoc] using ih (hp.advance hadvance)

/-- The reader of octets that has a limit of its integers. -/
abbrev Reader.ofLimit (limit : Option Nat) : Reader where
  read data :=
    let r := Reading.ofOctets limit data
    ⟨r.events, r.problem.map fun p => p.message data⟩
  begins _ := begins_ofTokens _ _ (.value .root)

instance : Reader := .ofLimit (some integerLimit)

end Exemplar.Json
