import Exemplar.Diagnostic
import Exemplar.Json.Position
import Exemplar.Json.Reader
import Exemplar.Json.Tree
import Exemplar.Text.Octets
/-!
# Reading documents

`parse` reads a document leniently: whatever could be built together with at most one
diagnostic. `load` refuses a document that has a problem. The reader of the events is left open.
-/
namespace Exemplar.Json

structure Parsed where
  value : Json
  errors : List Diagnostic

def Parsed.ok (p : Parsed) : Bool := p.errors.isEmpty

/-- What is told of a problem, at the place where the text stops being JSON. -/
def problemDiagnostic (data : List UInt8) (problem : String) : Diagnostic :=
  let message := if problem.isEmpty then "Malformed JSON" else problem
  let (line, column) := errorPlace (Text.decodeLossy data)
  ⟨.parse, message, line, column⟩

variable [Reader]

def parse (data : List UInt8) : Parsed :=
  let r := Reader.read data
  ⟨ofEvents r.events, (r.problem.map (problemDiagnostic data)).toList⟩

/-- A document that cannot be read: its problems and the part that was read before them. -/
structure Malformed where
  errors : List Diagnostic
  partialValue : Json

def load (data : List UInt8) : Except Malformed Json :=
  let p := parse data
  if p.ok then .ok p.value else .error ⟨p.errors, p.value⟩

/-- Read a text that must have no problem. -/
def loadText (text : String) : Except Malformed Json := load (Text.encodeString text)

/-- The events of a text that must have no problem. -/
def eventsOfText (text : String) : Except Malformed (List Event) :=
  (loadText text).map fun _ => (Reader.read (Text.encodeString text)).events

end Exemplar.Json
