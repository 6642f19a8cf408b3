import Exemplar.Assoc
import Exemplar.Number.Decimal
import Exemplar.Scalar
import Exemplar.Text.Digit
/-!
# Fetching documents

Requests for documents, and what becomes of their replies. Every failure is one kind of fault that
names the address and the reason; no fault comes with a body.
-/
namespace Exemplar

inductive Verb where
  | get
  | post
  deriving DecidableEq, Repr

def Verb.word : Verb → String
  | .get => "get"
  | .post => "post"

structure Request where
  verb : Verb
  url : String
  arguments : Assoc String String
  headers : Assoc String String
  timeout : Scalar

/-- What comes back: an answer with its status, or the reason why there is none. -/
inductive Reply where
  | answered (status : Int) (reason body : String)
  | failed (reason : String)
  deriving DecidableEq, Repr

structure FetchFault where
  url : String
  reason : String
  deriving DecidableEq, Repr

def FetchFault.message (f : FetchFault) : String := s!"Could not fetch {f.url}: {f.reason}"

namespace Fetch

/-- What carries requests. -/
abbrev Transport := Request → Reply

def statusFailure? (status : Int) (reason url : String) : Option String :=
  let said (side : String) := s!"{Decimal.intText status} {side} Error: {reason} for url: {url}"
  if 400 ≤ status ∧ status < 500 then some (said "Client")
  else if 500 ≤ status ∧ status < 600 then some (said "Server")
  else none

def perform (transport : Transport) (r : Request) : Except FetchFault String :=
  match transport r with
  | .failed reason => .error ⟨r.url, reason⟩
  | .answered status reason body =>
    match statusFailure? status reason r.url with
    | some failure => .error ⟨r.url, failure⟩
    | none => .ok body

/-- The reason why an address that is not one of the web cannot be reached. -/
def unreachable (url : String) : String :=
  let address := String.ofList (url.toList.dropWhile Text.isBlank)
  if address.toList.contains ':' then
    s!"No connection adapters were found for {Text.quotedString address}"
  else
    s!"Invalid URL {Text.quotedString address}: No scheme supplied. " ++
      s!"Perhaps you meant https://{address}?"

/-- The transport that reaches nothing. -/
def offline : Transport := fun r => .failed (unreachable r.url)

/-- Arguments as strings; of two with one name the later one counts. -/
def argumentTexts (args : List (String × String)) : Assoc String String := Assoc.ofEntries args

end Fetch
end Exemplar
