import Exemplar.Json.Reader
import Exemplar.Json.Token
/-!
# Events from tokens

One way to read documents: the octets are cut into tokens, and the tokens are taken in one by one,
with a stack of the open containers. `Reading.ofOctets` gives the events up to the first problem
together with that problem.
-/
namespace Exemplar.Json

inductive Cause where
  | lexical (fault : LexicalFault)
  | unexpected
  | notAKey
  | missingColon
  | afterEntry
  | afterItem
  | trailing
  | integerOverflow
  | floatOverflow
  | prematureEnd
  | encoding (fault : Text.DecodeFault)
  deriving DecidableEq

/-- The first problem of a document: its cause, the offset at which it is reported, and whether it
shows only at the end of the text. -/
structure Problem where
  cause : Cause
  offset : Nat
  atEnd : Bool
  deriving DecidableEq

inductive Expected where
  | value
  | itemOrEnd
  | keyOrEnd
  | key
  | colon
  | entryEnd
  | itemEnd
  | nothing
  deriving DecidableEq, Repr

/-- What is admitted behind a value, by the innermost open container. -/
def Expected.behindValue : List Container → Expected
  | [] => .nothing
  | .map :: _ => .entryEnd
  | .list :: _ => .itemEnd

/-- The value of a number, unless it is out of range. Without a limit no integer is. -/
def Numeral.value (limit : Option Nat) (n : Numeral) : Except Cause Scalar :=
  if n.integral && limit.any (· < Decimal.value n.whole) then .error .integerOverflow
  else match n.scalar with
    | .float (.infinity _) => .error .floatOverflow
    | s => .ok s

structure Position where
  expected : Expected
  stack : List Container
  deriving DecidableEq, Repr

namespace Position

def start : Position := ⟨.value, []⟩

def behindValue (stack : List Container) : Position := ⟨.behindValue stack, stack⟩

end Position

/-- Events with the position behind them, or the cause why a token does not fit. -/
abbrev Advance := Except Cause (List Event × Position)

def valueToken (limit : Option Nat) (stack : List Container) : Lexeme → Advance
  | .openMap => .ok ([.startMap], ⟨.keyOrEnd, .map :: stack⟩)
  | .openList => .ok ([.startList], ⟨.itemOrEnd, .list :: stack⟩)
  | .literal s => .ok ([.scalar s], .behindValue stack)
  | .string octets =>
    match Text.decode? octets with
    | .ok cs => .ok ([.scalar (.str (String.ofList cs))], .behindValue stack)
    | .error f => .error (.encoding f)
  | .number n =>
    match n.value limit with
    | .ok s => .ok ([.scalar s], .behindValue stack)
    | .error c => .error c
  | _ => .error .unexpected

def keyToken (stack : List Container) : Lexeme → Advance
  | .string octets =>
    match Text.decode? octets with
    | .ok cs => .ok ([.key (String.ofList cs)], ⟨.colon, stack⟩)
    | .error f => .error (.encoding f)
  | _ => .error .notAKey

def advance (limit : Option Nat) (p : Position) (lexeme : Lexeme) : Advance :=
  match p.expected, lexeme with
  | .value, l => valueToken limit p.stack l
  | .itemOrEnd, .closeList => .ok ([.endList], .behindValue p.stack.tail)
  | .itemOrEnd, l => valueToken limit p.stack l
  | .keyOrEnd, .closeMap => .ok ([.endMap], .behindValue p.stack.tail)
  | .keyOrEnd, l => keyToken p.stack l
  | .key, l => keyToken p.stack l
  | .colon, .colon => .ok ([], ⟨.value, p.stack⟩)
  | .colon, _ => .error .missingColon
  | .entryEnd, .closeMap => .ok ([.endMap], .behindValue p.stack.tail)
  | .entryEnd, .comma => .ok ([], ⟨.key, p.stack⟩)
  | .entryEnd, _ => .error .afterEntry
  | .itemEnd, .closeList => .ok ([.endList], .behindValue p.stack.tail)
  | .itemEnd, .comma => .ok ([], ⟨.value, p.stack⟩)
  | .itemEnd, _ => .error .afterItem
  | .nothing, _ => .error .trailing

/-- Whether a token is complete only with the end of the text: a number that touches it. -/
def Token.needsEnd (t : Token) (size : Nat) : Bool :=
  match t.lexeme with
  | .number _ => size ≤ t.stop
  | _ => false

/-- Where a cause that lies in a token is reported. Behind an entry the report steps back over the
content of the token. -/
def Token.reportOffset (t : Token) (cause : Cause) : Nat :=
  match cause with
  | .afterEntry =>
    match t.lexeme with
    | .string _ => t.start + 2
    | _ => t.start
  | .integerOverflow => t.start
  | .floatOverflow => t.start
  | _ => t.stop

/-- The problem of a token. Nothing is reported before the end of the text once that is reached. -/
def Token.problem (t : Token) (size : Nat) (cause : Cause) : Problem :=
  let offset := t.reportOffset cause
  if t.needsEnd size then ⟨cause, max offset size, true⟩ else ⟨cause, offset, false⟩

/-- The problem, if any, of the place where the tokens end. -/
def endProblem (size : Nat) (p : Position) : Ending → Option Problem
  | .fault fault place =>
    let offset := if fault.reportedBehind then place + 1 else place
    let cause := if p.expected = .nothing then Cause.trailing else .lexical fault
    some ⟨cause, offset, decide (size ≤ place)⟩
  | _ => if p.expected = .nothing then none else some ⟨.prematureEnd, size + 1, true⟩

namespace Reading

def prepend (events : List Event) (r : Reading Problem) : Reading Problem :=
  ⟨events ++ r.events, r.problem⟩

def ofTokens (limit : Option Nat) (size : Nat) (ending : Ending) :
    Position → List Token → Reading Problem
  | p, [] => ⟨[], endProblem size p ending⟩
  | p, t :: rest =>
    match advance limit p t.lexeme with
    | .ok (events, p) => (ofTokens limit size ending p rest).prepend events
    | .error cause => ⟨[], some (t.problem size cause)⟩

/-- The events of a document given as octets, with a limit of its integers. -/
def ofOctets (limit : Option Nat) (data : List UInt8) : Reading Problem :=
  let (ts, ending) := tokens data
  ofTokens limit data.length ending .start ts

end Reading
end Exemplar.Json
