import Exemplar.Json.Printer
import Exemplar.Model.Access
import Exemplar.Store.Assembly
import Exemplar.Store.Parent
/-!
# Calling methods

What the methods of models do: they make values out of texts and fetched documents, write values,
and find the surroundings of an instance.
-/
namespace Exemplar

/-- The text of a value as JSON. A string is written the same way at every indent; for all else the
indent must be usable. -/
def Value.write (v : Value) (indent : Indent) : ModelM String := do
  match v with
  | .scalar (.str s) => return (Json.scalar (.str s)).compactText
  | _ =>
    let layout ← match indent.layout with
      | .ok layout => pure layout
      | .error f => throw (.indent f)
    match ((← get).snapshot v).written with
    | .ok tree => return tree.textIn layout
    | .error f => throw (.write f)

namespace Workshop

/-- The indent that an argument asks for; without one the default is taken. -/
def indentOf (w : Workshop) : Value → Indent
  | .scalar .null => w.options.defaultIndent
  | .scalar s => .ofScalar s
  | _ => .unusable

/-- Whether a value counts as no arguments at all. -/
def isNothing : Snapshot → Bool
  | .scalar .null => true
  | .scalar (.bool b) => !b
  | .scalar (.int i) => i == 0
  | .scalar (.float x) => x.equalsInt 0
  | .scalar (.str s) => s.isEmpty
  | .list _ _ items => items.isEmpty
  | .map _ _ entries => entries.isEmpty
  | _ => false

def argumentTexts (shown : Snapshot) : Except StoreFault (Assoc String String) :=
  if isNothing shown then .ok []
  else match shown with
    | .map _ _ entries =>
      .ok (Fetch.argumentTexts (entries.map fun (k, v) => (k.plainText, v.text)))
    | _ => .error .noOperation

def requestOf (w : Workshop) (operation : Operation) (args : List Value) : ModelM Request := do
  let s ← get
  let url := (s.snapshot (args.headD .null)).text
  let timeout := w.options.fetchTimeout
  let arguments ← match argumentTexts (s.snapshot ((args.drop 1).headD .null)) with
    | .ok texts => pure texts
    | .error e => throw (.store e)
  match operation with
  | .post => return { verb := .post, url, arguments, headers := [], timeout }
  | _ => return { verb := .get, url, arguments, headers := [], timeout }

variable [Json.Reader]

def parseText (w : Workshop) (d : Definition) (text : String) : ModelM Value := do
  match Json.eventsOfText text with
  | .error m => throw (.malformed m)
  | .ok events =>
    let v ← (StoreM.assemble events : ModelM Value)
    (w.bind v (some d.ref) : ModelM Value)

def fetch (w : Workshop) (transport : Fetch.Transport) (d : Definition) (request : Request) :
    ModelM Value := do
  match Fetch.perform transport request with
  | .ok body => w.parseText d body
  | .error f => throw (.fetch f)

/-- What a method does to its instance and its arguments, whose number fits. -/
def perform (w : Workshop) (transport : Fetch.Transport) (d : Definition) (m : Method)
    (context : Value) (args : List Value) : ModelM Value := do
  let first := args.headD .null
  let second := (args.drop 1).headD .null
  match m.operation with
  | .parse =>
    match first with
    | .scalar (.str text) => w.parseText d text
    | _ => throw (.store .noOperation)
  | .parseUrl => w.fetch transport d (← w.requestOf .parseUrl [first])
  | .get => w.fetch transport d (← w.requestOf .get args)
  | .post => w.fetch transport d (← w.requestOf .post args)
  | .write =>
    return .scalar (.str (← (if m.static then first else context).write .none))
  | .prettyPrint =>
    let (v, indent) := if m.static then (first, second) else (context, first)
    return .scalar (.str (← v.write (w.indentOf indent)))
  | .asJson => return context
  | .parent =>
    match context with
    | .node r =>
      if ← (StoreM.isPlain r : ModelM Bool) then throw (.store .noOperation)
      return ((← (StoreM.askTypedParent r : ModelM (Option Ref))).map Value.node).getD .null
    | _ => throw (.store .noOperation)
  | .descendents =>
    match context with
    | .node r => (StoreM.viewOf (some r) : ModelM Value)
    | _ => (StoreM.viewOf none : ModelM Value)

def accepts (m : Method) (count : Nat) : Bool :=
  (m.parameters.filter Parameter.required).length ≤ count && count ≤ m.parameters.length

def call (w : Workshop) (transport : Fetch.Transport) (d : Definition) (m : Method)
    (context : Value) (args : List Value) : ModelM Value := do
  unless accepts m args.length do throw (.store .wrongKind)
  w.perform transport d m context args

end Workshop
end Exemplar
