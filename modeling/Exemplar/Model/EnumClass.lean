import Exemplar.Schema.Definition
import Exemplar.Store.Equality
import Exemplar.Store.Tree
import Exemplar.Store.Way
/-!
# Classes of enums

The literals of an enum are values that all share. The class of an enum has a member for each code;
a code whose literal equals that of an earlier code, at the time when the class is made, is another
name of the earlier member.
-/
namespace Exemplar

namespace Store

/-- Whether a literal is the one that a value means, if the comparison ends: containers are compared
by what they hold, and other values may also be one and the same. -/
def means? (s : Store) (literal v : Value) : Option Bool :=
  match v with
  | .node _ => s.compare literal v
  | v => s.compareInside literal v

/-- The members of an enum in order, each with its literal. There are none before the class of the
enum is made. -/
def membersOf (s : Store) (type : String) : List (String × Value) :=
  match s.enums.get? type with
  | some ⟨literals, some names⟩ => names.filterMap fun (code, name) =>
    if code == name then (literals.get? code).map (code, ·) else none
  | _ => []

end Store

namespace EnumClass

open StoreM

/-- The first of some values for each text, in order. -/
def distinct (s : Store) (vs : List Value) : List Value :=
  (vs.foldl (fun (acc : List String × List Value) v =>
    let text := (s.snapshot v).text
    if acc.1.contains text then acc else (text :: acc.1, acc.2 ++ [v])) ([], [])).2

/-- The literals that a value holds; one that is no list is the only one. -/
def literalsIn (v : Value) : StoreM (List Value) := do
  let s ← get
  match v with
  | .node r =>
    match (← node r).body with
    | .list vs => return distinct s vs
    | .map _ => return [v]
  | v => return [v]

/-- Store the literals of an enum. Those of a kept sample are parts of it. -/
def store (values : List (String × Json)) (origin : LiteralOrigin) : StoreM (List Value) := do
  let form := if origin.linked then Form.linked else .plain
  match origin.kept with
  | none => values.mapM fun e => ofJson form e.2
  | some k =>
    let root ← ofJson form k.sample
    literalsIn (((← get).follow? root k.way).getD .null)

/-- The literals of an enum by code. They are stored when they are asked for the first time. -/
def literals (d : Definition) : StoreM (Assoc String Value) := do
  match (← get).enums.get? d.name with
  | some e => return e.literals
  | none =>
    let vs ← match d.shape with
      | .enum values origin => store values origin
      | _ => pure []
    let literals := (d.values.map Prod.fst).zip vs
    modify fun s => { s with enums := s.enums.insert d.name ⟨literals, none⟩ }
    return literals

/-- Whether a literal is the one that a value means. -/
def means (literal v : Value) : StoreM Bool := do settled ((← get).means? literal v)

def nameFor? (v : Value) : List (String × Value) → StoreM (Option String)
  | [] => return none
  | (name, literal) :: rest => do
    if ← means literal v then return some name
    nameFor? v rest

/-- The codes, each with the name of its member, given the members that come before. -/
def nameAll (before : List (String × Value)) :
    List (String × Value) → StoreM (Assoc String String)
  | [] => return []
  | (code, v) :: rest => do
    match ← nameFor? v before with
    | some name => return (code, name) :: (← nameAll before rest)
    | none => return (code, code) :: (← nameAll (before ++ [(code, v)]) rest)

/-- The codes of an enum, each with the name of its member. They are settled once. -/
def names (d : Definition) : StoreM (Assoc String String) := do
  let ls ← literals d
  match ((← get).enums.get? d.name).bind EnumState.names with
  | some names => return names
  | none =>
    let names ← nameAll [] ls
    modify fun s => { s with enums := s.enums.insert d.name ⟨ls, some names⟩ }
    return names

def members (d : Definition) : StoreM (List (String × EnumMember)) := do
  return (← names d).map fun (code, name) => (code, ⟨d.name, name⟩)

def canonicalCodes (d : Definition) : StoreM (List String) := do
  return ((← names d).filter fun (code, name) => code == name).map Prod.fst

def member? (d : Definition) (code : String) : StoreM (Option EnumMember) := do
  return ((← names d).get? code).map fun name => ⟨d.name, name⟩

/-- The member of a value: a member of the class is its own, and any other value belongs to the
first member whose literal it means. There must be one. -/
def lookup (d : Definition) (v : Value) : StoreM EnumMember := do
  let _ ← names d
  match v with
  | .member m => if m.type == d.name then return m else throw .badValue
  | v =>
    match ← nameFor? v ((← get).membersOf d.name) with
    | some name => return ⟨d.name, name⟩
    | none => throw .badValue

end EnumClass
end Exemplar
