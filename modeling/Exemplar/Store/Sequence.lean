import Exemplar.Store.Snapshot
/-!
# Values as sequences

What a value yields when its elements are asked for one by one, what it gives as the content of a
map, and which places of a list an index or a slice means.
-/
namespace Exemplar

namespace StoreM

/-- The elements of a value: the characters of a string, the items of a list, the keys of a map, the
maps of a view, the parts of a pair. Other values have none. -/
def elements : Value → StoreM (List Value)
  | .scalar (.str s) => return s.toList.map fun c => .scalar (.str (String.singleton c))
  | .node r => do
    match (← node r).body with
    | .map es => return es.map fun e => .scalar e.1
    | .list vs => return vs
  | .descendents _ none => return []
  | .descendents _ (some r) => return ((← get).mapsBelow r).map .node
  | .pair key v => return [.scalar key, v]
  | _ => throw .wrongKind

/-- What a value is as a key. Containers cannot be keys, and what is neither a container nor a
scalar nor a number is a key that no map has. -/
def keyOf : Value → StoreM (Option Scalar)
  | .scalar s => return some s
  | .nan _ => return some (.float .nan)
  | .node _ => throw .wrongKind
  | .pair _ v => do
    let _ ← keyOf v
    return none
  | _ => return none

def entryOf (v : Value) : StoreM (Scalar × Value) := do
  match ← elements v with
  | [key, value] =>
    match ← keyOf key with
    | some key => return (key, value)
    | none => throw .wrongKind
  | _ => throw .badValue

def collectEntries (acc : Assoc Scalar Value) : List Value → StoreM (Assoc Scalar Value)
  | [] => return acc
  | v :: rest => do
    let (key, value) ← entryOf v
    collectEntries (acc.insert key value) rest

/-- The content of a map that a value gives: that of a map, or entries given one by one. -/
def contentOf (v : Value) : StoreM (Assoc Scalar Value) := do
  match v with
  | .node r =>
    match (← node r).body with
    | .map es => return es
    | .list vs => collectEntries [] vs
  | _ => collectEntries [] (← elements v)

end StoreM

/-- A range of places with a step; each part may be left open. -/
structure Slice where
  start : Option Int
  stop : Option Int
  step : Option Int
  deriving DecidableEq, Repr

/-- A slice of a list of known length: the first place, the end, and the step. -/
structure Span where
  start : Int
  stop : Int
  step : Int
  deriving DecidableEq, Repr

/-- The place in a list of a length that an index means; negative ones count from the end. -/
def placeOf (length : Nat) (index : Int) : Option Nat :=
  let i := if index < 0 then index + length else index
  if 0 ≤ i ∧ i < length then some i.toNat else none

def insertPlace (length : Nat) (index : Int) : Nat :=
  let i := if index < 0 then index + length else index
  min (max i 0).toNat length

namespace Slice

/-- A bound of a slice, counted from the end if negative, cut to what the step can reach. -/
def bound (length : Nat) (low high : Int) (whole : Int) : Option Int → Int
  | none => whole
  | some i => if i < 0 then max (i + length) low else min i high

/-- What a slice means for a list of a length; a step of zero means nothing. -/
def span? (s : Slice) (length : Nat) : Option Span :=
  let step := s.step.getD 1
  if step = 0 then none
  else if step > 0 then
    some ⟨bound length 0 length 0 s.start, bound length 0 length length s.stop, step⟩
  else
    some ⟨bound length (-1) (length - 1) (length - 1) s.start,
      bound length (-1) (length - 1) (-1) s.stop, step⟩

end Slice

namespace Span

def count (s : Span) : Nat :=
  if s.step > 0 then ((s.stop - s.start + s.step - 1) / s.step).toNat
  else ((s.start - s.stop - s.step - 1) / (-s.step)).toNat

def places (s : Span) : List Nat :=
  (List.range s.count).map fun (i : Nat) => (s.start + (i : Int) * s.step).toNat

def select {α : Type} (s : Span) (xs : List α) : List α := s.places.filterMap fun i => xs[i]?

/-- The items that stand at no place of a span. -/
def reject {α : Type} (s : Span) (xs : List α) : List α :=
  let places := s.places
  xs.zipIdx.filterMap fun (x, i) => if places.contains i then none else some x

/-- Put items in the place of a span. A span with step one may change its length; any other takes as
many items as it has places. -/
def replace? {α : Type} (s : Span) (xs new : List α) : Option (List α) :=
  if s.step = 1 then
    some (xs.take s.start.toNat ++ new ++ xs.drop (max s.start s.stop).toNat)
  else if new.length = s.count then
    some ((s.places.zip new).foldl (fun acc (i, x) => acc.set i x) xs)
  else none

end Span
end Exemplar
