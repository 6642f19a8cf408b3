import Exemplar.Store.Equality
/-!
# The order of values

Numbers, strings and lists can be put in order: lists by their first items that differ. Lists are
sorted by inserting one item after the other into the part that is already in order, each behind
the items that it does not come before. Where two items have no order, sorting stops there.
-/
namespace Exemplar

/-- The first places where two lists hold different values, or what is left of both. -/
def firstDifference (same : Value → Value → StoreM Bool) :
    List Value → List Value → StoreM (List Value × List Value)
  | v :: vs, w :: ws => do
    if ← same v w then firstDifference same vs ws else return (v :: vs, w :: ws)
  | vs, ws => return (vs, ws)

namespace StoreM

/-- Whether one value comes before another one. `fuel` bounds the nesting. -/
def lessWithin : (fuel : Nat) → Value → Value → StoreM Bool
  | _, .nan _, .nan _ => return false
  | _, .nan _, .scalar s => if s.isNumber then return false else throw .wrongKind
  | _, .scalar s, .nan _ => if s.isNumber then return false else throw .wrongKind
  | _, .scalar s, .scalar t =>
    match s.less? t with
    | some b => return b
    | none => throw .wrongKind
  | 0, _, _ => throw .endless
  | fuel + 1, .pair k v, .pair l w => do
    if k == l then
      if ← settled ((← get).compareInside v w) then return false else lessWithin fuel v w
    else lessWithin fuel (.scalar k) (.scalar l)
  | fuel + 1, .node r, .node q => do
    match (← node r).body, (← node q).body with
    | .list vs, .list ws =>
      match ← firstDifference (fun v w => do settled ((← get).compareInside v w)) vs ws with
      | (v :: _, w :: _) => lessWithin fuel v w
      | (vs, ws) => return decide (vs.length < ws.length)
    | _, _ => throw .wrongKind
  | _, _, _ => throw .wrongKind

def less (v w : Value) : StoreM Bool := do lessWithin ((← get).nodes.size + 2) v w

/-- The place among sorted items, from one place to another, where a value is inserted: behind the
items that it does not come before. -/
def placeFor (v : Value) (sorted : Array Value) : (steps low high : Nat) → StoreM Nat
  | 0, low, _ => return low
  | steps + 1, low, high => do
    if low < high then
      let middle := low + (high - low) / 2
      if ← less v (sorted.getD middle .null) then placeFor v sorted steps low middle
      else placeFor v sorted steps (middle + 1) high
    else return low

/-- Insert items one after the other into sorted ones. When a comparison fails, what is sorted by
then stands before the rest. -/
def insertSorted (write : List Value → StoreM Unit) (sorted : List Value) :
    List Value → StoreM (List Value)
  | [] => return sorted
  | v :: rest => do
    let place ← tryCatch (placeFor v sorted.toArray (sorted.length + 1) 0 sorted.length) fun f => do
      write (sorted ++ v :: rest)
      throw f
    insertSorted write (sorted.take place ++ v :: sorted.drop place) rest

/-- The items of a run that goes on from some items, last one first, as long as each one comes
before the one before it, or as long as none does; and the items behind the run. -/
def runFrom (down : Bool) (run : List Value) : List Value → StoreM (List Value × List Value)
  | [] => return (run, [])
  | v :: rest => do
    match run with
    | [] => return ([], v :: rest)
    | last :: _ =>
      if (← less v last) = down then runFrom down (v :: run) rest else return (run, v :: rest)

/-- Items in order. A run at the start that goes down is turned round. `write` keeps what has been
done when a comparison fails. -/
def sorted (write : List Value → StoreM Unit) : List Value → StoreM (List Value)
  | v :: w :: rest => do
    let down ← less w v
    let (run, behind) ← runFrom down [w, v] rest
    insertSorted write (if down then run else run.reverse) behind
  | vs => return vs

end StoreM
end Exemplar
