import Exemplar.Store.Basic
/-!
# Comparison of values

Values are compared by what they hold: numbers by value, lists item by item, maps entry by entry in
any order. Inside containers a value always counts as equal to itself, also what is no number.
Containers that contain themselves may never come to an end.
-/
namespace Exemplar

def Value.identical : Value → Value → Bool
  | .nan a, .nan b => a == b
  | .node r, .node q => r == q
  | .member m, .member n => m == n
  | .descendents a _, .descendents b _ => a == b
  | _, _ => false

/-- Comparison item by item; lists of different lengths differ. -/
def compareItems (same : Value → Value → Option Bool) : List Value → List Value → Option Bool
  | [], [] => some true
  | v :: vs, w :: ws => do if ← same v w then compareItems same vs ws else return false
  | _, _ => some false

def compareEntries (same : Value → Value → Option Bool) (table : Assoc Scalar Value) :
    List (Scalar × Value) → Option Bool
  | [] => some true
  | (key, v) :: rest =>
    match table.get? key with
    | none => some false
    | some w => do if ← same w v then compareEntries same table rest else return false

namespace Store

/-- Comparison of two values from inside the pairs of containers of a path; none if it does not end.
`fuel` bounds the nesting. -/
def compareWithin (s : Store) :
    (fuel : Nat) → (path : List (Ref × Ref)) → Value → Value → Option Bool
  | _, _, .scalar a, .scalar b => some (a == b)
  | _, _, .member m, .member n => some (m == n)
  | _, _, .descendents a _, .descendents b _ => some (a == b)
  | fuel + 1, path, .pair k v, .pair l w =>
    if k == l then
      if v.identical w then some true else s.compareWithin fuel path v w
    else some false
  | fuel + 1, path, .node r, .node q =>
    if path.contains (r, q) then none
    else
      let inner (v w : Value) : Option Bool :=
        if v.identical w then some true else s.compareWithin fuel ((r, q) :: path) v w
      match (s.get? r).map Node.body, (s.get? q).map Node.body with
      | some (.list vs), some (.list ws) =>
        if vs.length = ws.length then compareItems inner vs ws else some false
      | some (.map es), some (.map fs) =>
        if es.length = fs.length then compareEntries inner fs es else some false
      | _, _ => some false
  | 0, _, .node _, .node _ => none
  | 0, _, .pair _ _, .pair _ _ => none
  | _, _, _, _ => some false

/-- Comparison of two values. A path that does not repeat itself has at most as many pairs as there
are pairs of nodes. -/
def compare (s : Store) (v w : Value) : Option Bool :=
  s.compareWithin (2 * (s.nodes.size + 1) ^ 2) [] v w

def compareInside (s : Store) (v w : Value) : Option Bool :=
  if v.identical w then some true else s.compare v w

end Store

namespace StoreM

def settled (answer : Option Bool) : StoreM Bool :=
  match answer with
  | some b => return b
  | none => throw .endless

/-- Whether two values compare equal. -/
def same (v w : Value) : StoreM Bool := do settled ((← get).compare v w)

/-- The place of the first of some items that is or equals a value, counted from a number. -/
def placeAmong (v : Value) (place : Nat) : List Value → StoreM (Option Nat)
  | [] => return none
  | w :: rest => do
    if ← settled ((← get).compareInside w v) then return some place
    placeAmong v (place + 1) rest

def countAmong (v : Value) : List Value → StoreM Nat
  | [] => return 0
  | w :: rest => do
    let here ← settled ((← get).compareInside w v)
    return (if here then 1 else 0) + (← countAmong v rest)

end StoreM
end Exemplar
