import Exemplar.Store.Order
import Exemplar.Store.Sequence
/-!
# Operations on lists

Every operation that stores a value into a linked list links it to the list, and releases what it
takes out. A bound list first binds plain containers to the type of its items; how that is done is
a parameter. Clearing and reversing a list are operations on the bare content and leave links as
they are.
-/
namespace Exemplar.ListNode

open StoreM

abbrev BindItem := Binder → Value → StoreM Value

def isPlainContainer : Value → StoreM Bool
  | .node r => isPlain r
  | _ => return false

/-- Bind a plain container for a bound list. What was set under the name of that operation takes its
place: null leaves the container as it is. -/
def bindFor (bindItem : BindItem) (l : Ref) (binder : Binder) (v : Value) : StoreM Value := do
  match Assoc.get? (← node l).attributes bindOperation with
  | none => bindItem binder v
  | some (.scalar .null) => return v
  | some _ => throw .wrongKind

def acceptItem (bindItem : BindItem) (l : Ref) (v : Value) : StoreM Value :=
  named l adoptOperation do
    match (← node l).form with
    | .bound binder =>
      if ← isPlainContainer v then adoptInto (← bindFor bindItem l binder v) (some l)
      else adoptInto v (some l)
    | _ => accept l v

def acceptItems (bindItem : BindItem) (l : Ref) : List Value → StoreM (List Value)
  | [] => return []
  | v :: rest => do
    let v ← acceptItem bindItem l v
    return v :: (← acceptItems bindItem l rest)

def releaseAll (l : Ref) : List Value → StoreM Unit
  | [] => return
  | v :: rest => do
    releaseFrom l v
    releaseAll l rest

def size (l : Ref) : StoreM Nat := return (← items l).length

def place (l : Ref) (index : Int) : StoreM Nat := do
  match placeOf (← items l).length index with
  | some i => return i
  | none => throw .outOfRange

def get! (l : Ref) (index : Int) : StoreM Value := do
  let vs ← items l
  match (placeOf vs.length index).bind (vs[·]?) with
  | some v => return v
  | none => throw .outOfRange

/-- The item at an index, or another value if there is none. -/
def getD (l : Ref) (index : Int) (default : Value) : StoreM Value := do
  let vs ← items l
  return ((placeOf vs.length index).bind (vs[·]?)).getD default

def span (l : Ref) (slice : Slice) : StoreM Span := do
  match slice.span? (← items l).length with
  | some s => return s
  | none => throw .badValue

def getSlice (l : Ref) (slice : Slice) : StoreM Ref := do
  let s ← span l slice
  add { body := .list (s.select (← items l)), form := .plain }

def append (bindItem : BindItem) (l : Ref) (v : Value) : StoreM Unit := do
  let v ← acceptItem bindItem l v
  setItems l ((← items l) ++ [v])

def appendAll (bindItem : BindItem) (l : Ref) : List Value → StoreM Unit
  | [] => return
  | v :: rest => do
    named l "append" (append bindItem l v)
    appendAll bindItem l rest

/-- Append the maps among the pending containers and below them, depth first. What a container holds
is looked at only when it is its turn, so that maps which are appended to a list of the tree are
met again in it. `fuel` bounds the walk. -/
def appendBelow (bindItem : BindItem) (l : Ref) : (fuel : Nat) → List Ref → StoreM Unit
  | _, [] => return
  | 0, _ => throw .endless
  | fuel + 1, r :: pending => do
    if (← node r).isMap then named l "append" (append bindItem l (.node r))
    appendBelow bindItem l fuel ((← get).childrenOf r ++ pending)

/-- How long a walk may take before it counts as endless. -/
def walkLimit (s : Store) : Nat := (s.nodes.size + 1) ^ 2 + 1000

/-- A linked list that is not empty never comes to the end of its own items while they are appended
to it. -/
def requireEnd (l : Ref) (source : Value) (vs : List Value) : StoreM Unit := do
  if source.identical (.node l) ∧ !vs.isEmpty then
    unless ← isPlain l do throw .endless

def extendEach (bindItem : BindItem) (l : Ref) (source : Value) : StoreM Unit := do
  let vs ← elements source
  appendAll bindItem l vs
  requireEnd l source vs

/-- Append the elements of a value. Those of a view are found while they are appended. -/
def extend (bindItem : BindItem) (l : Ref) (source : Value) : StoreM Unit := do
  match source with
  | .descendents _ (some root) =>
    appendBelow bindItem l (walkLimit (← get)) ((← get).childrenOf root)
  | _ => extendEach bindItem l source

def requireCountable (index : Int) : StoreM Unit :=
  if index < -(2 ^ 63) ∨ 2 ^ 63 ≤ index then throw .tooLarge else return

/-- Insert an item before an index; an index out of range means the nearer end. -/
def insert (bindItem : BindItem) (l : Ref) (index : Int) (v : Value) : StoreM Unit := do
  let v ← acceptItem bindItem l v
  requireCountable index
  let vs ← items l
  let i := insertPlace vs.length index
  setItems l (vs.take i ++ v :: vs.drop i)

/-- Replace an item. The old one is released before the new one is linked. -/
def set (bindItem : BindItem) (l : Ref) (index : Int) (v : Value) : StoreM Unit := do
  releaseFrom l (← get! l index)
  let v ← acceptItem bindItem l v
  let i ← place l index
  setItems l ((← items l).set i v)

def setSlice (bindItem : BindItem) (l : Ref) (slice : Slice) (source : Value) : StoreM Unit := do
  releaseAll l ((← span l slice).select (← items l))
  let new ← acceptItems bindItem l (← elements source)
  match (← span l slice).replace? (← items l) new with
  | some vs => setItems l vs
  | none => throw .badValue

def delete (l : Ref) (index : Int) : StoreM Unit := do
  releaseFrom l (← get! l index)
  setItems l ((← items l).eraseIdx (← place l index))

def deleteSlice (l : Ref) (slice : Slice) : StoreM Unit := do
  let s ← span l slice
  releaseAll l (s.select (← items l))
  setItems l (s.reject (← items l))

def pop (l : Ref) (index : Int) : StoreM Value := do
  requireCountable index
  let v ← get! l index
  setItems l ((← items l).eraseIdx (← place l index))
  releaseFrom l v
  return v

/-- The place of the first item from a place up to another one that is or equals a value. Places are
given like the bounds of a slice. -/
def indexWithin (l : Ref) (v : Value) (start stop : Option Int) : StoreM Nat := do
  let vs ← items l
  let first := (Slice.bound vs.length 0 vs.length 0 start).toNat
  let last := (Slice.bound vs.length 0 vs.length vs.length stop).toNat
  match ← placeAmong v first ((vs.take last).drop first) with
  | some i => return i
  | none => throw .badValue

def indexOf (l : Ref) (v : Value) : StoreM Nat := indexWithin l v none none

def remove (l : Ref) (v : Value) : StoreM Unit := do
  let i ← named l "index" (indexOf l v)
  delete l i

def contains (l : Ref) (v : Value) : StoreM Bool := do
  return (← placeAmong v 0 (← items l)).isSome

def count (l : Ref) (v : Value) : StoreM Nat := do countAmong v (← items l)

/-- Reverse the items, leaving their links as they are. -/
def reverse (l : Ref) : StoreM Unit := do setItems l (← items l).reverse

/-- Put the items in order, leaving their links as they are. -/
def sort (l : Ref) : StoreM Unit := do setItems l (← sorted (setItems l) (← items l))

def copy (l : Ref) : StoreM Ref := do add { body := .list (← items l), form := .plain }

/-- Drop all items, leaving their links as they are. -/
def clear (l : Ref) : StoreM Unit := setItems l []

def requireLinked (l : Ref) : StoreM Unit := do if ← isPlain l then throw .noOperation

/-- An empty linked list. -/
def new : StoreM Ref := add { body := .list [], form := .linked }

def ofValue (bindItem : BindItem) (source : Option Value) : StoreM Ref := do
  let l ← new
  if let some v := source then extend bindItem l v
  return l

end Exemplar.ListNode
