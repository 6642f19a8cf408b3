import Exemplar.Store.Sequence
/-!
# Operations on maps

Every operation that stores a value into a linked map links it to the map, and releases what it
takes out. Clearing a map and taking its last entry are operations on the bare content and leave
links as they are.
-/
namespace Exemplar.MapNode

open StoreM

def get? (m : Ref) (key : Scalar) : StoreM (Option Value) := return (← entries m).get? key

/-- The value under a key, which must be there. -/
def get! (m : Ref) (key : Scalar) : StoreM Value := do
  match ← get? m key with
  | some v => return v
  | none => throw .missingKey

/-- The value under a key, or another one if the key is absent. -/
def getD (m : Ref) (key : Scalar) (default : Value) : StoreM Value :=
  return (← get? m key).getD default

def contains (m : Ref) (key : Scalar) : StoreM Bool := return (← get? m key).isSome

def size (m : Ref) : StoreM Nat := return (← entries m).length

/-- Write an entry. The old value is released before the new one is linked. -/
def set (m : Ref) (key : Scalar) (v : Value) : StoreM Unit := do
  if let some old ← get? m key then releaseFrom m old
  writeEntry m key (← accept m v)

def setAll (m : Ref) : List (Scalar × Value) → StoreM Unit
  | [] => return
  | (key, v) :: rest => do
    set m key v
    setAll m rest

def update (m : Ref) (source : Value) : StoreM Unit := do setAll m (← contentOf source)

/-- Drop an entry, which must be there. -/
def delete (m : Ref) (key : Scalar) : StoreM Unit := do
  match ← get? m key with
  | none => throw .missingKey
  | some old =>
    releaseFrom m old
    setEntries m ((← entries m).erase key)

/-- Take an entry out. A default stands in for an absent one, and is released like it. -/
def pop (m : Ref) (key : Scalar) (default : Option Value) : StoreM Value := do
  match ← get? m key with
  | some v =>
    setEntries m ((← entries m).erase key)
    releaseFrom m v
    return v
  | none =>
    match default with
    | some v =>
      releaseFrom m v
      return v
    | none => throw .missingKey

def requireLinked (m : Ref) : StoreM Unit := do if ← isPlain m then throw .noOperation

def put (m : Ref) (key : Scalar) (v : Value) : StoreM Unit := do
  requireLinked m
  set m key v

/-- Take an entry out of a linked map; an absent one gives null. -/
def remove (m : Ref) (key : Scalar) : StoreM Value := do
  requireLinked m
  named m "pop" (pop m key (some .null))

/-- The value under a key, which is written first if the key is absent. -/
def setDefault (m : Ref) (key : Scalar) (default : Value) : StoreM Value := do
  unless ← contains m key do set m key default
  get! m key

/-- The value under a key, which is made and written first if the key is absent. -/
def autocreate (m : Ref) (key : Scalar) (make : StoreM Value) : StoreM Value := do
  requireLinked m
  unless ← contains m key do set m key (← make)
  get! m key

/-- Take the last entry out, leaving its link as it is. -/
def popLast (m : Ref) : StoreM (Scalar × Value) := do
  match (← entries m).getLast? with
  | some e =>
    setEntries m (← entries m).dropLast
    return e
  | none => throw .missingKey

def copy (m : Ref) : StoreM Ref := do add { body := .map (← entries m), form := .plain }

/-- Drop all entries, leaving their links as they are. -/
def clear (m : Ref) : StoreM Unit := setEntries m []

/-- An empty linked map. -/
def new (type : Option NodeType) : StoreM Ref := add { body := .map [], form := .linked, type }

def ofValue (source : Option Value) : StoreM Ref := do
  let m ← new none
  if let some v := source then update m v
  return m

end Exemplar.MapNode
