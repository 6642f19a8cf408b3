import Exemplar.Store.Basic
/-!
# Parents

The way up from a node along its parent links.
-/
namespace Exemplar.Store

def parent? (s : Store) (r : Ref) : Option Ref := (s.get? r).bind Node.parent

def isStruct (s : Store) (r : Ref) : Bool :=
  match s.get? r with
  | some n =>
    n.isMap && match n.type with
      | some (.struct _) => true
      | _ => false
  | none => false

end Exemplar.Store

namespace Exemplar.StoreM

/-- The container that a node is linked to. What was set under the name of the link cannot be
followed. -/
def followLink (r : Ref) : StoreM (Option Ref) := do
  let n ← node r
  if Assoc.has n.attributes parentLink then throw .wrongKind
  return n.parent

/-- Ask a node for its parent. -/
def askParent (r : Ref) : StoreM (Option Ref) := named r "get_parent" (followLink r)

/-- Ask for the nearest node from a parent upwards that a struct type classifies. A way that takes
more than so many steps counts as endless. -/
def askTypedFrom : (steps : Nat) → Option Ref → StoreM (Option Ref)
  | _, none => return none
  | 0, some _ => throw .endless
  | steps + 1, some r => do
    if (← get).isStruct r then return some r
    askTypedFrom steps (← askParent r)

/-- Ask for the nearest ancestor that a struct type classifies. A way up that does not repeat itself
takes no more steps than there are nodes. -/
def askTypedParent (r : Ref) : StoreM (Option Ref) := do
  askTypedFrom ((← get).nodes.size + 1) (← askParent r)

end Exemplar.StoreM
