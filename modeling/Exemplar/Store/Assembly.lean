import Exemplar.Json.Event
import Exemplar.Store.List
import Exemplar.Store.Map
/-!
# Documents as nodes, from events

Events build linked nodes with a stack of the open containers and a stack of the keys under which
they are filled, one key for every open container. A container is stored into the one around it as
soon as it opens, and filled afterwards.
-/
namespace Exemplar

structure Assembly where
  root : Value
  holders : List Ref
  keys : List Scalar

namespace Assembly

open StoreM

def empty : Assembly := ⟨.null, [], []⟩

/-- Store a value into the innermost open container; without one it is the root. -/
def attach (a : Assembly) (v : Value) : StoreM Assembly := do
  match a.holders with
  | [] => return { a with root := v }
  | r :: _ =>
    if (← node r).isMap then
      match a.keys with
      | [] => throw .outOfRange
      | key :: _ => MapNode.set r key v
    else ListNode.append (fun _ v => return v) r v
    return a

def enter (a : Assembly) (r : Ref) : StoreM Assembly := do
  let a ← a.attach (.node r)
  return { a with holders := r :: a.holders, keys := .null :: a.keys }

def leave (a : Assembly) : StoreM Assembly := do
  match a.holders, a.keys with
  | _ :: holders, _ :: keys => return { a with holders, keys }
  | _, _ => throw .outOfRange

def take (a : Assembly) : Json.Event → StoreM Assembly
  | .key name =>
    match a.keys with
    | [] => throw .outOfRange
    | _ :: keys => return { a with keys := .str name :: keys }
  | .startMap => do a.enter (← MapNode.new none)
  | .startList => do a.enter (← ListNode.new)
  | .endMap => a.leave
  | .endList => a.leave
  | .scalar s => do a.attach (← ofScalar s)

end Assembly

/-- The value that events build, as far as they go. -/
def StoreM.assemble (events : List Json.Event) : StoreM Value := do
  return (← events.foldlM Assembly.take .empty).root

end Exemplar
