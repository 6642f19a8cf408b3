import Exemplar.Store.Sequence
/-!
# Ways to nodes

How a node is reached from another one through what containers hold.
-/
namespace Exemplar.Store

/-- What a value holds under a key, or at an index if it is a list. -/
def held? (s : Store) (v : Value) (key : Scalar) : Option Value :=
  match v with
  | .node r =>
    match (s.get? r).map Node.body with
    | some (.map es) => Assoc.get? es key
    | some (.list vs) => key.index?.bind fun i => (placeOf vs.length i).bind (vs[·]?)
    | none => none
  | _ => none

def follow? (s : Store) (v : Value) (way : List Scalar) : Option Value := way.foldlM s.held? v

/-- The way from a value to a node, the first one when containers are looked at before what they
hold. -/
def wayFrom? (s : Store) (v : Value) (r : Ref) : Option (List Scalar) :=
  (s.snapshot v).find? r

/-- Where a node is, given named values: a name alone if the named value is the node, or else the
first name with a way to the node. -/
def placeIn? (s : Store) (named : List (String × Value)) (r : Ref) :
    Option (String × List Scalar) :=
  match named.find? fun e => (s.wayFrom? e.2 r) = some [] with
  | some (name, _) => some (name, [])
  | none => named.findSome? fun (name, v) => (s.wayFrom? v r).map fun way => (name, way)

end Exemplar.Store
