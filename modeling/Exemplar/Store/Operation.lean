import Exemplar.Store.List
import Exemplar.Store.Map
/-!
# Operations as data

What can be done to a map or a list, each operation as a value, so that a run of operations is a
list of them. An operation that has nothing to tell gives null.
-/
namespace Exemplar

inductive Seed where
  | map
  | list
  | value (v : Value)

inductive MapOperation where
  | read (key : Scalar)
  | readOr (key : Scalar) (default : Value)
  | contains (v : Value)
  | size
  | set (key : Scalar) (v : Value)
  | put (key : Scalar) (v : Value)
  | delete (key : Scalar)
  | pop (key : Scalar) (default : Option Value)
  | remove (key : Scalar)
  | update (source : Value)
  | setDefault (key : Scalar) (default : Value)
  | autocreate (key : Scalar) (seed : Seed)
  | popLast
  | clear
  | copy

inductive ListOperation where
  | read (index : Int)
  | readOr (index : Int) (default : Value)
  | readSlice (slice : Slice)
  | getSlice (slice : Slice)
  | indexOf (v : Value) (start stop : Option Int)
  | count (v : Value)
  | contains (v : Value)
  | size
  | set (index : Int) (v : Value)
  | setSlice (slice : Slice) (source : Value)
  | put (index : Int) (v : Value)
  | putSlice (slice : Slice) (source : Value)
  | delete (index : Int)
  | deleteSlice (slice : Slice)
  | pop (index : Int)
  | append (v : Value)
  | insert (index : Int) (v : Value)
  | extend (source : Value)
  | grow (source : Value)
  | remove (v : Value)
  | reverse
  | sort
  | clear
  | copy

namespace StoreM

/-- An operation that has nothing to tell. -/
def silent (a : StoreM Unit) : StoreM Value := do
  a
  return .null

def number (a : StoreM Nat) : StoreM Value := return .scalar (.int (← a))

def truth (a : StoreM Bool) : StoreM Value := return .scalar (.bool (← a))

end StoreM

open StoreM

def Seed.make : Seed → StoreM Value
  | .map => return .node (← MapNode.new none)
  | .list => return .node (← ListNode.new)
  | .value v => return v

/-- Whether a value is among the keys of a map. Containers are never keys, and asking for them is a
fault. -/
def MapNode.hasKey (m : Ref) (v : Value) : StoreM Bool := do
  match ← keyOf v with
  | some key => contains m key
  | none => return false

/-- The name by which an operation on a map is called; some are not called by name. -/
def MapOperation.name? : MapOperation → Option String
  | .readOr _ _ => some "get"
  | .put _ _ => some "put"
  | .pop _ _ => some "pop"
  | .remove _ => some "remove"
  | .update _ => some "update"
  | .setDefault _ _ => some "setdefault"
  | .autocreate _ _ => some "autocreate"
  | .popLast => some "popitem"
  | .clear => some "clear"
  | .copy => some "copy"
  | _ => none

/-- The name by which an operation on a list is called; some are not called by name. -/
def ListOperation.name? : ListOperation → Option String
  | .readOr _ _ => some "get"
  | .getSlice _ => some "get"
  | .put _ _ => some "put"
  | .putSlice _ _ => some "put"
  | .indexOf _ _ _ => some "index"
  | .count _ => some "count"
  | .pop _ => some "pop"
  | .append _ => some "append"
  | .insert _ _ => some "insert"
  | .extend _ => some "extend"
  | .remove _ => some "remove"
  | .reverse => some "reverse"
  | .sort => some "sort"
  | .clear => some "clear"
  | .copy => some "copy"
  | _ => none

def MapOperation.perform (m : Ref) : MapOperation → StoreM Value
  | .read key => MapNode.get! m key
  | .readOr key default => MapNode.getD m key default
  | .contains v => truth (MapNode.hasKey m v)
  | .size => number (MapNode.size m)
  | .set key v => silent (MapNode.set m key v)
  | .put key v => silent (MapNode.put m key v)
  | .delete key => silent (MapNode.delete m key)
  | .pop key default => MapNode.pop m key default
  | .remove key => MapNode.remove m key
  | .update source => silent (MapNode.update m source)
  | .setDefault key default => MapNode.setDefault m key default
  | .autocreate key seed => MapNode.autocreate m key seed.make
  | .popLast => do
    let (key, v) ← MapNode.popLast m
    return .pair key v
  | .clear => silent (MapNode.clear m)
  | .copy => return .node (← MapNode.copy m)

def ListOperation.perform (bindItem : ListNode.BindItem) (l : Ref) : ListOperation → StoreM Value
  | .read index => ListNode.get! l index
  | .readOr index default => do
    ListNode.requireLinked l
    ListNode.getD l index default
  | .readSlice slice => return .node (← ListNode.getSlice l slice)
  | .getSlice slice => do
    ListNode.requireLinked l
    return .node (← ListNode.getSlice l slice)
  | .indexOf v start stop => number (ListNode.indexWithin l v start stop)
  | .count v => number (ListNode.count l v)
  | .contains v => truth (ListNode.contains l v)
  | .size => number (ListNode.size l)
  | .set index v => silent (ListNode.set bindItem l index v)
  | .setSlice slice source => silent (ListNode.setSlice bindItem l slice source)
  | .put index v => silent do
    ListNode.requireLinked l
    ListNode.set bindItem l index v
  | .putSlice slice source => silent do
    ListNode.requireLinked l
    ListNode.setSlice bindItem l slice source
  | .delete index => silent (ListNode.delete l index)
  | .deleteSlice slice => silent (ListNode.deleteSlice l slice)
  | .pop index => ListNode.pop l index
  | .append v => silent (ListNode.append bindItem l v)
  | .insert index v => silent (ListNode.insert bindItem l index v)
  | .extend source => silent (ListNode.extend bindItem l source)
  | .grow source => silent (named l "extend" (ListNode.extend bindItem l source))
  | .remove v => silent (ListNode.remove l v)
  | .reverse => silent (ListNode.reverse l)
  | .sort => silent (ListNode.sort l)
  | .clear => silent (ListNode.clear l)
  | .copy => return .node (← ListNode.copy l)

/-- Do an operation on a map, calling it by its name if it has one. -/
def MapOperation.run (m : Ref) (op : MapOperation) : StoreM Value :=
  match op.name? with
  | some name => named m name (op.perform m)
  | none => op.perform m

/-- Do an operation on a list, calling it by its name if it has one. -/
def ListOperation.run (bindItem : ListNode.BindItem) (l : Ref) (op : ListOperation) :
    StoreM Value :=
  match op.name? with
  | some name => named l name (op.perform bindItem l)
  | none => op.perform bindItem l

end Exemplar
