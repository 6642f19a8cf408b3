import Exemplar.Model.Attribute
import Exemplar.Store.Operation
import Exemplar.Store.Parent
/-!
# Calls by name

What happens when something that a container or a class has is called by its name with arguments.
Arguments that do not fit the operation are a fault, and so is calling what is no operation.
-/
namespace Exemplar

namespace Invocation

open StoreM

def indexOf : Value → StoreM Int
  | .scalar s =>
    match s.index? with
    | some i => return i
    | none => throw .wrongKind
  | _ => throw .wrongKind

/-- Do something with an argument as a key. What can be a key, but is one of no map, is absent. -/
def withKey (v : Value) (absent : StoreM Value) (f : Scalar → StoreM Value) : StoreM Value := do
  match ← keyOf v with
  | some key => f key
  | none => absent

def parentOf : Value → StoreM (Option Ref)
  | .scalar .null => return none
  | .node r => do if ← isPlain r then throw .wrongKind else return some r
  | _ => throw .wrongKind

def callMap (m : Ref) (name : String) (args : List Value) : StoreM Value := do
  let perform (op : MapOperation) := op.perform m
  let write (key v : Value) := withKey key (throw .wrongKind) fun k => perform (.set k v)
  match name, args with
  | "get", [key] => withKey key (return .null) fun k => perform (.readOr k .null)
  | "get", [key, v] => withKey key (return v) fun k => perform (.readOr k v)
  | "put", [key, v] => write key v
  | "remove", [key] =>
    withKey key (return .null) fun k => named m "pop" (perform (.pop k (some .null)))
  | "pop", [key] => withKey key (throw .missingKey) fun k => perform (.pop k none)
  | "pop", [key, v] =>
    withKey key (do releaseFrom m v; return v) fun k => perform (.pop k (some v))
  | "setdefault", [key] =>
    withKey key (throw .wrongKind) fun k => perform (.setDefault k .null)
  | "setdefault", [key, v] => withKey key (throw .wrongKind) fun k => perform (.setDefault k v)
  | "autocreate", [key, _] =>
    withKey key (throw .wrongKind) fun k => do
      match ← MapNode.get? m k with
      | some v => return v
      | none => throw .wrongKind
  | "update", [] => return .null
  | "update", [v] => perform (.update v)
  | "clear", [] => perform .clear
  | "popitem", [] => perform .popLast
  | "copy", [] => perform .copy
  | "__len__", [] => perform .size
  | "__contains__", [v] => perform (.contains v)
  | "__getitem__", [key] => withKey key (throw .missingKey) fun k => perform (.read k)
  | "__setitem__", [key, v] => write key v
  | "__delitem__", [key] => withKey key (throw .missingKey) fun k => perform (.delete k)
  | _, _ => throw .wrongKind

def callList (bindItem : ListNode.BindItem) (l : Ref) (name : String) (args : List Value) :
    StoreM Value := do
  let perform (op : ListOperation) := op.perform bindItem l
  match name, args with
  | "get", [i] => perform (.readOr (← indexOf i) .null)
  | "get", [i, v] => perform (.readOr (← indexOf i) v)
  | "put", [i, v] => perform (.set (← indexOf i) v)
  | "append", [v] => perform (.append v)
  | "insert", [.scalar s, v] =>
    match s.index? with
    | some i => perform (.insert i v)
    | none =>
      let _ ← ListNode.acceptItem bindItem l v
      throw .wrongKind
  | "insert", [_, v] =>
    let _ ← ListNode.acceptItem bindItem l v
    throw .wrongKind
  | "extend", [v] => perform (.extend v)
  | "pop", [] => perform (.pop (-1))
  | "pop", [i] => perform (.pop (← indexOf i))
  | "remove", [v] => perform (.remove v)
  | "index", [v] => perform (.indexOf v none none)
  | "index", [v, i] => perform (.indexOf v (some (← indexOf i)) none)
  | "index", [v, i, j] => perform (.indexOf v (some (← indexOf i)) (some (← indexOf j)))
  | "count", [v] => perform (.count v)
  | "sort", [] => perform .sort
  | "reverse", [] => perform .reverse
  | "clear", [] => perform .clear
  | "copy", [] => perform .copy
  | "__len__", [] => perform .size
  | "__contains__", [v] => perform (.contains v)
  | "__getitem__", [i] => perform (.read (← indexOf i))
  | "__setitem__", [i, v] => perform (.set (← indexOf i) v)
  | "__delitem__", [i] => perform (.delete (← indexOf i))
  | "__iadd__", [v] =>
    let _ ← perform (.grow v)
    return .node l
  | _, _ => throw .wrongKind

/-- Write one value under each key that a value yields, into a new map. -/
def fromKeys (make : StoreM Ref) (source v : Value) : StoreM Value := do
  let m ← make
  for e in ← elements source do
    let _ ← withKey e (throw .wrongKind) fun k => (MapOperation.set k v).perform m
  return .node m

end Invocation

namespace Workshop

open Invocation

def newLike (w : Workshop) (r : Ref) : StoreM Ref := do
  match ← w.classOf? r with
  | some d => w.newStruct d
  | none =>
    if ← StoreM.isPlain r then StoreM.add { body := .map [], form := .plain }
    else MapNode.new none

def callCommon (v : Value) (name : String) (args : List Value) : StoreM Value := do
  let shown := (← get).snapshot v
  match name, args with
  | "__repr__", [] => return .scalar (.str shown.quoted)
  | "__str__", [] => return .scalar (.str shown.text)
  | _, _ => throw .wrongKind

def callOperation (w : Workshop) (r : Ref) (name : String) (args : List Value) :
    StoreM Value := do
  let n ← StoreM.node r
  match name, args with
  | "get_parent", [] => return ((← StoreM.followLink r).map Value.node).getD .null
  | "_parent_ref", [] => return (n.parent.map Value.node).getD .null
  | "descendents", [] => StoreM.viewOf (some r)
  | "_set_parent", [v] =>
    StoreM.link r (← parentOf v)
    return .null
  | "_adopt", [v] => ListNode.acceptItem w.bindItem r v
  | "_bind_item", [v] =>
    match n.form with
    | .bound binder => w.bindItem binder v
    | _ => throw .wrongKind
  | "fromkeys", [source] => fromKeys (w.newLike r) source .null
  | "fromkeys", [source, v] => fromKeys (w.newLike r) source v
  | "__repr__", _ => callCommon (.node r) name args
  | "__str__", _ => callCommon (.node r) name args
  | _, _ => if n.isMap then callMap r name args else callList w.bindItem r name args

variable [Json.Reader]

def callOn (w : Workshop) (transport : Fetch.Transport) (v : Value) (name : String)
    (args : List Value) : ModelM Value := do
  match ← w.readAttribute v name with
  | .callable =>
    match v with
    | .node r =>
      let free : ModelM Value := (w.callOperation r name args : StoreM Value)
      match ← (w.classOf? r : ModelM (Option Definition)) with
      | some d =>
        match (← w.modelOf d).method? name with
        | some m => if m.operation = .get then free else w.call transport d m v args
        | none => free
      | none => free
    | v => (callCommon v name args : ModelM Value)
  | _ => throw (.store .wrongKind)

/-- Call an operation of linked maps that takes the map as its first argument. Most of them take
only maps; what they ask of other values decides how they fail there. -/
def callUnbound (w : Workshop) (name : String) (args : List Value) : StoreM Value := do
  match args with
  | [] => throw .wrongKind
  | self :: rest =>
    let linkName := name == "get_parent" || name == linkOperation
    match name, self, rest with
    | "update", _, [] => return .null
    | _, .node r, rest =>
      let n ← StoreM.node r
      if linkName && n.form == .plain then throw .noOperation
      else if n.isMap || linkName || name == "put" then w.callOperation r name rest
      else throw .wrongKind
    | "get_parent", _, [] => throw .noOperation
    | "remove", _, [_] => throw .noOperation
    | _, _, _ => throw .wrongKind

/-- Call something on the class of a type. The methods of instances take the instance first. -/
def callOnClass (w : Workshop) (transport : Fetch.Transport) (name : String) (method : String)
    (args : List Value) : ModelM Value := do
  let d ← w.definition name
  let m ← w.modelOf d
  match m.method? method with
  | some f =>
    if f.static then w.call transport d f .null args
    else match args with
      | [] => throw (.store .wrongKind)
      | context :: rest => w.call transport d f context rest
  | none =>
    if (m.property? method).isSome || method == Attribute.classType then
      throw (.store .wrongKind)
    else if d.kind = .struct && Attribute.linkedMapNames.contains method then
      match method, args with
      | "fromkeys", [source] => (fromKeys (w.newStruct d) source .null : ModelM Value)
      | "fromkeys", [source, v] => (fromKeys (w.newStruct d) source v : ModelM Value)
      | "fromkeys", _ => throw (.store .wrongKind)
      | _, _ => (w.callUnbound method args : ModelM Value)
    else throw (.store .noOperation)

end Workshop
end Exemplar
