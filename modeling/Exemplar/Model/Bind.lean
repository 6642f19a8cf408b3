import Exemplar.Schema.Registry
import Exemplar.Store.List
import Exemplar.Store.Map
/-!
# Binding documents to types

Binding rebuilds a value so that every map and list of it carries its type. The content stays what
it was: a value that does not have the shape of its type is rebuilt without types. Lists of list
types bind plain items that are stored into them later.
-/
namespace Exemplar

/-- What documents are bound with: types, options, and whether structs become instances of classes
or mere maps. -/
structure Workshop where
  registry : Registry
  options : Options
  classes : Bool

/-- What the containers at some place become: a map an instance of a struct, a list one of a list
type, so many levels above its elements. -/
structure Target where
  struct : Option Definition
  list : Option (Definition × Nat)

namespace Target

/-- Containers become containers without a type. -/
def untyped : Target := ⟨none, none⟩

def ofDefinition (d : Definition) : Target :=
  match d.shape with
  | .struct _ _ => ⟨some d, none⟩
  | .list depth _ _ => ⟨none, some (d, depth)⟩
  | .enum _ _ => untyped

def ofRef (r : Registry) : Option TypeRef → Target
  | some (.defined name edition) => ((r.definition? name edition).map ofDefinition).getD untyped
  | _ => untyped

def ofKey (r : Registry) (d : Definition) (key : Scalar) : Target :=
  ofRef r ((d.fieldForKey? key).bind Field.type)

def ofElement (r : Registry) (d : Definition) : Target :=
  match d.shape with
  | .list _ _ element => ofRef r element
  | _ => untyped

/-- The target of the items of a list so many levels above the elements of a list type: lists among
them may lie between. -/
def ofItem (r : Registry) (d : Definition) (depth : Nat) : Target :=
  let element := ofElement r d
  if 1 < depth then ⟨element.struct, some (d, depth - 1)⟩ else element

end Target

/-- How many levels a list type has. -/
def Definition.depth (d : Definition) : Nat :=
  match d.shape with
  | .list depth _ _ => depth
  | _ => 0

namespace Workshop

/-- Whether the class of a struct can be made: its properties are described by their types. -/
def hasClass (w : Workshop) (d : Definition) : Bool :=
  d.fields.all fun f => (w.registry.describe? f.type).isSome

def newStruct (w : Workshop) (d : Definition) : StoreM Ref := do
  let type := some (NodeType.struct d.name)
  if w.classes then
    unless w.hasClass d do throw .endless
    StoreM.add { body := .map [], form := .instance d.name (d.field? linkOperation).isSome, type }
  else MapNode.new type

/-- A new list of a list type, so many levels above its elements. Only the outermost level carries
the type. -/
def newList (w : Workshop) (d : Definition) (depth : Nat) : StoreM Ref :=
  StoreM.add
    { body := .list []
      form := .bound ⟨d.name, depth, w.classes⟩
      type := if depth = d.depth then some (.list d.name) else none }

mutual
/-- Rebuild a value for a target. -/
def bindShown (w : Workshop) (target : Target) : Snapshot → StoreM Value
  | .scalar s => return .scalar s
  | .nan mark => return .nan mark
  | .member m _ => return .member m
  | .descendents mark root _ => return .descendents mark root
  | .pair key v _ => return .pair key v
  | .cycle _ _ _ => throw .endless
  | .map _ _ entries => do
    match target.struct with
    | some d =>
      let m ← w.newStruct d
      bindEntries w (Target.ofKey w.registry d) m entries
      return .node m
    | none =>
      let m ← MapNode.new none
      bindEntries w (fun _ => .untyped) m entries
      return .node m
  | .list _ _ items => do
    match target.list with
    | some (d, depth) =>
      let l ← w.newList d depth
      bindItems w (Target.ofItem w.registry d depth) l items
      return .node l
    | none =>
      let l ← ListNode.new
      bindItems w .untyped l items
      return .node l
def bindEntries (w : Workshop) (target : Scalar → Target) (m : Ref) :
    List (Scalar × Snapshot) → StoreM Unit
  | [] => return
  | (key, x) :: rest => do
    MapNode.set m key (← bindShown w (target key) x)
    bindEntries w target m rest
def bindItems (w : Workshop) (target : Target) (l : Ref) : List Snapshot → StoreM Unit
  | [] => return
  | x :: rest => do
    let v ← StoreM.adoptInto (← bindShown w target x) (some l)
    StoreM.setItems l ((← StoreM.items l) ++ [v])
    bindItems w target l rest
end

def bind (w : Workshop) (v : Value) (t : Option TypeRef) : StoreM Value := do
  bindShown w (.ofRef w.registry t) ((← get).snapshot v)

/-- Rebuild a plain item for the list type that a list is bound to. -/
def bindItem (w : Workshop) : ListNode.BindItem := fun binder v => do
  match w.registry.get? binder.type with
  | some d =>
    bindShown { w with classes := binder.classes } (.ofItem w.registry d binder.depth)
      ((← get).snapshot v)
  | none => return v

/-- What a field of a type yields while it is unset: one level of structure, or null. -/
def emptyValue (w : Workshop) (t : Option TypeRef) : StoreM Value := do
  match t with
  | some (.primitive .object) => return .node (← MapNode.new none)
  | _ =>
    match Target.ofRef w.registry t with
    | ⟨some d, _⟩ => return .node (← w.newStruct d)
    | ⟨none, some (d, depth)⟩ => return .node (← w.newList d depth)
    | ⟨none, none⟩ => return .null

end Workshop
end Exemplar
