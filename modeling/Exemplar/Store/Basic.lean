import Exemplar.Json.Basic
/-!
# Nodes

Documents in memory are maps and lists that can be changed and shared. A `Store` numbers them as
nodes. Linked nodes know the container that holds them and the type that classifies them; plain
nodes are data without links. Operations on a store give the store behind them also when they
fail, because some effects come before the failure.
-/
namespace Exemplar

abbrev Ref := Nat

/-- A member of the class of an enum. Members are told apart by type and name. -/
structure EnumMember where
  type : String
  name : String
  deriving DecidableEq, Repr

/-- What an entry or an item holds: a scalar, a double that is no number, a node, a member of an
enum, a view of the maps below a node, or a pair of a key and a value. What is no number compares
equal to nothing, and views compare equal only to themselves, so both have marks by which one is
told from another. -/
inductive Value where
  | scalar (s : Scalar)
  | nan (mark : Nat)
  | node (r : Ref)
  | member (m : EnumMember)
  | descendents (mark : Nat) (root : Option Ref)
  | pair (key : Scalar) (value : Value)

abbrev Value.null : Value := .scalar .null

/-- The type that classifies a node: a struct or a list type. -/
inductive NodeType where
  | struct (name : String)
  | list (name : String)
  deriving DecidableEq, Repr

def NodeType.name : NodeType → String
  | .struct name => name
  | .list name => name

/-- How plain items that are stored into a list become typed: as items of a list type so many levels
above its elements, as instances of classes or as mere maps. -/
structure Binder where
  type : String
  depth : Nat
  classes : Bool
  deriving DecidableEq, Repr

/-- What sort of container a node is. An instance belongs to the class of a type; it is sealed if
one of its properties takes the place of the operation that links it to a parent. -/
inductive Form where
  | plain
  | linked
  | bound (binder : Binder)
  | instance (type : String) (sealed : Bool)
  deriving DecidableEq, Repr

def linkOperation : String := "_set_parent"

def parentLink : String := "_parent_ref"

def adoptOperation : String := "_adopt"

def bindOperation : String := "_bind_item"

def typeAttribute : String := "intrinsic_type"

inductive Body where
  | map (entries : Assoc Scalar Value)
  | list (items : List Value)

structure Node where
  body : Body
  form : Form
  type : Option NodeType := none
  parent : Option Ref := none
  /-- What was set on a linked node under names that are no properties. -/
  attributes : Assoc String Value := []

def Node.isMap (n : Node) : Bool :=
  match n.body with
  | .map _ => true
  | .list _ => false

/-- The state of an enum: the literals by code and, once the class of the enum is made, the names of
the members that the codes stand for. -/
structure EnumState where
  literals : Assoc String Value
  names : Option (Assoc String String)

inductive Owner where
  | member (m : EnumMember)
  | view (mark : Nat)
  deriving DecidableEq, Repr

/-- All nodes, the literals of the enums, what was set on members and views, and the number of marks
given out. -/
structure Store where
  nodes : Array Node
  enums : Assoc String EnumState := []
  attributes : Assoc (Owner × String) Value := []
  marks : Nat := 0

inductive StoreFault where
  | missingKey
  | outOfRange
  | tooLarge
  | badValue
  | wrongKind
  | noOperation
  | endless
  deriving DecidableEq, Repr

abbrev StoreM (α : Type) := ExceptT StoreFault (StateM Store) α

namespace Store

def empty : Store := { nodes := #[] }

def get? (s : Store) (r : Ref) : Option Node := s.nodes[r]?

def set (s : Store) (r : Ref) (n : Node) : Store :=
  { s with nodes := s.nodes.setIfInBounds r n }

def add (s : Store) (n : Node) : Ref × Store :=
  (s.nodes.size, { s with nodes := s.nodes.push n })

def modify (s : Store) (r : Ref) (f : Node → Node) : Store :=
  match s.get? r with
  | some n => s.set r (f n)
  | none => s

def childrenOf (s : Store) (r : Ref) : List Ref :=
  let held := match (s.get? r).map Node.body with
    | some (.map es) => es.map Prod.snd
    | some (.list vs) => vs
    | none => []
  held.filterMap fun
    | .node c => some c
    | _ => none

def freshMark (s : Store) : Nat × Store := (s.marks, { s with marks := s.marks + 1 })

def literal? (s : Store) (m : EnumMember) : Option Value :=
  (s.enums.get? m.type).bind fun e => e.literals.get? m.name

end Store

namespace StoreM

def run {α : Type} (a : StoreM α) (s : Store) : Except StoreFault α × Store :=
  (ExceptT.run a).run s

/-- The node of a number; every number in use has one. -/
def node (r : Ref) : StoreM Node := do
  match (← get).get? r with
  | some n => return n
  | none => throw .wrongKind

def add (n : Node) : StoreM Ref :=
  modifyGet fun s => s.add n

def change (r : Ref) (f : Node → Node) : StoreM Unit :=
  modify fun s => s.modify r f

def freshMark : StoreM Nat := modifyGet Store.freshMark

def ofDouble (x : Double) : StoreM Value :=
  match x with
  | .nan => return .nan (← freshMark)
  | x => return .scalar (.float x)

def ofScalar : Scalar → StoreM Value
  | .float x => ofDouble x
  | s => return .scalar s

def viewOf (root : Option Ref) : StoreM Value := return .descendents (← freshMark) root

def entries (r : Ref) : StoreM (Assoc Scalar Value) := do
  match (← node r).body with
  | .map es => return es
  | .list _ => throw .noOperation

def items (r : Ref) : StoreM (List Value) := do
  match (← node r).body with
  | .list vs => return vs
  | .map _ => throw .noOperation

def setEntries (r : Ref) (es : Assoc Scalar Value) : StoreM Unit :=
  change r fun n => { n with body := .map es }

def setItems (r : Ref) (vs : List Value) : StoreM Unit :=
  change r fun n => { n with body := .list vs }

def isPlain (r : Ref) : StoreM Bool := return (← node r).form == .plain

/-- An operation that is called by its name. What was set on a node under the name takes the place
of the operation, and cannot be called. -/
def named {α : Type} (r : Ref) (name : String) (operation : StoreM α) : StoreM α := do
  if Assoc.has (← node r).attributes name then throw .wrongKind
  operation

/-- Set the parent of a linked node, instead of what was set under the name of the link; plain nodes
have none, and sealed instances refuse. -/
def link (r : Ref) (parent : Option Ref) : StoreM Unit := do
  match (← node r).form with
  | .plain => return
  | .instance _ true => throw .wrongKind
  | _ =>
    named r linkOperation do
      change r fun n => { n with parent, attributes := n.attributes.erase parentLink }

/-- Take the parent from what leaves a container. -/
def release : Value → StoreM Unit
  | .node r => link r none
  | _ => return

/-- Write an entry of a map, without looking at links. -/
def writeEntry (r : Ref) (key : Scalar) (v : Value) : StoreM Unit := do
  setEntries r ((← entries r).insert key v)

/-- Store values into a map, each made fit by `prepare`. -/
def storeEntries (prepare : Value → StoreM Value) (m : Ref) : List (Scalar × Value) → StoreM Unit
  | [] => return
  | (key, v) :: rest => do
    writeEntry m key (← prepare v)
    storeEntries prepare m rest

/-- Append values to a list, each made fit by `prepare`. -/
def storeItems (prepare : Value → StoreM Value) (l : Ref) : List Value → StoreM Unit
  | [] => return
  | v :: rest => do
    let v ← prepare v
    setItems l ((← items l) ++ [v])
    storeItems prepare l rest

/-- Make a value fit to be held by `parent`: linked nodes are linked to it, and plain containers are
copied into linked ones, all the way down. `fuel` bounds the nesting. -/
def adopt : (fuel : Nat) → Value → (parent : Option Ref) → StoreM Value
  | 0, _, _ => throw .endless
  | fuel + 1, .node r, parent => do
    let n ← node r
    if n.form == .plain then
      match n.body with
      | .map es =>
        let m ← add { body := .map [], form := .linked }
        storeEntries (fun v => adopt fuel v (some m)) m es
        link m parent
        return .node m
      | .list vs =>
        let l ← add { body := .list [], form := .linked }
        storeItems (fun v => adopt fuel v (some l)) l vs
        link l parent
        return .node l
    else
      link r parent
      return .node r
  | fuel + 1, .pair key v, parent => do
    let l ← add { body := .list [], form := .linked }
    storeItems (fun v => adopt fuel v (some l)) l [.scalar key, v]
    link l parent
    return .node l
  | _, v, _ => return v

/-- Make a value fit to be held by `parent`. Plain containers that do not contain themselves are
nested no deeper than there are nodes. -/
def adoptInto (v : Value) (parent : Option Ref) : StoreM Value := do
  adopt ((← get).nodes.size + 2) v parent

/-- Make a value fit to be held by a container: a plain one takes it as it is. -/
def accept (r : Ref) (v : Value) : StoreM Value := do
  if ← isPlain r then return v else adoptInto v (some r)

/-- Release what leaves a container, unless the container is plain. -/
def releaseFrom (r : Ref) (v : Value) : StoreM Unit := do
  if ← isPlain r then return else release v

end StoreM
end Exemplar
