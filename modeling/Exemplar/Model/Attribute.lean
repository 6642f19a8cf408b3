import Exemplar.Model.Call
/-!
# Attributes

What instances, other containers, members of enums and views answer when they are asked for
something by name. The properties of a class come first, then what was set under the name, then the
methods and operations.
-/
namespace Exemplar

/-- What an attribute reads as: a value, something to call, or the type of a name. -/
inductive Attribute where
  | value (v : Value)
  | callable
  | type (name : String)

namespace Attribute

def classType : String := "_jschema_type"

def viewRoot : String := "_root"

def classText : String := "__doc__"

def classLink : String := "__class__"

def attributeTable : String := "__dict__"

def commonNames : List String :=
  ["__class__", "__delattr__", "__dir__", "__eq__", "__format__", "__ge__", "__getattribute__",
    "__getstate__", "__gt__", "__init__", "__init_subclass__", "__le__", "__lt__", "__ne__",
    "__new__", "__reduce__", "__reduce_ex__", "__repr__", "__setattr__", "__sizeof__", "__str__",
    "__subclasshook__"]

def containerNames : List String :=
  commonNames ++
    ["__class_getitem__", "__contains__", "__delitem__", "__getitem__", "__iter__", "__len__",
      "__reversed__", "__setitem__"]

def mapNames : List String :=
  containerNames ++ ["__ior__", "__or__", "__ror__"] ++ Identifier.mapOperations

def listNames : List String :=
  containerNames ++
    ["__add__", "__iadd__", "__imul__", "__mul__", "__rmul__", "append", "clear", "copy", "count",
      "extend", "index", "insert", "pop", "remove", "reverse", "sort"]

def linkedNames : List String := ["get_parent", "descendents", linkOperation]

def linkedMapNames : List String := mapNames ++ linkedNames ++ ["put", "remove", "autocreate"]

def linkedListNames : List String := listNames ++ linkedNames ++ ["get", "put", adoptOperation]

def operationNames (n : Node) : List String :=
  match n.form, n.isMap with
  | .plain, true => mapNames
  | .plain, false => listNames
  | .bound _, _ => bindOperation :: linkedListNames
  | _, true => linkedMapNames
  | _, false => linkedListNames

/-- What a linked node says of its place: its parent and its type. -/
def placing? (n : Node) (name : String) : Option Attribute :=
  if n.form == .plain then none
  else if name == parentLink then some (if n.parent.isSome then .callable else .value .null)
  else if name == typeAttribute then
    some ((n.type.map fun t => type t.name).getD (.value .null))
  else none

def operation? (n : Node) (name : String) : Option Attribute :=
  if (operationNames n).contains name then some .callable
  else if name == "__hash__" then some (.value .null)
  else none

/-- The attributes of a node that do not come from its class. -/
def ofNode? (n : Node) (name : String) : Option Attribute :=
  ((n.attributes.get? name).map value).or (placing? n name)

def set? (s : Store) (owner : Owner) (name : String) : Option Attribute :=
  (s.attributes.get? (owner, name)).map value

def common? (name : String) : Option Attribute :=
  if (commonNames ++ ["__hash__"]).contains name then some .callable else none

end Attribute

/-- The names under which a member says what it is called and which literal it stands for. -/
def EnumMember.ownNames : List String := ["name", "value"]

namespace Workshop

open Attribute

def classOf? (w : Workshop) (r : Ref) : StoreM (Option Definition) := do
  match (← StoreM.node r).form with
  | .instance name _ => return w.registry.get? name
  | _ => return none

/-- What the class of an instance gives under a name that nothing was set under. -/
def classAttribute? (d : Definition) (m : Model) (name : String) : Option Attribute :=
  if (m.method? name).isSome then some .callable
  else if name == classType then some (.type d.name)
  else if name == classText then some (.value (.scalar (.str d.description)))
  else none

/-- An attribute, which must be there. -/
def found (a : Option Attribute) : StoreM Attribute :=
  match a with
  | some a => return a
  | none => throw .noOperation

def nodeAttribute (w : Workshop) (r : Ref) (name : String) : ModelM Attribute := do
  let n ← (StoreM.node r : ModelM Node)
  match ← (w.classOf? r : ModelM (Option Definition)) with
  | none => (found ((ofNode? n name).or (operation? n name)) : ModelM Attribute)
  | some d =>
    let m ← w.modelOf d
    match m.property? name with
    | some p => return .value (← (w.readProperty d p (.node r) : ModelM Value))
    | none =>
      (found ((ofNode? n name).or ((classAttribute? d m name).or (operation? n name))) :
        ModelM Attribute)

/-- Read an attribute of a member: other members answer to their codes. -/
def memberAttribute (w : Workshop) (m : EnumMember) (name : String) : StoreM Attribute := do
  let s ← get
  let other ← match w.registry.get? m.type with
    | some d => EnumClass.member? d name
    | none => pure none
  if name == "name" || name == "_name_" then return .value (.scalar (.str m.name))
  if name == "value" || name == "_value_" then return .value ((s.literal? m).getD .null)
  found ((set? s (.member m) name).or
    ((other.map fun o => .value (.member o)).or
      (if name == classType then some (.type m.type) else common? name)))

def viewAttribute (mark : Nat) (root : Option Ref) (name : String) : StoreM Attribute := do
  let own := if name == viewRoot then root.map fun r => Attribute.value (.node r)
    else if name == "__iter__" then some .callable
    else common? name
  found ((set? (← get) (.view mark) name).or own)

def readAttribute (w : Workshop) (v : Value) (name : String) : ModelM Attribute := do
  match v with
  | .node r => w.nodeAttribute r name
  | .member m => (w.memberAttribute m name : ModelM Attribute)
  | .descendents mark root => (viewAttribute mark root name : ModelM Attribute)
  | _ => (found (common? name) : ModelM Attribute)

/-- Set an attribute of a node that is no property of its class. Plain containers have none. Null in
the place of the parent or of the type means that there is none. -/
def setFree (r : Ref) (name : String) (v : Value) : StoreM Unit := do
  if ← StoreM.isPlain r then throw .noOperation
  if name == "__weakref__" then throw .noOperation
  StoreM.change r fun n =>
    let n := if name == parentLink then { n with parent := none }
      else if name == typeAttribute then { n with type := none }
      else n
    match v with
    | .scalar .null =>
      if name == parentLink || name == typeAttribute then
        { n with attributes := n.attributes.erase name }
      else { n with attributes := n.attributes.insert name v }
    | v => { n with attributes := n.attributes.insert name v }

def setOn (owner : Owner) (name : String) (v : Value) : StoreM Unit :=
  modify fun s => { s with attributes := s.attributes.insert (owner, name) v }

/-- Write an attribute: a property of the class, or anything under a name that is none. The class of
a value and its table of attributes stay what they are. -/
def writeAttribute (w : Workshop) (owner : Value) (name : String) (v : Value) : ModelM Unit := do
  if name == classLink then throw (.store .wrongKind)
  match owner with
  | .node r =>
    let plain ← (StoreM.isPlain r : ModelM Bool)
    if name == attributeTable && !plain then throw (.store .wrongKind)
    match ← (w.classOf? r : ModelM (Option Definition)) with
    | none => (setFree r name v : ModelM Unit)
    | some d =>
      match (← w.modelOf d).property? name with
      | some p => w.writeProperty p (.node r) v
      | none => (setFree r name v : ModelM Unit)
  | .member m =>
    if EnumMember.ownNames.contains name then throw (.store .noOperation)
    (setOn (.member m) name v : ModelM Unit)
  | .descendents mark _ => (setOn (.view mark) name v : ModelM Unit)
  | _ => throw (.store .noOperation)

end Workshop
end Exemplar
