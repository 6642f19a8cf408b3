import Exemplar.Model.Bind
import Exemplar.Model.Descriptor
import Exemplar.Model.EnumClass
import Exemplar.Model.Fault
/-!
# Reading and writing properties

A property of a struct reads and writes the entry under its key. Reading an unset property of a
struct or list type creates an empty value and stores it, so that later reads give the same one.
Writing binds plain containers to the type of the property and stores the literal of a member of
an enum.
-/
namespace Exemplar

namespace Workshop

def enumOf? (w : Workshop) : Option TypeRef → Option Definition
  | some (.defined name edition) =>
    (w.registry.definition? name edition).filter fun d => d.kind == .enum
  | _ => none

/-- A literal as the value that properties of an enum give: the member of its class, if there is
one, or itself. -/
def enumValue (w : Workshop) (d : Definition) (v : Value) : StoreM Value := do
  if w.classes then
    tryCatch (Value.member <$> EnumClass.lookup d v) fun
      | .badValue => return v
      | f => throw f
  else return v

def literalValue (w : Workshop) (d : Definition) (code : String) : StoreM Value := do
  if w.classes then
    match ← EnumClass.member? d code with
    | some m => return .member m
    | none => throw .missingKey
  else
    match (← EnumClass.literals d).get? code with
    | some v => return v
    | none => throw .missingKey

def occursIn (part : String) (text : String) : Bool := (text.splitOn part).length > 1

/-- Whether something that a property is read of has the key of the property. What is neither text
nor sequence has no keys. -/
def hasKey (context : Value) (key : Scalar) : StoreM Bool := do
  match context, key with
  | .node r, key =>
    match (← StoreM.node r).body with
    | .map _ => MapNode.contains r key
    | .list _ => ListNode.contains r (.scalar key)
  | .scalar (.str text), .str part => return part.isEmpty || occursIn part text
  | .pair k v, key =>
    return (← StoreM.placeAmong (.scalar key) 0 [.scalar k, v]).isSome
  | .descendents _ _, _ => return false
  | _, _ => throw .wrongKind

/-- The entry of a property, created if it is unset and the property creates it. Only maps are read,
and only linked ones create entries. -/
def readEntry (w : Workshop) (f : Field) (context : Value) : StoreM Value := do
  if f.autocreate = .none || (← hasKey context f.key) then
    match context with
    | .node r =>
      match (← StoreM.node r).body with
      | .map _ => MapNode.getD r f.key .null
      | .list _ => throw .wrongKind
    | _ => throw .wrongKind
  else
    match context with
    | .node r =>
      StoreM.named r "autocreate" do
        if (← StoreM.node r).isMap then MapNode.autocreate r f.key (w.emptyValue f.type)
        else throw .noOperation
    | _ => throw .noOperation

def readProperty (w : Workshop) (d : Definition) (p : Property) (context : Value) :
    StoreM Value := do
  match p.access with
  | .literal _ => w.literalValue d p.name
  | .entry f =>
    let v ← w.readEntry f context
    match w.enumOf? p.type, v with
    | some _, .scalar .null => return v
    | some e, v => w.enumValue e v
    | none, v => return v

/-- What is stored for a value that is written to a property. -/
def storedValue (w : Workshop) (t : Option TypeRef) (v : Value) : StoreM Value := do
  match v with
  | .member m => return ((← get).literal? m).getD .null
  | .node r => if ← StoreM.isPlain r then w.bind v t else return v
  | v => return v

/-- Write the entry of a property. A list takes a number as the key of an item. -/
def writeEntry (w : Workshop) (f : Field) (t : Option TypeRef) (context : Value) (v : Value) :
    StoreM Unit := do
  let v ← w.storedValue t v
  match context with
  | .node r =>
    match (← StoreM.node r).body with
    | .map _ => MapNode.set r f.key v
    | .list _ =>
      match f.key.index? with
      | some i => ListNode.set w.bindItem r i v
      | none => throw .wrongKind
  | _ => throw .wrongKind

def writeProperty (w : Workshop) (p : Property) (context : Value) (v : Value) : ModelM Unit := do
  match p.access with
  | .literal _ => throw (.readOnly p.name)
  | .entry f => (w.writeEntry f p.type context v : ModelM Unit)

def modelOf (w : Workshop) (d : Definition) : ModelM Model :=
  match w.registry.model? d with
  | some m => return m
  | none => throw (.store .endless)

def definition (w : Workshop) (name : String) : ModelM Definition :=
  match w.registry.get? name with
  | some d => return d
  | none => throw (.unknownType name)

def modelNamed (w : Workshop) (name : String) : ModelM Model := do
  w.modelOf (← w.definition name)

def newInstance (w : Workshop) (name : String) : ModelM Ref := do
  let m ← w.modelNamed name
  if m.constructible then (w.newStruct m.type : ModelM Ref)
  else throw (.notConstructible name)

end Workshop
end Exemplar
