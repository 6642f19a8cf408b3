import Exemplar.Model.Attribute
/-!
# Classes

Every type has a class. Structs have classes with instances, whose properties are attributes; list
types have classes with methods only; enums have classes with members.
-/
namespace Exemplar

structure ClassCard where
  name : String
  qualifiedName : String
  description : Option String
  bases : List String
  deriving DecidableEq, Repr

namespace Workshop

def classCard (w : Workshop) (name : String) : ModelM ClassCard := do
  let d ← w.definition name
  let card (bases : List String) (described : Bool) : ClassCard :=
    ⟨Name.segment d.name, d.name,
      if described then some d.description else none, bases⟩
  match d.kind with
  | .enum => return card ["Enum"] false
  | .list =>
    let _ ← w.modelOf d
    return card ["ListModel"] true
  | _ =>
    unless w.hasClass d do throw (.store .endless)
    return card ["JsonModel", "JsonMap"] true

def writeGiven (w : Workshop) (d : Definition) (m : Model) (r : Ref) :
    List (String × Value) → ModelM Unit
  | [] => return
  | (name, v) :: rest => do
    match m.property? name with
    | none => throw (.noProperty (Name.segment d.name) name)
    | some p => w.writeProperty p (.node r) v
    writeGiven w d m r rest

/-- Let go of what a new instance has taken. An instance that cannot be made is no parent. -/
def abandon (r : Ref) : StoreM Unit := do
  for child in (← get).childrenOf r do
    StoreM.change child fun n => if n.parent = some r then { n with parent := none } else n

def enumArguments : List String :=
  ["value", "names", "module", "qualname", "type", "start", "boundary"]

/-- Call the class of an enum with named arguments: it gives the member of a value. Other names than
those of its members cannot be asked for. -/
def constructMember (d : Definition) (given : List (String × Value)) : StoreM Value := do
  unless given.all fun p => enumArguments.contains p.1 do throw .wrongKind
  match Assoc.get? given "names" with
  | none => pure ()
  | some (.scalar .null) => pure ()
  | some _ => throw .wrongKind
  match Assoc.get? given "value" with
  | some v => Value.member <$> EnumClass.lookup d v
  | none => throw .wrongKind

/-- Call the class of a type with properties. The name of the instance itself cannot be given. -/
def construct (w : Workshop) (name : String) (properties : List (String × Value)) :
    ModelM Value := do
  let d ← w.definition name
  let m ← w.modelOf d
  let given := Assoc.ofEntries properties
  if Assoc.has given "self" then throw (.store .wrongKind)
  match d.kind with
  | .struct =>
    let r ← (w.newStruct d : ModelM Ref)
    tryCatch (w.writeGiven d m r given) fun f => do
      (abandon r : ModelM Unit)
      throw f
    return .node r
  | .list => throw (.listClass (Name.segment d.name))
  | .enum => (constructMember d given : ModelM Value)
  | .primitive => throw (.store .wrongKind)

/-- Call the class of a type with one value, which only those of enums take. -/
def lookup (w : Workshop) (name : String) (v : Value) : ModelM EnumMember := do
  let d ← w.definition name
  let _ ← w.modelOf d
  match d.kind with
  | .enum => (EnumClass.lookup d v : ModelM EnumMember)
  | .list => throw (.listClass (Name.segment d.name))
  | _ => throw (.store .wrongKind)

def enumNamed (w : Workshop) (name : String) : ModelM Definition := do
  let d ← w.definition name
  if d.kind = .enum then return d else throw (.store .noOperation)

/-- The description of a property of a class. Methods and operations have none. -/
def propertyText (w : Workshop) (name property : String) : ModelM (Option String) := do
  let m ← w.modelNamed name
  match m.property? property with
  | none =>
    let known := (m.method? property).isSome ||
      (m.type.kind = .struct && Attribute.linkedMapNames.contains property)
    if known then return none else throw (.store .noOperation)
  | some p =>
    match p.key?, w.registry.describe? p.type with
    | some key, some type => return some s!"{key.plainText}: {type}"
    | none, _ => return none
    | _, none => throw (.store .endless)

end Workshop
end Exemplar
