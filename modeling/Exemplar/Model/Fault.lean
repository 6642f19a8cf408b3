import Exemplar.Fetch
import Exemplar.Json.Document
import Exemplar.Json.Layout
import Exemplar.Store.Snapshot
/-!
# Faults of models

Why an operation of a model fails, and operations that may fail so.
-/
namespace Exemplar

inductive ModelFault where
  | store (f : StoreFault)
  | write (f : Snapshot.WriteFault)
  | indent (f : IndentFault)
  | unknownType (name : String)
  | readOnly (property : String)
  | notConstructible (type : String)
  | noProperty (className property : String)
  | listClass (className : String)
  | malformed (m : Json.Malformed)
  | fetch (f : FetchFault)

def ModelFault.message? : ModelFault → Option String
  | .write (.unserializable kind) => some (Snapshot.WriteFault.unserializable kind).message
  | .unknownType name => some (Name.unknownText name)
  | .readOnly property => some s!"Property {property} is read-only"
  | .notConstructible type => some s!"{type} cannot be instantiated"
  | .noProperty className property =>
    some s!"{className} has no property {Text.quotedString property}"
  | .listClass className => some s!"{className} is a list type and cannot be instantiated"
  | .malformed m => some (Diagnostic.malformedText m.errors)
  | .fetch f => some f.message
  | _ => none

/-- An operation of a model on a store. -/
abbrev ModelM (α : Type) := ExceptT ModelFault (StateM Store) α

def StoreM.lift {α : Type} (a : StoreM α) : ModelM α := ExceptT.adapt ModelFault.store a

instance {α : Type} : Coe (StoreM α) (ModelM α) := ⟨StoreM.lift⟩

def ModelM.run {α : Type} (a : ModelM α) (s : Store) : Except ModelFault α × Store :=
  (ExceptT.run a).run s

end Exemplar
