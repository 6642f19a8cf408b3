import Exemplar.Assoc
import Exemplar.Identifier.Basic
import Exemplar.Scalar
/-!
# Names of keys

A `NameTable` gives every key a name of its own. It is kept in both directions, so the key can be
recovered from the name.
-/
namespace Exemplar

/-- `name` with a number behind it. -/
def numberedName (name : String) (number : Nat) : String := s!"{name}_{Decimal.natText number}"

/-- The first of the numbered forms of `name`, from `number` on, that is not taken. -/
def firstFreeName (name : String) (taken : List String) : (tries number : Nat) → String
  | 0, number => numberedName name number
  | tries + 1, number =>
    if taken.contains (numberedName name number) then firstFreeName name taken tries (number + 1)
    else numberedName name number

/-- `name`, or its first numbered form that is not taken; numbers start at two. -/
def freeName (name : String) (taken : List String) : String :=
  if taken.contains name then firstFreeName name taken taken.length 2 else name

structure NameTable where
  names : Assoc Scalar String
  keys : Assoc String Scalar

namespace NameTable

def empty : NameTable := ⟨[], []⟩

def bind (t : NameTable) (key : Scalar) (name : String) : NameTable :=
  ⟨t.names.insert key name, t.keys.insert name key⟩

def name? (t : NameTable) (key : Scalar) : Option String := t.names.get? key

def key? (t : NameTable) (name : String) : Option Scalar := t.keys.get? name

def contains (t : NameTable) (key : Scalar) : Bool := t.names.has key

/-- Give a key a name made by `convert`, unless it has one. -/
def add (convert : String → String) (t : NameTable) (key : Scalar) : NameTable :=
  if t.contains key then t
  else t.bind key (freeName (convert key.plainText) t.keys.keys)

def ofKeys (convert : String → String) (keys : List Scalar) : NameTable :=
  keys.foldl (add convert) empty

def properties (t : NameTable) : List String := t.keys.keys

def size (t : NameTable) : Nat := t.names.length

end NameTable
end Exemplar
