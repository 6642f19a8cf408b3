/-!
# Insertion-ordered tables

A table is the list of its entries. Writing under a key that is already present keeps the
place and the spelling of the key and changes the value only; a new key goes to the end.
Keys are compared by `==`, which need not be equality: for scalars `1`, `1.0` and `true`
are one key.
-/
namespace Exemplar

/-- An insertion-ordered table with keys in `κ` and values in `α`. -/
abbrev Assoc (κ α : Type) := List (κ × α)

namespace Assoc

variable {κ α β : Type} [BEq κ]

/-- The value under the first entry whose key is `k`. -/
def get? : Assoc κ α → κ → Option α
  | [], _ => none
  | (k', a) :: rest, k => if k' == k then some a else get? rest k

def has (t : Assoc κ α) (k : κ) : Bool := (t.get? k).isSome

/-- Write `a` under `k`, keeping the place of an entry that is already there. -/
def insert : Assoc κ α → κ → α → Assoc κ α
  | [], k, a => [(k, a)]
  | (k', a') :: rest, k, a => if k' == k then (k', a) :: rest else (k', a') :: insert rest k a

def erase : Assoc κ α → κ → Assoc κ α
  | [], _ => []
  | (k', a) :: rest, k => if k' == k then rest else (k', a) :: erase rest k

def insertAll (t : Assoc κ α) (new : List (κ × α)) : Assoc κ α :=
  new.foldl (fun acc e => acc.insert e.1 e.2) t

def ofEntries (entries : List (κ × α)) : Assoc κ α :=
  insertAll [] entries

def keys (t : Assoc κ α) : List κ := t.map Prod.fst

def modify (t : Assoc κ α) (k : κ) (f : α → α) : Assoc κ α :=
  match t.get? k with
  | some a => t.insert k (f a)
  | none => t

end Assoc
end Exemplar
