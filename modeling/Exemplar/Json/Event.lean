import Exemplar.Json.Printer
/-!
# Events of a document

A document can be told as a sequence of events in document order: containers that open and close,
keys, and scalars.
-/
namespace Exemplar.Json

inductive Container where
  | map
  | list
  deriving DecidableEq, Repr

/-- One step of a document. -/
inductive Event where
  | startMap
  | key (name : String)
  | endMap
  | startList
  | endList
  | scalar (s : Scalar)
  deriving DecidableEq

mutual
def events : Json → List Event
  | .scalar s => [.scalar s]
  | .list items => .startList :: itemEvents items ++ [.endList]
  | .map entries => .startMap :: entryEvents entries ++ [.endMap]
def itemEvents : List Json → List Event
  | [] => []
  | x :: xs => events x ++ itemEvents xs
def entryEvents : List (Scalar × Json) → List Event
  | [] => []
  | (k, x) :: xs => .key (String.ofList (writePlain k)) :: (events x ++ entryEvents xs)
end

theorem itemEvents_append (xs ys : List Json) :
    itemEvents (xs ++ ys) = itemEvents xs ++ itemEvents ys := by
  induction xs with
  | nil => rfl
  | cons x xs ih => rw [List.cons_append, itemEvents, itemEvents, ih, List.append_assoc]

theorem entryEvents_append (xs ys : List (Scalar × Json)) :
    entryEvents (xs ++ ys) = entryEvents xs ++ entryEvents ys := by
  induction xs with
  | nil => rfl
  | cons e xs ih =>
    obtain ⟨k, x⟩ := e
    simp only [List.cons_append, entryEvents, ih, List.append_assoc]

end Exemplar.Json
