import Exemplar.Store.Basic
/-!
# Trees as nodes

A tree is stored container by container, each linked to the one that holds it.
-/
namespace Exemplar.StoreM

mutual
def ofJson (form : Form) : Json → StoreM Value
  | .scalar s => ofScalar s
  | .list items => do
    let l ← add { body := .list [], form }
    ofItems form l items
    return .node l
  | .map entries => do
    let m ← add { body := .map [], form }
    ofEntries form m entries
    return .node m
def ofItems (form : Form) (l : Ref) : List Json → StoreM Unit
  | [] => return
  | x :: rest => do
    let v ← ofJson form x
    if let .node r := v then link r (some l)
    setItems l ((← items l) ++ [v])
    ofItems form l rest
def ofEntries (form : Form) (m : Ref) : List (Scalar × Json) → StoreM Unit
  | [] => return
  | (key, x) :: rest => do
    let v ← ofJson form x
    if let .node r := v then link r (some m)
    writeEntry m key v
    ofEntries form m rest
end

end Exemplar.StoreM
