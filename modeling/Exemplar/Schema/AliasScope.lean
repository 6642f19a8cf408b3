import Exemplar.Assoc
import Exemplar.Scalar
/-!
# Scopes of aliases

A stack of alias tables, innermost first. Entering a struct pushes a table and leaving it pops
the table, so aliases declared further out stay visible and none leaks up.
-/
namespace Exemplar

abbrev Aliases := Assoc Scalar String

/-- The alias tables around a place in a document, innermost first. -/
structure AliasScope where
  tables : List Aliases

namespace AliasScope

def empty : AliasScope := ⟨[]⟩

def push (s : AliasScope) (aliases : Aliases) : AliasScope := ⟨aliases :: s.tables⟩

def pop? (s : AliasScope) : Option (Aliases × AliasScope) :=
  match s.tables with
  | [] => none
  | t :: rest => some (t, ⟨rest⟩)

/-- Declare an alias in the innermost block, if there is one. -/
def declare? (s : AliasScope) (a : Scalar) (name : String) : Option AliasScope :=
  match s.tables with
  | [] => none
  | t :: rest => some ⟨t.insert a name :: rest⟩

/-- Declare an alias in the innermost block; outside of all blocks nothing happens. -/
def declare (s : AliasScope) (a : Scalar) (name : String) : AliasScope :=
  (s.declare? a name).getD s

/-- What an alias stands for in the innermost block that declares it. -/
def resolve (s : AliasScope) (a : Scalar) : Option String :=
  s.tables.findSome? fun t => t.get? a

/-- One table of all visible aliases; inner blocks win. -/
def snapshot (s : AliasScope) : Aliases :=
  s.tables.foldr (fun t acc => Assoc.insertAll acc t) []

def depth (s : AliasScope) : Nat := s.tables.length

end AliasScope
end Exemplar
