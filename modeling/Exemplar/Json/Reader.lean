import Exemplar.Json.Event
/-!
# Readers

Documents are read by a reader that is a part of its own: from octets it gives the events of a
document up to the first problem, together with that problem. What is built on a reader relies on one
thing only, that the events are always the first ones of some tree.
-/
namespace Exemplar.Json

/-- The events of a document up to its first problem. -/
structure Reading (π : Type) where
  events : List Event
  problem : Option π

/-- What reads documents. The problems are given in words. -/
class Reader where
  read : List UInt8 → Reading String
  begins : ∀ data, ∃ v : Json, (read data).events <+: v.events

end Exemplar.Json
