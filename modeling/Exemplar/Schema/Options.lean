import Exemplar.Json.Basic
import Exemplar.Json.Layout
import Exemplar.Text.Console
/-!
# Options

The keys with a meaning of their own in sample documents, the defaults of models, and the console that
announcements go to.
-/
namespace Exemplar

/-- Options of inference and of the models built on it. -/
structure Options where
  enumKey : String := "enum"
  mapOfKey : String := "map_of"
  aliasesKey : String := "__typedefs"
  /-- The indent of pretty output when none is asked for. -/
  defaultIndent : Indent := .blanks 2
  /-- How many seconds a fetch may take. -/
  fetchTimeout : Scalar := .float (Double.ofDecimal false 30 0)
  console : Text.Console := Text.Markup.console

/-- The keys that have a meaning of their own in one document. Plain samples have none. -/
structure Markers where
  enumKey : Option Scalar
  mapOfKey : Option Scalar
  aliasesKey : Option Scalar

namespace Markers

def ofOptions (o : Options) : Markers :=
  ⟨some (.str o.enumKey), some (.str o.mapOfKey), some (.str o.aliasesKey)⟩

def none : Markers := ⟨.none, .none, .none⟩

def value? (marker : Option Scalar) (entries : List (Scalar × Json)) : Option Json :=
  marker.bind fun key => (Assoc.get? entries key).filter fun v => !v.isNull

/-- Whether a key gives a field: null and the key of the aliases do not. -/
def isField (m : Markers) (key : Scalar) : Bool :=
  key ≠ .null && !(m.aliasesKey.any fun a => key == a)

end Markers
end Exemplar
