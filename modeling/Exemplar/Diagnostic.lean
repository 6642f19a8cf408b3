import Exemplar.Number.Decimal
/-!
# Diagnostics

Problems found while reading documents and inferring types. Line and column count from one and
are zero when unknown.
-/
namespace Exemplar

inductive DiagnosticKind where
  | parse
  | io
  | nameCollision
  | unresolvedType
  deriving DecidableEq, Repr

def DiagnosticKind.word : DiagnosticKind → String
  | .parse => "parse"
  | .io => "io"
  | .nameCollision => "name_collision"
  | .unresolvedType => "unresolved_type"

/-- A problem, with its place if it has one. -/
structure Diagnostic where
  kind : DiagnosticKind
  message : String
  line : Int
  column : Int
  deriving DecidableEq, Repr

namespace Diagnostic

def placeless (kind : DiagnosticKind) (message : String) : Diagnostic := ⟨kind, message, 0, 0⟩

/-- The message, followed by the place if there is one. -/
def text (d : Diagnostic) : String :=
  if d.line ≠ 0 ∨ d.column ≠ 0 then
    s!"{d.message} (line {Decimal.intText d.line}, column {Decimal.intText d.column})"
  else d.message

def malformedText (errors : List Diagnostic) : String :=
  let detail := "; ".intercalate (errors.map text)
  "Malformed JSON document: " ++ (if detail = "" then "unknown error" else detail)

end Diagnostic
end Exemplar
