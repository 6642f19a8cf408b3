import Exemplar.CommandLine.Arguments
import Exemplar.CommandLine.Report
import Exemplar.Discovery
import Exemplar.Json.Document
import Exemplar.Json.OctetReader
import Exemplar.Json.Printer
/-!
# Commands

What a command prints and with which code it ends, given what stands on the disk.
-/
namespace Exemplar.CommandLine

inductive Printed where
  | text (s : String)
  | table (t : Table)
  deriving DecidableEq, Repr

/-- How a command ends: the code, and what was printed. -/
structure Outcome where
  code : Nat
  printed : List Printed
  deriving DecidableEq, Repr

/-- Why a command breaks off: a report cannot be given, no type is named, a file to read is a
folder, stands below a file, or has a name that no file can have, or an indent cannot be used. -/
inductive Crash where
  | report (f : ReportFault)
  | noType
  | folder (place : String)
  | throughFile (place : String)
  | badName (place : String)
  | longName (place : String)
  | indent (f : IndentFault)
  deriving DecidableEq, Repr

def release : String := "0.1.0"

namespace Command

def line (s : String) : Except Crash Printed :=
  match Text.Markup.printed s with
  | .ok t => .ok (.text (String.ofList (Text.Markup.expandTabs 0 t) ++ "\n"))
  | .error f => .error (.report (.markup f))

def problemLine (s : String) : Except Crash Printed := line s!"[bold red]{s}[/bold red]"

def failed (message : String) : Except Crash Outcome := do
  return ⟨1, [← problemLine s!"Error: {Text.Markup.escaped message}"]⟩

def reported (code : Nat) (t : Except ReportFault Table) : Except Crash Outcome :=
  match t.bind Report.shownTable with
  | .ok t => .ok ⟨code, [.table t]⟩
  | .error f => .error (.report f)

def withRegistry (files : Files) (s : Selection) (next : Registry → Except Crash Outcome) :
    Except Crash Outcome :=
  match Discovery.atPaths files s.space (s.paths.map Path.ofText) with
  | .error (.longName place) => .error (.longName place)
  | .error (.announcement f) => .error (.report (.markup f))
  | .error f => failed f.message
  | .ok sources =>
    match Registry.ofSources {} sources with
    | .error .inProgress => failed BuildError.inProgress.message
    | .error (.announcement f) => .error (.report (.markup f))
    | .ok r => next r

def showType (r : Registry) : Option String → Except Crash Outcome
  | none => .error .noType
  | some name =>
    match r.get? name with
    | none => failed (Name.unknownText name)
    | some d =>
      match r.model? d with
      | some m => reported 0 (Report.members r m)
      | none => .error (.report .endless)

def showProblems (r : Registry) : Except Crash Outcome :=
  if r.errors.isEmpty then do
    return ⟨0, [← line "[bold green]No problems found.[/bold green]"]⟩
  else reported 1 (.ok (Report.problems r))

def diagnosticLine (file : String) (d : Diagnostic) : Except Crash Printed :=
  let place := s!"{file}:{Decimal.intText d.line}:{Decimal.intText d.column}"
  problemLine s!"{place}: {Text.Markup.escaped d.message}"

def formatData (file : String) (data : List UInt8) (indent : Indent) :
    Except Crash Outcome :=
  let parsed := Json.parse data
  if parsed.ok then
    match parsed.value.write indent with
    | .ok text => .ok ⟨0, [.text (Text.Markup.unmarked text ++ "\n")]⟩
    | .error f => .error (.indent f)
  else do return ⟨1, ← parsed.errors.mapM (diagnosticLine file)⟩

def formatFile (files : Files) (file : String) (indent : Indent) : Except Crash Outcome :=
  let p := Path.ofText file
  match files p with
  | .ok (.file data) => formatData file data indent
  | .ok (.folder _) => .error (.folder p.text)
  | .error .missing =>
    failed s!"[Errno 2] No such file or directory: {Text.quotedString p.text}"
  | .error .throughFile => .error (.throughFile p.text)
  | .error .badName => .error (.badName p.text)
  | .error .longName => .error (.longName p.text)

def run (files : Files) : Command → Except Crash Outcome
  | .usage => .ok ⟨0, []⟩
  | .version => do return ⟨0, [← line s!"jschema version {release}"]⟩
  | .types sources => withRegistry files sources fun r => reported 0 (Report.types r)
  | .show sources type => withRegistry files sources fun r => showType r type
  | .errors sources => withRegistry files sources showProblems
  | .format file indent => formatFile files file indent

end Command
end Exemplar.CommandLine
