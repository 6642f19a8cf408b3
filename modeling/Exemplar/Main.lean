import Exemplar.CommandLine.Run
/-!
# The program

Reads the arguments and the files they name, runs the command, and prints what it has to say.
-/
open Exemplar CommandLine

def usageText : String :=
  "usage: jschema [-h] [--version] COMMAND ...\n\n" ++
  "  types PATH...            list inferred types\n" ++
  "  show PATH... -t TYPE     show properties and methods of one type\n" ++
  "  errors PATH...           print diagnostics found while inferring\n" ++
  "  format FILE [-i INDENT]  write a file anew\n"

/-- What stands in a place of the disk. -/
partial def loadEntry (entry : IO.FS.DirEntry) : IO FileTree := do
  if ← entry.path.isDir then
    let below ← (← entry.path.readDir).toList.mapM fun e => do
      return (e.fileName, ← loadEntry e)
    return .folder below
  else return .file (← IO.FS.readBinFile entry.path).toList

def loadPath (p : Path) : IO (Path × Except Absence FileTree) := do
  let entry : IO.FS.DirEntry := ⟨← IO.currentDir, p.text⟩
  if ← entry.path.pathExists then return (p, .ok (← loadEntry entry))
  else return (p, .error .missing)

def pathsOf : Command → List Path
  | .usage => []
  | .version => []
  | .types sources => sources.paths.map Path.ofText
  | .show sources _ => sources.paths.map Path.ofText
  | .errors sources => sources.paths.map Path.ofText
  | .format file _ => [Path.ofText file]

def emit : Printed → IO Unit
  | .text s => IO.print s
  | .table t => do
    IO.println t.title
    IO.println (" | ".intercalate t.columns)
    for row in t.rows do IO.println (" | ".intercalate row)

def main (args : List String) : IO UInt32 := do
  match Command.ofArguments args with
  | .error .help =>
    IO.print usageText
    return 0
  | .error .misuse =>
    IO.eprint usageText
    return 2
  | .ok command =>
    let loaded ← (pathsOf command).mapM loadPath
    let files : Files := fun p =>
      ((loaded.find? fun e => e.1 = p).map Prod.snd).getD (.error .missing)
    if command = .usage then IO.print usageText
    match command.run files with
    | .ok outcome =>
      for printed in outcome.printed do emit printed
      return UInt32.ofNat outcome.code
    | .error _ =>
      IO.eprintln "the command broke off"
      return 1
