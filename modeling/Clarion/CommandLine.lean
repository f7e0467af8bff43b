import Clarion.CommandLine.Arguments
import Clarion.Discovery
import Clarion.Folding
import Clarion.Json.Printer
import Clarion.LogSettings
import Clarion.Outline.Builder
import Clarion.Outline.Json
import Clarion.Token.Json
import Clarion.Workspace

/-! The program as a function of what it is started with. -/
namespace Clarion.CommandLine

/-- What the program is started with. -/
structure Start where
  arguments : List String
  environment : Environment := []
  /-- The standard input. -/
  input : List UInt8 := []
  disk : Disk := {}
  processId : String := ""
  now : Moment
deriving Repr

/-- Why a command fails. -/
inductive CommandFailure where
  /-- A file is not there, cannot be read, or is no text. -/
  | unreadable (path : Path)
  /-- A file that holds JSON has a fault. -/
  | faulty (path : Path) (fault : Fault)
  | unusable (failure : Failure)
deriving Repr, DecidableEq

namespace CommandFailure

/-- The name of a failure's kind. -/
def kind : CommandFailure → String
  | .unreadable _ => "Io"
  | .faulty _ _ => "Json"
  | .unusable failure => failure.kind

/-- The text of a failure. -/
def message : CommandFailure → String
  | .unreadable path => "Cannot read " ++ path.text
  | .faulty path fault => "Invalid JSON in " ++ path.text ++ ": " ++ fault.category
  | .unusable failure => failure.message

end CommandFailure

/-- How a run ends. -/
structure Outcome where
  exitCode : Nat
  output : String := ""
  failure : Option CommandFailure := none
  /-- The files that the run made. -/
  created : List Place := []
deriving Repr, DecidableEq

/-- The name and the version that the program goes by. -/
def versionLine : String := "clarion-lsp-core 0.1.0\n"

/-- How the program is called. -/
def usageLine : String :=
  "Usage: clarion-lsp-core [OPTIONS] <outline|folding|search-paths|resolve|find-class|discover>\n"

private def printed (value : Json) : String :=
  value.pretty ++ "\n"

private def usable {α : Type} (result : Except Failure α) : Except CommandFailure α :=
  result.mapError .unusable

/-- The text of a file. -/
def readText (disk : Disk) (path : Path) : Except CommandFailure String :=
  ((disk.bytes? path).bind Text.decodeStrict?).elim (.error (.unreadable path)) .ok

/-- The tokens of a file, or of the standard input. -/
def readTokens (start : Start) (disk : Disk) (arguments : Arguments) (path : Path) :
    Except CommandFailure Tokens := do
  let text ←
    if arguments.readsInput then
      (Text.decodeStrict? start.input).elim (.error (.unreadable path)) .ok
    else readText disk path
  (Token.listOfText text).mapError (.faulty path)

/-- The settings: from a file that is named, or else from the environment, and then from the
arguments. -/
def settings (start : Start) (disk : Disk) (arguments : Arguments) :
    Except CommandFailure Settings := do
  let base ←
    match arguments.config with
    | none => pure (Settings.ofEnvironment start.environment)
    | some path =>
      let text ← readText disk path
      (Json.decodeText Settings.ofJson text).mapError (.faulty path)
  return base.override arguments.configuration arguments.binDirectory arguments.redirectionFile

/-- The names that lead to a symbol, and its own. Where the names before it make no text, there is
nothing to set it off from. -/
def fullName (path : List String) (name : String) : String :=
  let before := String.intercalate " / " path
  if before.isEmpty then name else before ++ " / " ++ name

/-- A line for each symbol: the names that lead to it, and its kind. -/
def flatLines (symbols : List Outline.Symbol) : String :=
  String.join ((Outline.Symbol.visited symbols).map fun (symbol, path) =>
    fullName path symbol.info.name ++ "\t" ++ symbol.info.kind.name ++ "\n")

/-- An outline in the form asked for. -/
def printOutline (symbols : List Outline.Symbol) : OutlineForm → String
  | .full => printed (Outline.Symbol.outlineJson symbols)
  | .editor => printed (Outline.Symbol.editorJson symbols)
  | .flat => flatLines symbols

/-- A workspace with a solution in use. -/
def openSolution (start : Start) (disk : Disk) (arguments : Arguments) (path : Path) :
    Except CommandFailure Workspace := do
  let settings ← settings start disk arguments
  let (_, workspace) ← usable (Workspace.openSolution { settings } disk.fileSystem start.now path)
  return workspace

/-- What the solutions that can be opened tell about themselves, opened one after the other. -/
def summaries (files : FileSystem) (now : Moment) (workspace : Workspace) :
    List Path → List Json
  | [] => []
  | path :: rest =>
    match workspace.openSolution files now path with
    | .error _ => summaries files now workspace rest
    | .ok (solution, workspace) =>
      .obj solution.summaryMembers :: summaries files now workspace rest

/-- Runs a command: the exit code and the output, or why it fails. -/
def execute (start : Start) (disk : Disk) (arguments : Arguments) :
    Except CommandFailure (Nat × String) := do
  let files := disk.fileSystem
  match arguments.command with
  | .outline tokens form =>
    let tokens ← readTokens start disk arguments tokens
    return (0, printOutline (Outline.ofTokens tokens) form)
  | .folding tokens =>
    let tokens ← readTokens start disk arguments tokens
    return (0, printed (.arr ((Fold.all tokens).map Fold.toJson)))
  | .searchPaths solution extension project =>
    let workspace ← openSolution start disk arguments solution
    let (_, paths, _) ← usable (workspace.describeSearchPaths project extension)
    return (0, printed (.arr (paths.map fun path => .str path.text)))
  | .resolve solution file project =>
    let workspace ← openSolution start disk arguments solution
    let lookup ←
      match project with
      | some project => usable (workspace.findInProject files project file)
      | none => pure (workspace.find files file).1
    return match lookup with
      | some lookup => (0, printed lookup.toJson)
      | none => (2, printed .null)
  | .findClass solution name =>
    let workspace ← openSolution start disk arguments solution
    let (definitions, _) ← usable (workspace.findClass files name)
    return (0, printed (.arr (definitions.map ClassDefinition.toJson)))
  | .discover root depth includeHidden =>
    let root := root.getD disk.herePath
    let solutions ← usable (Discovery.scan disk { skipHidden := !includeHidden } depth root)
    if solutions.isEmpty then return (0, printed (.arr []))
    else
      let settings ← settings start disk arguments
      return (0, printed (.arr (summaries files start.now { settings } solutions)))

/-- Opens the log: the files that were made for it and the disk afterwards, or nothing where the
log file cannot be opened. -/
def openLog (start : Start) (arguments : Arguments) : Option (List Place × Disk) :=
  let log := (LogSettings.ofEnvironment start.environment start.processId).override
    arguments.logLevel arguments.logFile arguments.logJson
  match log.file with
  | none => some ([], start.disk)
  | some path => (start.disk.openFile? path).map fun (made, disk) => (made.toList, disk)

/-- Runs the program. Arguments that cannot be read end it with exit code 2, and a log that cannot
be opened or a command that fails with 1. -/
def run (start : Start) : Outcome :=
  match parse start.arguments with
  | .error .usage => { exitCode := 2 }
  | .error .help => { exitCode := 0, output := usageLine }
  | .error .version => { exitCode := 0, output := versionLine }
  | .ok arguments =>
    match openLog start arguments with
    | none => { exitCode := 1 }
    | some (created, disk) =>
      match execute start disk arguments with
      | .ok (exitCode, output) => { exitCode, output, created }
      | .error failure => { exitCode := 1, failure := some failure, created }

end Clarion.CommandLine
