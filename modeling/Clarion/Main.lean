import Clarion.CommandLine
import Std.Time.DateTime.Timestamp

/-! The command line. What the program is started with is gathered, the program is run, and what
comes out of it is printed.

The disk is read before the run: the folder that the program is started in, and the folders that
its arguments name. -/
namespace Clarion.Main

/-- The variables of the environment that the program looks at. -/
def variableNames : List String :=
  ["CLARION_CONFIGURATION", "CLARION_BIN", "CLARION_RED_FILE", "CLARION_LOOKUP_EXTENSIONS",
    "CLARION_LOG_FILE", "CLARION_LOG_JSON", "CLARION_LOG_UNIQUE", "RUST_LOG"]

/-- The variables that are set. -/
def readEnvironment : IO Environment :=
  variableNames.filterMapM fun name => do
    return (← IO.getEnv name).map fun value => (name, value)

/-- All bytes of a stream, after those read so far. -/
partial def readStream (stream : IO.FS.Stream) (sofar : List UInt8) : IO (List UInt8) := do
  let chunk ← stream.read 65536
  if chunk.isEmpty then return sofar
  readStream stream (sofar ++ chunk.toList)

/-- Where a path leads to, links followed, when it leads anywhere. -/
def realPath? (path : String) : IO (Option String) := do
  try return some (← IO.FS.realPath path).toString
  catch _ => return none

/-- The tree at a path that leads somewhere. A link is kept as a link to the place that it leads
to, and one that leads nowhere as a link to itself. -/
partial def readNode (path : String) : IO Node := do
  let real ← IO.FS.realPath path
  if ← real.isDir then
    let entries ← (← real.readDir).toList.mapM fun entry => do
      let inner := entry.path.toString
      let kind := (← entry.path.symlinkMetadata).type
      if kind matches .symlink then
        return (entry.fileName, Node.link ⟨(← realPath? inner).getD inner⟩)
      else return (entry.fileName, ← readNode inner)
    return .folder entries
  else return .file (← IO.FS.readBinFile real).toList

/-- The place that an absolute path spells. -/
def placeOf (path : Path) : Place :=
  (Disk.segments path).filter (!·.isEmpty)

/-- The folder that a path names or stands in, when there is one. -/
def folderOf? (path : Path) : IO (Option String) := do
  let above := realPath? path.parentOrHere.text
  match ← realPath? path.text with
  | none => above
  | some real => if ← (← IO.FS.realPath real).isDir then return some real else above

/-- The disk with the folder that a path names or stands in. -/
def addFolder (disk : Disk) (path : Path) : IO Disk := do
  match ← folderOf? (disk.herePath.join path) with
  | none => return disk
  | some real =>
    return { disk with root := (← readNode real).put (placeOf ⟨real⟩) disk.root }

/-- The disk, as far as the program looks at it. -/
def readDisk (arguments : List String) : IO Disk := do
  let here : Path := ⟨(← IO.currentDir).toString⟩
  let named := match CommandLine.parse arguments with
    | .ok arguments => arguments.paths
    | .error _ => []
  let empty : Disk := ⟨.folder [], placeOf here⟩
  (⟨"."⟩ :: named).foldlM addFolder empty

/-- The number of the process, where the system tells it. -/
def readProcessId : IO String := do
  try
    let status ← IO.FS.readFile "/proc/self/stat"
    return String.ofList (status.toList.takeWhile Char.isDigit)
  catch _ => return "0"

/-- The time of the clock. -/
def readNow : IO Moment := do
  let now ← Std.Time.Timestamp.now
  return Moment.ofClock now.toNanosecondsSinceUnixEpoch.val.toNat

/-- Everything that the program is started with. -/
def gather (arguments : List String) : IO CommandLine.Start := do
  let readsInput := match CommandLine.parse arguments with
    | .ok arguments => arguments.readsInput
    | .error _ => false
  return {
    arguments
    environment := ← readEnvironment
    input := ← if readsInput then do readStream (← IO.getStdin) [] else pure []
    disk := ← readDisk arguments
    processId := ← readProcessId
    now := ← readNow }

end Clarion.Main

/-- Runs the program, makes the files it asks for, and prints its output. -/
def main (arguments : List String) : IO UInt32 := do
  let outcome := Clarion.CommandLine.run (← Clarion.Main.gather arguments)
  for place in outcome.created do
    IO.FS.writeFile ("/" ++ String.intercalate "/" place) ""
  IO.print outcome.output
  if let some failure := outcome.failure then
    IO.eprintln ("Error: " ++ failure.kind ++ ": " ++ failure.message)
  return outcome.exitCode.toUInt32
