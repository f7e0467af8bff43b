import Clarion.Project.ProjectFile
import Clarion.Redirection

/-! A project: what its file says, the redirections that apply to it, and where it looks for
files. -/
namespace Clarion

/-! ### Existence checks

Checks may run side by side and finish in any order: the winner is decided by the places of the
candidates, not by who finishes first. -/

namespace Probe

/-- A finished check: the place of the candidate, and whether a file is there. -/
abbrev Check := Nat × Bool

/-- The earlier of the best place so far and that of a check that found a file. -/
def better (best : Option Nat) (check : Check) : Option Nat :=
  if check.2 then some (best.elim check.1 (min check.1)) else best

/-- The earliest place among finished checks that found a file. -/
def earliest (finished : List Check) : Option Nat :=
  finished.foldl better none

/-- One check for each candidate. -/
def checks (files : FileSystem) (candidates : List Path) : List Check :=
  candidates.mapIdx fun place candidate => (place, files.has candidate)

/-- The candidate that finished checks settle on. -/
def winner? (candidates : List Path) (finished : List Check) : Option Path :=
  (earliest finished).bind fun place => candidates[place]?

/-- The earliest candidate where a file is. -/
def firstExisting (files : FileSystem) (candidates : List Path) : Option Path :=
  winner? candidates (checks files candidates)

end Probe

/-! ### Projects -/

/-- A loaded project. -/
structure Project where
  name : String
  /-- The project file. -/
  path : Path
  directory : Path
  file : ProjectFile
  /-- The compiled items, seen from the directory of the project. -/
  sourceFiles : List Path
  entries : List Redirection
deriving Repr, DecidableEq

namespace Project

/-- Loads a project and the redirections that apply to it. A project file that does not say its
name goes by the name it is known by elsewhere, or else by that of the file. -/
def load (files : FileSystem) (settings : Settings) (path : Path) (knownAs : Option String) :
    Except Failure Project := do
  if !files.has path then throw (.pathNotFound path)
  let content ← (files.read path).mapError .io
  let file ← (ProjectFile.parse content).mapError (.invalidProject path)
  let directory := path.parentOrHere
  return {
    name := ((file.displayName?.or knownAs).or path.stem?).getD ""
    path
    directory
    file
    sourceFiles := file.compile.map fun item => directory.resolveAgainst (.ofProjectText item)
    entries := Redirection.ofDirectory files settings directory }

/-- The entry assigns directories to files with an extension, under a configuration. -/
def covers (configuration extension : String) (entry : Redirection) : Bool :=
  entry.appliesTo configuration && (entry.isWildcard || entry.matchesExtension extension)

/-- The directories searched for files with an extension: that of the project, then those of the
entries that cover the extension, each once. -/
def searchPaths (project : Project) (settings : Settings) (extension : String) : List Path :=
  let extension := Path.normalizeExtension extension
  let covering := project.entries.filter (covers settings.configuration extension)
  let assigned := covering.flatMap fun entry => entry.paths.map project.directory.resolveAgainst
  Path.distinct (project.directory :: assigned)

/-- Search paths that were asked for before, by extension and configuration in small letters. -/
abbrev SearchMemory := List ((String × String) × List Path)

/-- The search paths for an extension from memory, or else worked out and remembered. -/
def recallSearchPaths (project : Project) (settings : Settings) (memory : SearchMemory)
    (extension : String) : List Path × SearchMemory :=
  let key := (Path.normalizeExtension extension, Text.foldLower settings.configuration)
  match memory.lookup key with
  | some paths => (paths, memory)
  | none =>
    let paths := project.searchPaths settings extension
    (paths, memory ++ [(key, paths)])

/-- The compiled item with a file name, up to letter case. -/
def sourceFile? (project : Project) (name : String) : Option Path :=
  project.sourceFiles.find? (·.hasFileName name)

/-- The names to try for a name: itself, and with each default extension when it has none. -/
def lookupNames (settings : Settings) (name : String) : List String :=
  match Path.dottedExtension? name with
  | some _ => [name]
  | none =>
    name :: settings.lookupExtensions.map fun extension => name ++ Path.normalizeExtension extension

/-- The places of a name that redirections give. -/
def redirected (project : Project) (settings : Settings) (name : String) : List Path :=
  Redirection.candidates settings project.entries name project.directory

/-- The places of a name in the search paths of its extension. -/
def searchCandidates (project : Project) (settings : Settings) (name : String) : List Path :=
  let extension := (Path.dottedExtension? name).getD ".*"
  (project.searchPaths settings extension).map (·.join ⟨name⟩)

/-- All places of a name, in the order they count. -/
def candidates (project : Project) (settings : Settings) (name : String) : List Path :=
  (lookupNames settings name).flatMap fun name =>
    project.redirected settings name ++ project.searchCandidates settings name

/-- Looks for a name one place after the other: for each name to try, where redirections say, and
then in the search paths. -/
def find? (project : Project) (files : FileSystem) (settings : Settings) (name : String) :
    Option Path :=
  (lookupNames settings name).findSome? fun name =>
    (Redirection.find? files settings project.entries name project.directory).or
      ((project.searchCandidates settings name).find? files.has)

/-- Looks for a name in all its places side by side. -/
def findSideBySide? (project : Project) (files : FileSystem) (settings : Settings)
    (name : String) : Option Path :=
  Probe.firstExisting files (project.candidates settings name)

/-- What a project tells about itself. -/
def summaryJson (project : Project) : Json :=
  let textOrNull (text : Option String) : Json := text.elim .null .str
  .obj [("name", .str project.name), ("guid", textOrNull (project.file.guid.map Uuid.text)),
    ("path", .str project.path.text), ("sourceFiles", .int project.sourceFiles.length),
    ("redirectionEntries", .int project.entries.length),
    ("outputType", textOrNull project.file.outputType),
    ("fileDrivers", .arr (project.file.fileDrivers.map .str)),
    ("references", .arr (project.file.projectReferences.map fun reference =>
      .str (reference.name.getD reference.target)))]

end Project
end Clarion
