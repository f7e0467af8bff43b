import Clarion.Moment
import Clarion.Project
import Clarion.Solution.ClassIndex
import Clarion.Solution.SolutionFile

/-! A solution: the projects that a solution file names, and the search for a file across them. -/
namespace Clarion

/-- Where a search found its file. -/
inductive LookupSource where
  /-- Among the compiled items of a project. -/
  | project
  /-- Where a redirection says. -/
  | redirected
  | searchPath
  /-- In the memory of earlier searches. -/
  | memory
deriving Repr, DecidableEq

/-- The written name of a source. -/
def LookupSource.name : LookupSource → String
  | .project => "project"
  | .redirected => "redirected"
  | .searchPath => "project-search-path"
  | .memory => "cache"

/-- A file that was found. -/
structure Lookup where
  path : Path
  source : LookupSource
  /-- The name of the project that led to the file. -/
  project : String
deriving Repr, DecidableEq

/-- The JSON form of a found file. -/
def Lookup.toJson (lookup : Lookup) : Json :=
  .obj [("path", .str lookup.path.text), ("source", .str lookup.source.name),
    ("project", .str lookup.project)]

/-- A loaded solution. -/
structure Solution where
  /-- Tells one load from another. -/
  number : Nat
  path : Path
  name : String
  projects : List Project
  loadedAt : Moment
deriving Repr, DecidableEq

namespace Solution

/-- Loads a solution. A project that cannot be loaded only removes itself. -/
def load (files : FileSystem) (settings : Settings) (number : Nat) (now : Moment) (path : Path) :
    Except Failure Solution := do
  if !files.has path then throw (.pathNotFound path)
  let content ← (files.read path).mapError .io
  let projects := (SolutionFile.parse content path).filterMap fun entry =>
    (Project.load files settings entry.path (some entry.name)).toOption
  return { number, path, name := path.stem?.getD "", projects, loadedAt := now }

/-- The files that the solution was loaded from, the projects that were left out apart. -/
def origins (solution : Solution) : List Path :=
  solution.path :: solution.projects.map Project.path

/-- No file that the solution was loaded from is gone or changed after it was loaded. -/
def isFresh (solution : Solution) (files : FileSystem) : Bool :=
  solution.origins.all fun path =>
    (files.modified? path).any (· ≤ solution.loadedAt.ticks)

/-- The place of the first project of a name, up to letter case. -/
def place? (solution : Solution) (name : String) : Option Nat :=
  solution.projects.findIdx? fun project => Text.sameFold project.name name

/-- The first project of a name, up to letter case. -/
def project? (solution : Solution) (name : String) : Option Project :=
  solution.projects.find? fun project => Text.sameFold project.name name

/-- The directories looked through for classes: those of the projects, then every directory that a
project searches for included files. -/
def classDirectories (solution : Solution) (settings : Settings) : List Path :=
  Path.distinct (solution.projects.map Project.directory ++
    solution.projects.flatMap (·.searchPaths settings ".inc"))

/-- The compiled item that bears one of the names: the earliest name counts first, then the
earliest project. -/
def sourceLookup? (solution : Solution) (names : List String) : Option Lookup :=
  names.findSome? fun name => solution.projects.findSome? fun project =>
    (project.sourceFile? name).map fun path => ⟨path, .project, project.name⟩

/-- Places of the names, each with the project it comes from. -/
def owned (solution : Solution) (places : Project → String → List Path) (names : List String) :
    List (String × Path) :=
  names.flatMap fun name => solution.projects.flatMap fun project =>
    (places project name).map fun path => (project.name, path)

/-- The earliest place where a file is, under the first project that gives this place. -/
def placeLookup? (files : FileSystem) (source : LookupSource) (places : List (String × Path)) :
    Option Lookup :=
  (Probe.firstExisting files (places.map Prod.snd)).map fun path =>
    let owner := places.find? fun place => place.2.same path
    ⟨path, source, owner.elim "" Prod.fst⟩

/-- Searches for a file: among compiled items, then where redirections say, then in the search
paths. -/
def search? (solution : Solution) (files : FileSystem) (settings : Settings) (name : String) :
    Option Lookup :=
  if solution.projects.isEmpty then none
  else
    let names := Project.lookupNames settings name
    let redirected := solution.owned (·.redirected settings) names
    let searched := solution.owned (·.searchCandidates settings) names
    (solution.sourceLookup? names).or <|
      (placeLookup? files .redirected redirected).or (placeLookup? files .searchPath searched)

/-- What a solution tells about itself. -/
def summaryMembers (solution : Solution) : List (String × Json) :=
  [("path", .str solution.path.text), ("name", .str solution.name),
    ("loadedAt", .str solution.loadedAt.text),
    ("projects", .arr (solution.projects.map Project.summaryJson))]

end Solution
end Clarion
