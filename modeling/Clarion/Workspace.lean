import Clarion.Solution

/-! A workspace: the solution in use, the solutions loaded before, and what was found so far.

Operations take the files as they are at that time and give an answer with the workspace after it.
Opening a solution can fail on its way, and what it made of the workspace up to there stays. -/
namespace Clarion

/-- The solution in use and what is remembered. -/
structure Workspace where
  settings : Settings := {}
  active : Option Solution := none
  /-- Loaded solutions by the path they were asked for. -/
  loaded : List (Path × Solution) := []
  /-- Files found in the solution in use, by the name asked for in small letters. -/
  found : List (String × Lookup) := []
  /-- The classes of the solution in use, once they were asked for. -/
  classes : Option ClassIndex := none
  /-- Search paths that were asked for, for each project of the solution in use. -/
  searched : List Project.SearchMemory := []
  /-- The number of the next solution to be loaded. -/
  nextNumber : Nat := 0
deriving Repr, DecidableEq

namespace Workspace

/-- The loaded solution of a path. -/
def loaded? (workspace : Workspace) (path : Path) : Option Solution :=
  (workspace.loaded.find? fun entry => entry.1.same path).map Prod.snd

/-- Loaded solutions with the one of a path set; a path that is there keeps its spelling. -/
def setLoaded (loaded : List (Path × Solution)) (path : Path) (solution : Solution) :
    List (Path × Solution) :=
  if loaded.any (·.1.same path) then
    loaded.map fun entry => if entry.1.same path then (entry.1, solution) else entry
  else loaded ++ [(path, solution)]

/-- The solution of a path: the one loaded before while its files are as they were, or else a new
one. -/
def obtain (workspace : Workspace) (files : FileSystem) (now : Moment) (path : Path) :
    Except Failure Solution :=
  match (workspace.loaded? path).filter (·.isFresh files) with
  | some solution => .ok solution
  | none => Solution.load files workspace.settings workspace.nextNumber now path

/-- The workspace with a solution in use. What was found belongs to the solution it was found in. -/
def activate (workspace : Workspace) (path : Path) (solution : Solution) : Workspace :=
  let isSwitch := workspace.active.all (·.number != solution.number)
  { workspace with
    active := some solution
    loaded := setLoaded workspace.loaded path solution
    found := if isSwitch then [] else workspace.found
    classes := if isSwitch then none else workspace.classes
    searched := if isSwitch then solution.projects.map fun _ => [] else workspace.searched
    nextNumber := max workspace.nextNumber (solution.number + 1) }

/-- Puts the solution of a path in use. -/
def switchTo (files : FileSystem) (now : Moment) (path : Path) :
    ExceptT Failure (StateM Workspace) Solution := do
  let solution ← ofExcept ((← get).obtain files now path)
  modify (·.activate path solution)
  return solution

/-- The workspace with the solution of a path in use, where it could be obtained. -/
def openSolution (workspace : Workspace) (files : FileSystem) (now : Moment) (path : Path) :
    Except Failure (Solution × Workspace) :=
  let (given, after) := (switchTo files now path).run.run workspace
  given.map fun solution => (solution, after)

/-- Forgets loaded solutions and what was found. The solution in use stays. -/
def clear (workspace : Workspace) : Workspace :=
  { workspace with loaded := [], found := [], classes := none }

/-- The solution in use, or the failure that there is none. -/
def requireActive (workspace : Workspace) : Except Failure Solution :=
  workspace.active.elim (.error .noSolution) .ok

/-- The search paths of the project at a place of the solution, with what is remembered
afterwards. -/
def recallAt (settings : Settings) (solution : Solution) (extension : String)
    (memories : List Project.SearchMemory) (place : Nat) :
    List Path × List Project.SearchMemory :=
  match solution.projects[place]? with
  | none => ([], memories)
  | some project =>
    let memory := (memories[place]?).getD []
    let (paths, memory) := project.recallSearchPaths settings memory extension
    (paths, memories.set place memory)

/-- The search paths of the projects at several places, one after the other. -/
def recallAll (settings : Settings) (solution : Solution) (extension : String)
    (memories : List Project.SearchMemory) :
    List Nat → List Path × List Project.SearchMemory
  | [] => ([], memories)
  | place :: rest =>
    let (paths, memories) := recallAt settings solution extension memories place
    let (others, memories) := recallAll settings solution extension memories rest
    (paths ++ others, memories)

/-- The directories searched for an extension by one project, or by all of them, each once. A
project that is not there searches none. -/
def searchPaths (workspace : Workspace) (project : Option String) (extension : String) :
    Except Failure (List Path × Workspace) := do
  let solution ← workspace.requireActive
  let places := match project with
    | none => List.range solution.projects.length
    | some name => (solution.place? name).toList
  let (paths, searched) := recallAll workspace.settings solution extension workspace.searched places
  return (Path.distinct paths, { workspace with searched })

/-- The extension that is meant, with the directories searched for it. -/
def describeSearchPaths (workspace : Workspace) (project : Option String) (extension : String) :
    Except Failure (String × List Path × Workspace) := do
  let extension := Path.normalizeExtension extension
  let (paths, workspace) ← workspace.searchPaths project extension
  return (extension, paths, workspace)

/-- What a name is remembered under. -/
def lookupKey (name : String) : String :=
  Text.foldLower (Text.trim name)

/-- Looks for a file across the solution in use. A file that was found before is not searched for
again, and one that was not found is. -/
def find (workspace : Workspace) (files : FileSystem) (name : String) :
    Option Lookup × Workspace :=
  let key := lookupKey name
  match workspace.found.lookup key with
  | some lookup => (some { lookup with source := .memory }, workspace)
  | none =>
    match workspace.active.bind (·.search? files workspace.settings (Text.trim name)) with
    | none => (none, workspace)
    | some lookup =>
      (some lookup, { workspace with found := workspace.found ++ [(key, lookup)] })

/-- Looks for a file in the places of one project. -/
def findInProject (workspace : Workspace) (files : FileSystem) (project name : String) :
    Except Failure (Option Lookup) := do
  let solution ← workspace.requireActive
  match solution.project? project with
  | none => throw (.projectNotFound project)
  | some project =>
    let path := project.findSideBySide? files workspace.settings (Text.trim name)
    return path.map fun path => ⟨path, .searchPath, project.name⟩

/-- The definitions of a class in the solution in use. The classes are indexed once. -/
def findClass (workspace : Workspace) (files : FileSystem) (name : String) :
    Except Failure (List ClassDefinition × Workspace) := do
  let solution ← workspace.requireActive
  let index := workspace.classes.getD
    (ClassIndex.build files (solution.classDirectories workspace.settings))
  return (index.find name, { workspace with classes := some index })

end Workspace
end Clarion
