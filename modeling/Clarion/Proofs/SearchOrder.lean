import Clarion.Proofs.ConcurrentLookup
import Clarion.Proofs.SolutionCache
import Mathlib.Data.List.Find

/-! The order of a search across a solution. A search looks at compiled items first, then where
redirections say, then in the search paths; in each of these it goes through the names to try, for
each name through the projects, and for each project through the places that it gives. The places of
all projects are checked side by side, and the project of the file found is told afterwards by its
path alone; since paths with the same parts name one file, that is the project whose turn it was. -/
namespace Clarion

/-- Paths with the same parts name the same file. -/
def FileSystem.ByParts (files : FileSystem) : Prop :=
  ∀ left right : Path, left.same right → files.has left = files.has right

theorem Files.byParts (files : Files) : files.fileSystem.ByParts := by
  intro left right same
  simp only [fileSystem, get?_same same]

/-- A place that a search looks at, the project that gives it, and what it is given as. -/
structure Visit where
  project : Project
  path : Path
  source : LookupSource

namespace Visit

/-- What a search tells of the place when it stops there. -/
def lookup (visit : Visit) : Lookup :=
  ⟨visit.path, visit.source, visit.project.name⟩

/-- A search stops at a compiled item in any case, and at any other place if a file is there. -/
def stops (files : FileSystem) (visit : Visit) : Bool :=
  visit.source == .project || files.has visit.path

end Visit

namespace Solution

variable {solution : Solution} {files : FileSystem} {settings : Settings} {names : List String}
  {source : LookupSource} {places : List (String × Path)}

/-- Name after name, and project after project, the places that `give` gives. -/
def visitsBy (solution : Solution) (source : LookupSource) (give : Project → String → List Path)
    (names : List String) : List Visit :=
  names.flatMap fun name => solution.projects.flatMap fun project =>
    (give project name).map fun path => ⟨project, path, source⟩

/-- The compiled items of a project that bear the name, up to letter case. -/
def itemsNamed (project : Project) (name : String) : List Path :=
  project.sourceFiles.filter (·.hasFileName name)

/-- Entry after entry that counts for the name, each directory of the entry with the name in it. -/
def placesRedirected (settings : Settings) (project : Project) (name : String) : List Path :=
  project.entries.flatMap fun entry =>
    if entry.appliesTo settings.configuration && entry.maskAccepts name then
      entry.paths.map fun directory => (project.directory.resolveAgainst directory).join ⟨name⟩
    else []

/-- Each directory searched for the extension of the name, with the name in it. -/
def placesSearched (settings : Settings) (project : Project) (name : String) : List Path :=
  (project.searchPaths settings ((Path.dottedExtension? name).getD ".*")).map (·.join ⟨name⟩)

/-- All places that a search for a name may look at, in the order of their turns. -/
def visits (solution : Solution) (settings : Settings) (name : String) : List Visit :=
  let names := Project.lookupNames settings name
  solution.visitsBy .project itemsNamed names ++
    (solution.visitsBy .redirected (placesRedirected settings) names ++
      solution.visitsBy .searchPath (placesSearched settings) names)

/-- What finished checks of some places settle on, with the first project that gives the place. -/
def settledLookup? (source : LookupSource) (places : List (String × Path))
    (finished : List Probe.Check) : Option Lookup :=
  (Probe.winner? (places.map Prod.snd) finished).map fun path =>
    ⟨path, source, (places.find? fun place => place.2.same path).elim "" Prod.fst⟩

/-! ### The project of the file found -/

/-- No place before the first file has the parts of its path, so the path tells its project. -/
theorem placeLookup?_eq (byParts : files.ByParts) (source : LookupSource)
    (places : List (String × Path)) : placeLookup? files source places =
      (places.find? fun place => files.has place.2).map fun place => ⟨place.2, source, place.1⟩ := by
  rw [placeLookup?, Probe.firstExisting_eq, List.find?_map, Option.map_map]
  change (places.find? fun place => files.has place.2).map _ = _
  cases found : places.find? fun place => files.has place.2 with
  | none => rfl
  | some place =>
    obtain ⟨here, front, back, split, before⟩ := List.find?_eq_some_iff_append.mp found
    have owner : places.find? (fun other => other.2.same place.2) = some place := by
      refine List.find?_eq_some_iff_append.mpr ⟨Path.same_iff.mpr rfl, front, back, split, ?_⟩
      intro other earlier
      have absent := before other earlier
      by_contra same
      have same : other.2.same place.2 := by simpa using same
      rw [byParts other.2 place.2 same, here] at absent
      cases absent
    simp [owner]

theorem owned_eq (source : LookupSource) (give : Project → String → List Path)
    (names : List String) : solution.owned give names =
      (solution.visitsBy source give names).map fun visit => (visit.project.name, visit.path) := by
  simp only [owned, visitsBy, List.map_flatMap, List.map_map, Function.comp_def]

theorem source_of_mem_visitsBy {visit : Visit} {give : Project → String → List Path}
    (member : visit ∈ solution.visitsBy source give names) : visit.source = source := by
  obtain ⟨name, -, member⟩ := List.mem_flatMap.mp member
  obtain ⟨project, -, member⟩ := List.mem_flatMap.mp member
  obtain ⟨path, -, rfl⟩ := List.mem_map.mp member
  rfl

/-- The places of all projects together lead to the first one where a file is, and to the project
whose turn it was. -/
theorem placeLookup?_owned (solution : Solution) (byParts : files.ByParts)
    (noItem : source ≠ .project) (give : Project → String → List Path) (names : List String) :
    placeLookup? files source (solution.owned give names) =
      ((solution.visitsBy source give names).find? (Visit.stops files)).map Visit.lookup := by
  have given : ∀ visit ∈ solution.visitsBy source give names, visit.source = source :=
    fun visit => source_of_mem_visitsBy
  rw [placeLookup?_eq byParts, owned_eq source, List.find?_map, Option.map_map]
  generalize solution.visitsBy source give names = visits at given
  have stops : visits.find? (Visit.stops files) = visits.find? fun visit => files.has visit.path := by
    refine List.find?_congr fun visit member => ?_
    simp [Visit.stops, given visit member, noItem]
  rw [stops]
  change (visits.find? fun visit => files.has visit.path).map _ = _
  cases found : visits.find? fun visit => files.has visit.path with
  | none => rfl
  | some visit =>
    have kind := given visit (List.mem_of_find?_eq_some found)
    simp [Visit.lookup, kind]

/-! ### The places of each kind -/

theorem redirected_eq (settings : Settings) :
    (fun project : Project => project.redirected settings) = placesRedirected settings := by
  funext project name
  rw [Project.redirected, Redirection.candidates, placesRedirected]
  induction project.entries with
  | nil => rfl
  | cons entry entries ih =>
    rw [List.filter_cons, List.flatMap_cons]
    by_cases counts : (entry.appliesTo settings.configuration && entry.maskAccepts name) = true
    · rw [if_pos counts, if_pos counts, List.flatMap_cons, ih]
    · rw [if_neg counts, if_neg counts, List.nil_append, ih]

theorem searchCandidates_eq (settings : Settings) :
    (fun project : Project => project.searchCandidates settings) = placesSearched settings :=
  rfl

/-- A compiled item needs no file on disk, so the search stops at the first one of a name. -/
theorem sourceLookup?_eq (solution : Solution) (files : FileSystem) (names : List String) :
    solution.sourceLookup? names =
      ((solution.visitsBy .project itemsNamed names).find? (Visit.stops files)).map
        Visit.lookup := by
  simp only [sourceLookup?, visitsBy, Project.sourceFile?, itemsNamed, List.find?_flatMap,
    List.map_findSome?, Function.comp_def, List.find?_map, Option.map_map, List.find?_filter]
  simp [Visit.stops, Visit.lookup, Path.hasFileName]

/-! ### The search -/

theorem search?_eq (byParts : files.ByParts) (solution : Solution) (settings : Settings)
    (name : String) : solution.search? files settings name =
      ((solution.visits settings name).find? (Visit.stops files)).map Visit.lookup := by
  by_cases empty : solution.projects = []
  · have nowhere : solution.visits settings name = [] := by simp [visits, visitsBy, empty]
    rw [search?, if_pos (List.isEmpty_iff.mpr empty), nowhere, List.find?_nil, Option.map_none]
  · have compiled := solution.sourceLookup?_eq files (Project.lookupNames settings name)
    have redirected := solution.placeLookup?_owned byParts (by decide : LookupSource.redirected ≠ _)
      (placesRedirected settings) (Project.lookupNames settings name)
    have searched := solution.placeLookup?_owned byParts (by decide : LookupSource.searchPath ≠ _)
      (placesSearched settings) (Project.lookupNames settings name)
    rw [search?, if_neg (mt List.isEmpty_iff.mp empty), redirected_eq, searchCandidates_eq]
    simp only [compiled, redirected, searched, visits, List.find?_append, Option.map_or]

theorem settledLookup?_eq {finished : List Probe.Check}
    (complete : finished.Perm (Probe.checks files (places.map Prod.snd))) :
    settledLookup? source places finished = placeLookup? files source places := by
  rw [settledLookup?, placeLookup?, Probe.winner?_perm complete, Probe.firstExisting_eq]

/-- A search reports the first place of its visits where it stops, with what the place is given as
and the project that gives it, although the places of all projects are checked side by side, in
whatever order the checks finish, and the project is told afterwards by the path. -/
theorem search_reports_first_visit (byParts : files.ByParts) (solution : Solution)
    (settings : Settings) (name : String) :
    solution.search? files settings name =
        ((solution.visits settings name).find? (Visit.stops files)).map Visit.lookup ∧
      ∀ source places finished, finished.Perm (Probe.checks files (places.map Prod.snd)) →
        settledLookup? source places finished = placeLookup? files source places := by
  refine ⟨search?_eq byParts solution settings name, ?_⟩
  intro source places finished complete
  exact settledLookup?_eq complete

/-- Three projects, two of which take included files from one directory, spelled in two ways. -/
def sharedIncludes : Solution where
  number := 1
  path := ⟨"/app/Shop.sln"⟩
  name := "Shop"
  projects := [
    { Project.twoIncludes with entries := [] },
    { Project.twoIncludes with
      name := "Sales", entries := [⟨"Common", "*.inc", [⟨"/shared"⟩], ⟨"/app/Shop.red"⟩⟩] },
    { Project.twoIncludes with
      name := "Stock", entries := [⟨"Common", "*.inc", [⟨"/shared//./"⟩], ⟨"/app/Shop.red"⟩⟩] }]
  loadedAt := ⟨0, ""⟩

theorem shared_file_goes_to_first_giver :
    let files : Files := [⟨⟨"/shared/Defs.inc"⟩, .bytes [], 0⟩]
    let places := sharedIncludes.owned (·.redirected {}) (Project.lookupNames {} "Defs")
    let finished := (Probe.checks files.fileSystem (places.map Prod.snd)).reverse
    files.fileSystem.ByParts ∧
      finished.Perm (Probe.checks files.fileSystem (places.map Prod.snd)) ∧
      places = [("Sales", ⟨"/shared/Defs.inc"⟩), ("Stock", ⟨"/shared/Defs.inc"⟩)] ∧
      sharedIncludes.search? files.fileSystem {} "Defs" =
        some ⟨⟨"/shared/Defs.inc"⟩, .redirected, "Sales"⟩ ∧
      settledLookup? .redirected places finished =
        some ⟨⟨"/shared/Defs.inc"⟩, .redirected, "Sales"⟩ := by
  intro files places finished
  have byParts := Files.byParts files
  have complete := List.reverse_perm (Probe.checks files.fileSystem (places.map Prod.snd))
  obtain ⟨found, anyOrder⟩ := search_reports_first_visit byParts sharedIncludes {} "Defs"
  refine ⟨byParts, complete, by decide +kernel, found.trans (by decide +kernel), ?_⟩
  exact (anyOrder .redirected places finished complete).trans (by decide +kernel)

end Solution
end Clarion
