import Clarion.Proofs.NameCase
import Clarion.Proofs.WorkspaceHistory

/-! The memory of searches against the searches themselves, on files that stay as they are. What is
remembered for a name is what the first name with its key found, and two names have one key when they
differ in letter case alone. Compiled items are found by any spelling; every other file is looked for
by the exact one, so the memory may give what a search for the name does not. -/
namespace Clarion

/-- The two answers give the same file and the same project, or both give none. Where the file was
found may differ. -/
def Lookup.Agree (answer searched : Option Lookup) : Prop :=
  (answer.map fun found => (found.path, found.project)) =
    searched.map fun found => (found.path, found.project)

instance (answer searched : Option Lookup) : Decidable (Lookup.Agree answer searched) :=
  inferInstanceAs (Decidable (_ = _))

example : Lookup.Agree (some ⟨⟨"/shared.inc"⟩, .memory, "Lib"⟩)
    (some ⟨⟨"/shared.inc"⟩, .redirected, "Lib"⟩) := by
  decide

namespace Solution

variable {solution : Solution} {files : FileSystem} {settings : Settings} {left right name : String}

/-- What the first of the names that have the key and are found gives. -/
def firstFound? (solution : Solution) (files : FileSystem) (settings : Settings) (key : String)
    (names : List String) : Option Lookup :=
  (names.filter (Workspace.lookupKey · == key)).findSome? fun name =>
    solution.search? files settings (Text.trim name)

theorem firstFound?_concat (key : String) (names : List String) (name : String) :
    solution.firstFound? files settings key (names ++ [name]) =
      (solution.firstFound? files settings key names).or
        (if Workspace.lookupKey name == key then solution.search? files settings (Text.trim name)
          else none) := by
  rw [firstFound?, List.filter_append, List.findSome?_append]
  cases same : Workspace.lookupKey name == key <;> simp [firstFound?, same]

theorem search?_of_source {found : Lookup}
    (compiled : solution.sourceLookup? (Project.lookupNames settings name) = some found) :
    solution.search? files settings name = some found := by
  obtain ⟨project, member, -⟩ := sourceLookup?_named compiled
  have projects : solution.projects.isEmpty = false := by
    simpa using List.ne_nil_of_mem member
  simp [search?, projects, compiled]

/-- A compiled item is found under one name just as under any other with the same key. -/
theorem search?_same_key {found : Lookup}
    (compiled : solution.sourceLookup? (Project.lookupNames settings (Text.trim right)) = some found)
    (same : Workspace.lookupKey left = Workspace.lookupKey right) :
    solution.search? files settings (Text.trim left) = some found := by
  have names := Project.lookupNames_congr settings same
  exact search?_of_source ((solution.sourceLookup?_congr names).trans compiled)

end Solution

namespace Workspace

variable {settings : Settings} {history : History} {workspace start : Workspace}
  {files : FileSystem} {now : Moment} {path : Path} {solution : Solution}

/-! ### What a run of searches remembers -/

/-- The workspace after searches for several names. -/
def findAll (workspace : Workspace) (files : FileSystem) (names : List String) : Workspace :=
  names.foldl (fun workspace name => (workspace.find files name).2) workspace

theorem findAll_concat (workspace : Workspace) (files : FileSystem) (names : List String)
    (name : String) :
    workspace.findAll files (names ++ [name]) = ((workspace.findAll files names).find files name).2 := by
  simp [findAll]

theorem run_findAll (settings : Settings) (history : History) (files : FileSystem)
    (names : List String) :
    run settings (history ++ names.map fun name => (files, .find name)) =
      (run settings history).findAll files names := by
  simp only [run, findAll, List.foldl_append, List.foldl_map]
  rfl

/-- The solution in use, with what the names asked for so far have left in memory. -/
structure Asked (settings : Settings) (files : FileSystem) (solution : Solution)
    (names : List String) (workspace : Workspace) : Prop where
  kept : workspace.settings = settings
  active : workspace.active = some solution
  lookup : ∀ key, workspace.found.lookup key = solution.firstFound? files settings key names

theorem Asked.searches {names : List String}
    (asked : Asked settings files solution names workspace) (name : String) :
    workspace.active.bind (·.search? files workspace.settings name) =
      solution.search? files settings name := by
  rw [asked.active, asked.kept, Option.bind_some]

/-- What a search answers: what is in memory for the key, and else what a search finds. -/
theorem Asked.find_eq {names : List String} (asked : Asked settings files solution names workspace)
    (name : String) :
    (workspace.find files name).1 =
        match solution.firstFound? files settings (lookupKey name) names with
        | some found => some { found with source := .memory }
        | none => solution.search? files settings (Text.trim name) := by
  unfold find
  dsimp only
  rw [asked.lookup, asked.searches]
  cases solution.firstFound? files settings (lookupKey name) names with
  | some found => rfl
  | none => cases solution.search? files settings (Text.trim name) <;> rfl

theorem Asked.find {names : List String} (asked : Asked settings files solution names workspace)
    (name : String) :
    Asked settings files solution (names ++ [name]) (workspace.find files name).2 := by
  unfold Workspace.find
  dsimp only
  rw [asked.searches]
  cases known : workspace.found.lookup (lookupKey name) with
  | some found =>
    -- The key was found before, so the name adds nothing to what the earlier names have left.
    refine ⟨asked.kept, asked.active, fun key => ?_⟩
    dsimp only
    rw [asked.lookup, Solution.firstFound?_concat]
    by_cases same : lookupKey name = key
    · rw [← same, ← asked.lookup, known, Option.some_or]
    · simp [same]
  | none =>
    cases searched : solution.search? files settings (Text.trim name) with
    | none =>
      refine ⟨asked.kept, asked.active, fun key => ?_⟩
      dsimp only
      rw [asked.lookup, Solution.firstFound?_concat, searched, ite_self, Option.or_none]
    | some found =>
      refine ⟨asked.kept, asked.active, fun key => ?_⟩
      dsimp only
      rw [List.lookup_append, asked.lookup, Solution.firstFound?_concat, searched]
      refine congrArg (Option.or _) ?_
      rw [List.lookup_cons]
      by_cases same : lookupKey name = key
      · simp [same]
      · have other : (key == lookupKey name) = false := beq_false_of_ne (Ne.symm same)
        simp [same, other]

theorem Asked.findAll (asked : Asked settings files solution [] workspace) (names : List String) :
    Asked settings files solution names (workspace.findAll files names) := by
  induction names using List.reverseRecOn with
  | nil => exact asked
  | append_singleton names name ih =>
    rw [findAll_concat]
    exact ih.find name

/-- A solution that is loaded anew comes into use with an empty memory. -/
theorem asked_nothing
    (opened : (run settings history).openSolution files now path = .ok (solution, start))
    (new : solution.number = (run settings history).nextNumber) :
    Asked settings files solution [] start := by
  have coherent := coherent_run settings history
  have forgotten : start.found = [] := by
    rcases coherent.numbered.switches_or_stays opened with ⟨found, -⟩ | ⟨active, -⟩
    · exact found
    · exact absurd new (Nat.ne_of_lt (coherent.numbered.below solution (.inl active)))
  obtain ⟨rfl, -⟩ := openSolution_cases opened
  refine ⟨coherent.kept, rfl, fun key => ?_⟩
  rw [forgotten]
  rfl

theorem asked_after
    (opened : (run settings history).openSolution files now path = .ok (solution, start))
    (new : solution.number = (run settings history).nextNumber) (names : List String) :
    Asked settings files solution names
      (run settings (history ++ (files, .openSolution now path) ::
        names.map fun name => (files, .find name))) := by
  have loaded : run settings (history ++ [(files, .openSolution now path)]) = start := by
    rw [run_concat, perform, switchTo_workspace, opened]
  rw [← List.singleton_append, ← List.append_assoc, run_findAll, loaded]
  exact (asked_nothing opened new).findAll names

/-! ### Memory against search -/

/-- On files that stay as they are after a solution is loaded, the answer for a name is that of a
search for it exactly when the search agrees with what the first name of the same key that was found
has left in memory. So it is whenever a compiled item bears the name, and whenever the name was asked
for in one spelling only. -/
theorem memory_agrees_iff
    (opened : (run settings history).openSolution files now path = .ok (solution, start))
    (new : solution.number = (run settings history).nextNumber) (names : List String)
    (name : String) :
    let asked := run settings (history ++ (files, .openSolution now path) ::
      names.map fun other => (files, .find other))
    let searched := solution.search? files settings (Text.trim name)
    (Lookup.Agree (asked.find files name).1 searched ↔
      ∀ found, solution.firstFound? files settings (lookupKey name) names = some found →
        Lookup.Agree (some found) searched) ∧
    ((solution.sourceLookup? (Project.lookupNames settings (Text.trim name))).isSome →
      Lookup.Agree (asked.find files name).1 searched) ∧
    ((∀ other ∈ names, lookupKey other = lookupKey name → Text.trim other = Text.trim name) →
      Lookup.Agree (asked.find files name).1 searched) := by
  intro asked searched
  have answer := (asked_after opened new names).find_eq name
  have agrees_iff : Lookup.Agree (asked.find files name).1 searched ↔
      ∀ found, solution.firstFound? files settings (lookupKey name) names = some found →
        Lookup.Agree (some found) searched := by
    rw [answer]
    cases solution.firstFound? files settings (lookupKey name) names with
    | some found => exact ⟨by rintro agree _ ⟨⟩; exact agree, fun agree => agree found rfl⟩
    | none => exact iff_of_true rfl nofun
  -- What is in memory was found by a search for one of the names before.
  have earlier {found : Lookup}
      (first : solution.firstFound? files settings (lookupKey name) names = some found) :
      ∃ other ∈ names, lookupKey other = lookupKey name ∧
        solution.search? files settings (Text.trim other) = some found := by
    obtain ⟨other, member, given⟩ := List.exists_of_findSome?_eq_some first
    obtain ⟨listed, same⟩ := List.mem_filter.mp member
    exact ⟨other, listed, by simpa using same, given⟩
  refine ⟨agrees_iff, fun compiled => agrees_iff.mpr fun found first => ?_,
    fun spelled => agrees_iff.mpr fun found first => ?_⟩
  · obtain ⟨item, compiled⟩ := Option.isSome_iff_exists.mp compiled
    obtain ⟨other, -, same, given⟩ := earlier first
    rw [Solution.search?_same_key compiled same] at given
    rw [← given]
    exact congrArg _ (Solution.search?_of_source compiled).symm
  · obtain ⟨other, listed, same, given⟩ := earlier first
    rw [spelled other listed same] at given
    exact congrArg _ given.symm

/-! ### A name in another spelling -/

/-- A solution of one project, with a file beside it that is no compiled item. -/
def sharedFiles : Files :=
  Session.filesWith "<Project/>" ++ [⟨⟨"/shared.inc"⟩, .bytes [], 1000⟩]

/-- The project as it is loaded. -/
def sharedProject : Project where
  name := "Lib"
  path := Session.projectFile
  directory := ⟨"/"⟩
  file := {}
  sourceFiles := []
  entries := [Redirection.seed ⟨"/"⟩]

/-- The solution as it is loaded. -/
def sharedSolution : Solution where
  number := 0
  path := Session.solutionFile
  name := "App"
  projects := [sharedProject]
  loadedAt := ⟨2000, ""⟩

/-- No redirection file stands in the directory of the project. -/
theorem entries_sharedProject : Redirection.ofDirectory sharedFiles.fileSystem {} ⟨"/"⟩ =
    [Redirection.seed ⟨"/"⟩] := by
  have here : (sharedFiles.filter fun file => file.path.parent?.any (·.same ⟨"/"⟩)) =
      sharedFiles := by
    decide +kernel
  have sorted : sharedFiles.Pairwise fun left right => Files.nameLe left right := by
    decide +kernel
  have listed : sharedFiles.fileSystem.list? ⟨"/"⟩ = some (sharedFiles.map File.path) := by
    simp only [Files.fileSystem, Files.inside, here, List.mergeSort_of_pairwise sorted]
    rfl
  have missing : Redirection.locate? sharedFiles.fileSystem {} ⟨"/"⟩ = none := by
    rw [Redirection.locate?, listed]
    decide +kernel
  rw [Redirection.ofDirectory, missing]

theorem loads_sharedProject :
    Project.load sharedFiles.fileSystem {} Session.projectFile (some "Lib") =
      .ok sharedProject := by
  have has : sharedFiles.fileSystem.has Session.projectFile = true := by decide +kernel
  have read : sharedFiles.fileSystem.read Session.projectFile = .ok "<Project/>" := by
    decide +kernel
  have parsed : ProjectFile.parse "<Project/>" = .ok {} := by decide +kernel
  have directory : Session.projectFile.parentOrHere = ⟨"/"⟩ := by decide +kernel
  simp only [Project.load, has, read, parsed, directory, Except.mapError, bind, Except.bind]
  rw [entries_sharedProject]
  rfl

theorem opens_sharedSolution :
    (run {} []).openSolution sharedFiles.fileSystem ⟨2000, ""⟩ Session.solutionFile =
      .ok (sharedSolution, (run {} []).activate Session.solutionFile sharedSolution) := by
  have has : sharedFiles.fileSystem.has Session.solutionFile = true := by decide +kernel
  have read : sharedFiles.fileSystem.read Session.solutionFile = .ok Session.solutionText := by
    decide +kernel
  have listed : SolutionFile.parse Session.solutionText Session.solutionFile =
      [⟨none, "Lib", "Lib.cwproj", Session.projectFile, none⟩] := by
    decide +kernel
  have loads : Solution.load sharedFiles.fileSystem {} 0 ⟨2000, ""⟩ Session.solutionFile =
      .ok sharedSolution := by
    simp only [Solution.load, has, read, listed, Except.mapError, bind, Except.bind,
      List.filterMap_cons, loads_sharedProject]
    rfl
  have obtained : (run {} []).obtain sharedFiles.fileSystem ⟨2000, ""⟩ Session.solutionFile =
      .ok sharedSolution := loads
  rw [openSolution_eq, obtained]
  rfl

/-- The name is asked for once, after the solution is opened. -/
def openThenAsk : History :=
  (sharedFiles.fileSystem, .openSolution ⟨2000, ""⟩ Session.solutionFile) ::
    ["shared.inc"].map fun other => (sharedFiles.fileSystem, .find other)

theorem name_with_blanks_agrees :
    sharedSolution.number = (run {} []).nextNumber ∧
      Lookup.Agree ((run {} openThenAsk).find sharedFiles.fileSystem " shared.inc ").1
        (sharedSolution.search? sharedFiles.fileSystem {} (Text.trim " shared.inc ")) ∧
      sharedSolution.search? sharedFiles.fileSystem {} (Text.trim " shared.inc ") =
        some ⟨⟨"/shared.inc"⟩, .redirected, "Lib"⟩ := by
  have new : sharedSolution.number = (run {} []).nextNumber := rfl
  obtain ⟨-, -, sameSpelling⟩ :=
    memory_agrees_iff opens_sharedSolution new ["shared.inc"] " shared.inc "
  exact ⟨new, sameSpelling (by decide +kernel), by decide +kernel⟩

/-- After a solution is loaded, on files that stay as they are, every answer is that of a search for
the name. -/
def AnswersAsSearched (settings : Settings) (history : History) (files : FileSystem) (now : Moment)
    (path : Path) : Prop :=
  ∀ solution start,
    (run settings history).openSolution files now path = .ok (solution, start) →
    solution.number = (run settings history).nextNumber →
    ∀ (names : List String) (name : String),
      let asked := run settings (history ++ (files, .openSolution now path) ::
        names.map fun other => (files, .find other))
      Lookup.Agree (asked.find files name).1 (solution.search? files settings (Text.trim name))

theorem other_spelling_is_answered_from_memory :
    ¬AnswersAsSearched {} [] sharedFiles.fileSystem ⟨2000, ""⟩ Session.solutionFile := by
  intro answers
  have agrees : Lookup.Agree ((run {} openThenAsk).find sharedFiles.fileSystem "SHARED.INC").1
      (sharedSolution.search? sharedFiles.fileSystem {} (Text.trim "SHARED.INC")) :=
    answers _ _ opens_sharedSolution rfl ["shared.inc"] "SHARED.INC"
  have remembered : sharedSolution.firstFound? sharedFiles.fileSystem {} (lookupKey "SHARED.INC")
      ["shared.inc"] = some ⟨⟨"/shared.inc"⟩, .redirected, "Lib"⟩ := by
    decide +kernel
  have missing : sharedSolution.search? sharedFiles.fileSystem {} (Text.trim "SHARED.INC") = none := by
    decide +kernel
  have asked : Asked {} sharedFiles.fileSystem sharedSolution ["shared.inc"] (run {} openThenAsk) :=
    asked_after opens_sharedSolution rfl ["shared.inc"]
  rw [asked.find_eq, remembered, missing] at agrees
  cases agrees

end Workspace
end Clarion
