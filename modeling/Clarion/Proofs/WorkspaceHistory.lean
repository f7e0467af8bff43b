import Clarion.Proofs.ConcurrentLookup
import Clarion.Proofs.SolutionCache

/-! A workspace through a history of calls, each made to whatever files are there at that time. What
is remembered belongs to the solution in use: the files found in it name its projects, and the
classes were read from its directories. Two loads never have the same number, so a solution with the
number of the one in use is the one in use, and only then does anything stay remembered. -/
namespace Clarion

/-! ### Who a search names -/

namespace Solution

variable {solution : Solution} {files : FileSystem} {settings : Settings} {name : String}
  {names : List String} {source : LookupSource} {found : Lookup}

/-- A project of the solution goes by the name that the lookup gives. -/
def NamedBy (solution : Solution) (found : Lookup) : Prop :=
  ∃ project ∈ solution.projects, project.name = found.project

theorem sourceLookup?_named (given : solution.sourceLookup? names = some found) :
    solution.NamedBy found := by
  obtain ⟨name, -, given⟩ := List.exists_of_findSome?_eq_some given
  obtain ⟨project, member, given⟩ := List.exists_of_findSome?_eq_some given
  obtain ⟨path, -, rfl⟩ := Option.map_eq_some_iff.mp given
  exact ⟨project, member, rfl⟩

/-- A place that is found is one of the places, so the place it is traced back to is there. -/
theorem placeLookup?_named {places : Project → String → List Path}
    (given : placeLookup? files source (solution.owned places names) = some found) :
    solution.NamedBy found := by
  obtain ⟨path, first, rfl⟩ := Option.map_eq_some_iff.mp given
  rw [Probe.firstExisting_eq] at first
  obtain ⟨place, listed, rfl⟩ := List.mem_map.mp (List.mem_of_find?_eq_some first)
  have traced : ((solution.owned places names).find? fun other => other.2.same place.2).isSome :=
    List.find?_isSome.mpr ⟨place, listed, Path.same_iff.mpr rfl⟩
  obtain ⟨owner, owns⟩ := Option.isSome_iff_exists.mp traced
  obtain ⟨name, -, member⟩ := List.mem_flatMap.mp (List.mem_of_find?_eq_some owns)
  obtain ⟨project, belongs, candidates⟩ := List.mem_flatMap.mp member
  obtain ⟨candidate, -, rfl⟩ := List.mem_map.mp candidates
  refine ⟨project, belongs, ?_⟩
  dsimp only
  rw [owns]
  rfl

theorem search?_named (given : solution.search? files settings name = some found) :
    solution.NamedBy found := by
  unfold search? at given
  split at given
  · cases given
  · dsimp only at given
    rcases Option.or_eq_some_iff.mp given with given | ⟨-, given⟩
    · exact sourceLookup?_named given
    · rcases Option.or_eq_some_iff.mp given with given | ⟨-, given⟩
      · exact placeLookup?_named given
      · exact placeLookup?_named given

/-- A solution cannot be loaded exactly when its file is not there or cannot be read. -/
theorem load_fails_iff {number : Nat} {now : Moment} {path : Path} :
    (∃ why, load files settings number now path = .error why) ↔
      ¬files.has path ∨ ∃ reason, files.read path = .error reason := by
  unfold load
  cases has : files.has path with
  | false => exact iff_of_true ⟨_, rfl⟩ (.inl Bool.false_ne_true)
  | true =>
    cases read : files.read path with
    | error reason => exact iff_of_true ⟨_, rfl⟩ (.inr ⟨reason, rfl⟩)
    | ok content =>
      refine iff_of_false ?_ ?_
      · rintro ⟨why, fails⟩
        cases fails
      · rintro (missing | ⟨reason, broken⟩)
        · exact missing rfl
        · cases broken

end Solution

namespace Workspace

/-! ### Histories of calls -/

/-- What is asked of a workspace. -/
inductive Call where
  | openSolution (now : Moment) (path : Path)
  | find (name : String)
  | findInProject (project name : String)
  | findClass (name : String)
  | searchPaths (project : Option String) (extension : String)
  | clear

/-- The workspace after a call to the files as they are. An opening leaves the workspace that it got
to, also where it fails; a search that fails does so before it remembers anything. -/
def perform (workspace : Workspace) (files : FileSystem) : Call → Workspace
  | .openSolution now path => ((switchTo files now path).run.run workspace).2
  | .find name => (workspace.find files name).2
  | .findInProject _ _ => workspace
  | .findClass name =>
    match workspace.findClass files name with
    | .ok (_, after) => after
    | .error _ => workspace
  | .searchPaths project extension =>
    match workspace.searchPaths project extension with
    | .ok (_, after) => after
    | .error _ => workspace
  | .clear => workspace.clear

/-- Calls, each with the files as they are when it is made. -/
abbrev History := List (FileSystem × Call)

/-- The workspace after a history that starts with an empty one. -/
def run (settings : Settings) (history : History) : Workspace :=
  history.foldl (fun workspace made => workspace.perform made.1 made.2) { settings }

variable {settings : Settings} {history : History} {workspace after : Workspace}
  {files : FileSystem} {now : Moment} {path key : Path} {solution : Solution} {index : ClassIndex}
  {made : FileSystem × Call}

theorem run_concat (settings : Settings) (history : History) (made : FileSystem × Call) :
    run settings (history ++ [made]) = (run settings history).perform made.1 made.2 := by
  simp [run]

/-- An opening in the history loaded the solution, from a path that names the same file. -/
def LoadedFrom (settings : Settings) (history : History) (path : Path) (solution : Solution) :
    Prop :=
  ∃ before files spelled since,
    history = before ++ (files, .openSolution solution.loadedAt spelled) :: since ∧
    spelled.same path ∧
    Solution.load files settings (run settings before).nextNumber solution.loadedAt spelled =
      .ok solution

/-- A search for a class in the history read the index, from the directories of the solution that
was in use then. -/
def IndexedFrom (settings : Settings) (history : History) (solution : Solution)
    (index : ClassIndex) : Prop :=
  ∃ before files name since,
    history = before ++ (files, .findClass name) :: since ∧
    (run settings before).active = some solution ∧
    index = ClassIndex.build files (solution.classDirectories settings)

theorem LoadedFrom.later (loaded : LoadedFrom settings history path solution)
    (made : FileSystem × Call) : LoadedFrom settings (history ++ [made]) path solution := by
  obtain ⟨before, files, spelled, since, rfl, same, loads⟩ := loaded
  exact ⟨before, files, spelled, since ++ [made], by simp, same, loads⟩

theorem LoadedFrom.same (loaded : LoadedFrom settings history path solution)
    (same : path.same key) : LoadedFrom settings history key solution := by
  obtain ⟨before, files, spelled, since, split, spelledSame, loads⟩ := loaded
  exact ⟨before, files, spelled, since, split, Path.same_trans spelledSame same, loads⟩

theorem IndexedFrom.later (indexed : IndexedFrom settings history solution index)
    (made : FileSystem × Call) : IndexedFrom settings (history ++ [made]) solution index := by
  obtain ⟨before, files, name, since, rfl, active, built⟩ := indexed
  exact ⟨before, files, name, since ++ [made], by simp, active, built⟩

/-! ### What holds after every history -/

/-- The solutions that a workspace holds: the one in use, and those that are kept. -/
def Holds (workspace : Workspace) (solution : Solution) : Prop :=
  workspace.active = some solution ∨ ∃ path, (path, solution) ∈ workspace.loaded

/-- Solutions are told apart by their numbers, and the next number is new. -/
structure Numbered (workspace : Workspace) : Prop where
  below : ∀ solution, workspace.Holds solution → solution.number < workspace.nextNumber
  unique : ∀ solution other, workspace.Holds solution → workspace.Holds other →
    solution.number = other.number → solution = other

/-- What is remembered belongs to the solution in use. -/
structure Remembers (settings : Settings) (history : History) (workspace : Workspace) : Prop where
  found : ∀ entry ∈ workspace.found,
    ∃ solution, workspace.active = some solution ∧ solution.NamedBy entry.2
  classes : ∀ index, workspace.classes = some index →
    ∃ solution, workspace.active = some solution ∧ IndexedFrom settings history solution index

/-- What holds of the workspace after a history. -/
structure Coherent (settings : Settings) (history : History) (workspace : Workspace) : Prop where
  kept : workspace.settings = settings
  numbered : workspace.Numbered
  loaded : ∀ entry ∈ workspace.loaded, LoadedFrom settings history entry.1 entry.2
  remembers : Remembers settings history workspace

theorem Remembers.later (remembers : Remembers settings history workspace)
    (made : FileSystem × Call) : Remembers settings (history ++ [made]) workspace := by
  refine ⟨remembers.found, fun index known => ?_⟩
  obtain ⟨solution, active, indexed⟩ := remembers.classes index known
  exact ⟨solution, active, indexed.later made⟩

theorem Coherent.later (coherent : Coherent settings history workspace)
    (made : FileSystem × Call) : Coherent settings (history ++ [made]) workspace :=
  ⟨coherent.kept, coherent.numbered, fun entry member => (coherent.loaded entry member).later made,
    coherent.remembers.later made⟩

/-- A workspace that holds no other solutions and has no other next number tells them apart too. -/
theorem Numbered.of_holds (numbered : workspace.Numbered)
    (held : ∀ solution, after.Holds solution → workspace.Holds solution)
    (next : after.nextNumber = workspace.nextNumber) : after.Numbered :=
  ⟨fun solution holds => next ▸ numbered.below solution (held solution holds),
    fun solution other holds holdsOther =>
      numbered.unique solution other (held solution holds) (held other holdsOther)⟩

/-- The solution that an opening gives is held already, or has the next number. -/
theorem opened_held_or_new (opened : workspace.openSolution files now path = .ok (solution, after)) :
    workspace.Holds solution ∨ solution.number = workspace.nextNumber := by
  rcases (openSolution_cases opened).2 with ⟨known, -⟩ | loads
  · obtain ⟨key, -, member⟩ := mem_of_loaded? known
    exact .inl (.inr ⟨key, member⟩)
  · exact .inr (Solution.of_load loads).2.1

theorem holds_activate {held : Solution} (holds : (workspace.activate path solution).Holds held) :
    held = solution ∨ workspace.Holds held := by
  rcases holds with active | ⟨key, member⟩
  · exact .inl (Option.some.inj active).symm
  · rcases mem_setLoaded member with old | ⟨-, same⟩
    · exact .inr (.inr ⟨key, old⟩)
    · exact .inl same

theorem Numbered.opened (numbered : workspace.Numbered)
    (opened : workspace.openSolution files now path = .ok (solution, after)) : after.Numbered := by
  have given := opened_held_or_new opened
  obtain ⟨rfl, -⟩ := openSolution_cases opened
  -- A solution held before with the number of the one in use now is the one in use now.
  have agree : ∀ other, workspace.Holds other → other.number = solution.number →
      other = solution := by
    intro other holds same
    rcases given with held | new
    · exact numbered.unique other solution holds held same
    · exact absurd (same.trans new) (Nat.ne_of_lt (numbered.below other holds))
  constructor
  · intro held holds
    change held.number < max workspace.nextNumber (solution.number + 1)
    rcases holds_activate holds with rfl | old
    · exact Nat.lt_of_lt_of_le (Nat.lt_succ_self _) (Nat.le_max_right ..)
    · exact Nat.lt_of_lt_of_le (numbered.below held old) (Nat.le_max_left ..)
  · intro held other holds holdsOther same
    rcases holds_activate holds with rfl | old
    · rcases holds_activate holdsOther with rfl | oldOther
      · rfl
      · exact (agree other oldOther same.symm).symm
    · rcases holds_activate holdsOther with rfl | oldOther
      · exact agree held old same
      · exact numbered.unique held other old oldOther same

/-- An opening either forgets what was found and the classes, or gives the solution that is in
use. -/
theorem Numbered.switches_or_stays (numbered : workspace.Numbered)
    (opened : workspace.openSolution files now path = .ok (solution, after)) :
    (after.found = [] ∧ after.classes = none) ∨
      workspace.active = some solution ∧ after.found = workspace.found ∧
        after.classes = workspace.classes := by
  have given := opened_held_or_new opened
  obtain ⟨rfl, -⟩ := openSolution_cases opened
  cases switches : workspace.active.all (·.number != solution.number) with
  | true => exact .inl (by simp [activate, switches])
  | false =>
    refine .inr ⟨?_, by simp [activate, switches], by simp [activate, switches]⟩
    obtain ⟨old, active, same⟩ : ∃ old, workspace.active = some old ∧
        old.number = solution.number := by
      cases active : workspace.active with
      | none => simp [active] at switches
      | some old => exact ⟨old, rfl, by simpa [active] using switches⟩
    rcases given with held | new
    · rw [active, numbered.unique old solution (.inl active) held same]
    · exact absurd (same.trans new) (Nat.ne_of_lt (numbered.below old (.inl active)))

theorem Coherent.opened (coherent : Coherent settings history (run settings history))
    (opened : (run settings history).openSolution files now path = .ok (solution, after)) :
    Coherent settings (history ++ [(files, .openSolution now path)]) after := by
  have switches := coherent.numbered.switches_or_stays opened
  have numbered := coherent.numbered.opened opened
  obtain ⟨rfl, source⟩ := openSolution_cases opened
  have origin : LoadedFrom settings (history ++ [(files, .openSolution now path)]) path
      solution := by
    rcases source with ⟨known, -⟩ | loads
    · obtain ⟨key, same, member⟩ := mem_of_loaded? known
      exact ((coherent.loaded _ member).later _).same same
    · rw [coherent.kept] at loads
      obtain ⟨-, -, -, rfl, -⟩ := Solution.of_load loads
      exact ⟨history, files, path, [], rfl, Path.same_iff.mpr rfl, loads⟩
  refine ⟨coherent.kept, numbered, fun entry member => ?_, ?_⟩
  · rcases mem_setLoaded member with old | ⟨same, rfl⟩
    · exact (coherent.loaded entry old).later _
    · exact origin.same (Path.same_symm same)
  · rcases switches with ⟨found, classes⟩ | ⟨active, found, classes⟩
    · refine ⟨fun entry member => ?_, fun index known => ?_⟩
      · rw [found] at member
        cases member
      · rw [classes] at known
        cases known
    · have later := coherent.remembers.later (files, .openSolution now path)
      have inUse : ((run settings history).activate path solution).active =
          (run settings history).active := active.symm
      refine ⟨fun entry member => ?_, fun index known => ?_⟩
      · rw [inUse]
        exact later.found entry (found ▸ member)
      · rw [inUse]
        exact later.classes index (classes ▸ known)

theorem find_cases (workspace : Workspace) (files : FileSystem) (name : String) :
    (workspace.find files name).2 = workspace ∨
      ∃ solution found, workspace.active = some solution ∧
        solution.search? files workspace.settings (Text.trim name) = some found ∧
        (workspace.find files name).2 =
          { workspace with found := workspace.found ++ [(lookupKey name, found)] } := by
  unfold find
  dsimp only
  split
  · exact .inl rfl
  · split
    · exact .inl rfl
    · rename_i given
      obtain ⟨solution, active, searched⟩ := Option.bind_eq_some_iff.mp given
      exact .inr ⟨solution, _, active, searched, rfl⟩

theorem Coherent.found (coherent : Coherent settings history workspace) (name : String) :
    Coherent settings (history ++ [(files, .find name)]) (workspace.find files name).2 := by
  have later := coherent.later (files, .find name)
  rcases find_cases workspace files name with same | ⟨solution, found, active, searched, after⟩
  · rwa [same]
  · rw [after]
    refine ⟨later.kept, later.numbered.of_holds (fun _ holds => holds) rfl, later.loaded,
      fun entry member => ?_, later.remembers.classes⟩
    rcases List.mem_append.mp member with old | new
    · exact later.remembers.found entry old
    · rw [List.mem_singleton.mp new]
      exact ⟨solution, active, Solution.search?_named searched⟩

theorem findClass_cases {name : String} {definitions : List ClassDefinition}
    (given : workspace.findClass files name = .ok (definitions, after)) :
    ∃ solution, workspace.active = some solution ∧
      after = { workspace with classes := some (workspace.classes.getD
        (ClassIndex.build files (solution.classDirectories workspace.settings))) } := by
  unfold findClass requireActive at given
  cases active : workspace.active with
  | none =>
    rw [active] at given
    cases given
  | some solution =>
    rw [active] at given
    cases given
    exact ⟨solution, rfl, rfl⟩

theorem Coherent.indexed {name : String} {definitions : List ClassDefinition}
    (coherent : Coherent settings history (run settings history))
    (given : (run settings history).findClass files name = .ok (definitions, after)) :
    Coherent settings (history ++ [(files, .findClass name)]) after := by
  have later := coherent.later (files, .findClass name)
  obtain ⟨solution, active, rfl⟩ := findClass_cases given
  refine ⟨later.kept, later.numbered.of_holds (fun _ holds => holds) rfl, later.loaded,
    later.remembers.found, fun index known => ?_⟩
  cases classes : (run settings history).classes with
  | some old =>
    rw [classes] at known
    cases known
    exact later.remembers.classes old classes
  | none =>
    rw [classes, coherent.kept] at known
    cases known
    exact ⟨solution, active, history, files, name, [], rfl, active, rfl⟩

theorem searchPaths_cases {project : Option String} {extension : String} {paths : List Path}
    (given : workspace.searchPaths project extension = .ok (paths, after)) :
    ∃ searched, after = { workspace with searched } := by
  unfold searchPaths requireActive at given
  cases active : workspace.active with
  | none =>
    rw [active] at given
    cases given
  | some solution =>
    rw [active] at given
    cases given
    exact ⟨_, rfl⟩

/-- Each call keeps what holds after a history. -/
theorem Coherent.step (coherent : Coherent settings history (run settings history))
    (made : FileSystem × Call) :
    Coherent settings (history ++ [made]) ((run settings history).perform made.1 made.2) := by
  obtain ⟨files, call⟩ := made
  cases call with
  | openSolution now path =>
    rw [perform, switchTo_workspace]
    split
    · rename_i opened
      exact coherent.opened opened
    · exact coherent.later _
  | find name => exact coherent.found name
  | findInProject project name => exact coherent.later _
  | findClass name =>
    rw [perform]
    split
    · rename_i given
      exact coherent.indexed given
    · exact coherent.later _
  | searchPaths project extension =>
    have later := coherent.later (files, .searchPaths project extension)
    rw [perform]
    split
    · rename_i given
      obtain ⟨searched, rfl⟩ := searchPaths_cases given
      exact ⟨later.kept, later.numbered.of_holds (fun _ holds => holds) rfl, later.loaded,
        later.remembers.found, later.remembers.classes⟩
    · exact later
  | clear =>
    refine ⟨coherent.kept, coherent.numbered.of_holds ?_ rfl, nofun, nofun, nofun⟩
    rintro solution (active | ⟨key, member⟩)
    · exact .inl active
    · cases member

theorem coherent_run (settings : Settings) (history : History) :
    Coherent settings history (run settings history) := by
  induction history using List.reverseRecOn with
  | nil =>
    have holds_none : ∀ solution, ¬(run settings []).Holds solution := by
      rintro solution (active | ⟨key, member⟩)
      · cases active
      · cases member
    exact ⟨rfl, ⟨fun solution holds => absurd holds (holds_none solution),
      fun solution _ holds => absurd holds (holds_none solution)⟩, nofun, nofun, nofun⟩
  | append_singleton history made ih =>
    rw [run_concat]
    exact ih.step made

/-- An opening fails exactly when no known solution is fresh and none can be loaded. -/
theorem openSolution_fails_iff :
    (∃ why, workspace.openSolution files now path = .error why) ↔
      (∀ known, workspace.loaded? path = some known → ¬known.isFresh files) ∧
        (¬files.has path ∨ ∃ reason, files.read path = .error reason) := by
  have loads_iff : (∃ why, Solution.load files workspace.settings workspace.nextNumber now path =
      .error why) ↔ _ := Solution.load_fails_iff
  rw [← loads_iff, openSolution_eq, obtain]
  cases fresh : (workspace.loaded? path).filter (·.isFresh files) with
  | some known =>
    obtain ⟨cached, isFresh⟩ := Option.filter_eq_some_iff.mp fresh
    refine iff_of_false ?_ fun stale => stale.1 known cached isFresh
    rintro ⟨why, fails⟩
    cases fails
  | none =>
    have stale : ∀ known, workspace.loaded? path = some known → ¬known.isFresh files :=
      Option.filter_eq_none_iff.mp fresh
    cases loads : Solution.load files workspace.settings workspace.nextNumber now path with
    | error why => exact iff_of_true ⟨why, rfl⟩ ⟨stale, why, rfl⟩
    | ok solution =>
      refine iff_of_false ?_ ?_
      · rintro ⟨why, fails⟩
        cases fails
      · rintro ⟨-, why, fails⟩
        cases fails

/-- After every history, nothing is remembered while no solution is in use; each file that was found
names a project of the solution in use, and the classes were read from its directories; each known
solution was loaded from the path it is known for; and an opening that fails, which it does when
nothing fresh is known and nothing can be loaded, changes nothing. -/
theorem memory_belongs_to_the_solution_in_use (settings : Settings) (history : History) :
    ((run settings history).active = none →
      (run settings history).found = [] ∧ (run settings history).classes = none) ∧
    (∀ entry ∈ (run settings history).found, ∃ solution,
      (run settings history).active = some solution ∧ solution.NamedBy entry.2) ∧
    (∀ index, (run settings history).classes = some index → ∃ solution,
      (run settings history).active = some solution ∧
        IndexedFrom settings history solution index) ∧
    (∀ entry ∈ (run settings history).loaded, LoadedFrom settings history entry.1 entry.2) ∧
    ∀ files now path,
      ((∃ why, (run settings history).openSolution files now path = .error why) ↔
        (∀ known, (run settings history).loaded? path = some known → ¬known.isFresh files) ∧
          (¬files.has path ∨ ∃ reason, files.read path = .error reason)) ∧
      ((∃ why, (run settings history).openSolution files now path = .error why) →
        run settings (history ++ [(files, .openSolution now path)]) = run settings history) := by
  have coherent := coherent_run settings history
  refine ⟨fun idle => ⟨?_, ?_⟩, coherent.remembers.found, coherent.remembers.classes,
    coherent.loaded, ?_⟩
  · refine List.eq_nil_iff_forall_not_mem.mpr fun entry member => ?_
    obtain ⟨solution, active, -⟩ := coherent.remembers.found entry member
    cases idle.symm.trans active
  · refine Option.eq_none_iff_forall_ne_some.mpr fun index known => ?_
    obtain ⟨solution, active, -⟩ := coherent.remembers.classes index known
    cases idle.symm.trans active
  · refine fun files now path => ⟨openSolution_fails_iff, ?_⟩
    rintro ⟨why, fails⟩
    rw [run_concat, perform, switchTo_workspace, fails]

end Workspace
end Clarion
