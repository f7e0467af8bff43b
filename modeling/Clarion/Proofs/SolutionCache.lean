import Clarion.Workspace
import Mathlib.Data.List.Induction

/-! Loaded solutions through a history of writes, removals and openings. A solution that is known
for a path was loaded by one opening of the history, and is given again exactly as long as no file
that it watches is out of date: the solution file, and the files of those projects that could be
loaded then. A project that could not be loaded is named by the solution file and not watched, so
its repair goes unnoticed. -/
namespace Clarion

/-! ### Files through writes and removals -/

namespace Path

variable {left right : Path}

theorem same_iff : left.same right ↔ left.parts = right.parts :=
  beq_iff_eq

theorem same_symm (same : left.same right) : right.same left :=
  same_iff.mpr (same_iff.mp same).symm

theorem same_trans {middle : Path} (first : left.same middle) (second : middle.same right) :
    left.same right :=
  same_iff.mpr ((same_iff.mp first).trans (same_iff.mp second))

end Path

namespace Files

variable {files : Files} {path other : Path}

theorem get?_same (same : path.same other) : files.get? path = files.get? other := by
  simp only [get?, Path.same, Path.same_iff.mp same]

theorem get?_named {file : File} (found : files.get? path = some file) : file.path.same path := by
  have named := List.find?_some found
  exact named

/-- A file that another path names is not named by this one. -/
theorem apart {file : File} (different : ¬path.same other) (here : file.path.same other) :
    file.path.same path = false := by
  by_contra same
  exact different (Path.same_trans (Path.same_symm (by simpa using same)) here)

theorem get?_map {change : File → File} (keeps : ∀ file, (change file).path = file.path)
    (files : Files) (path : Path) : get? (files.map change) path = (files.get? path).map change := by
  simp only [get?, List.find?_map]
  congr 2
  funext file
  simp [keeps]

theorem modified?_write (files : Files) (path : Path) (content : Content) (modified : Nat)
    (other : Path) :
    (files.write path content modified).fileSystem.modified? other =
      if path.same other then some modified else files.fileSystem.modified? other := by
  simp only [fileSystem, write]
  split
  · rename_i known
    rw [get?_map (fun file => by split <;> rfl), Option.map_map]
    split
    · rename_i same
      rw [get?_same same] at known
      obtain ⟨file, here⟩ := Option.isSome_iff_exists.mp known
      have named : file.path.same path :=
        Path.same_trans (get?_named here) (Path.same_symm same)
      simp [here, named]
    · rename_i different
      refine Option.map_congr fun file here => ?_
      simp [apart different (get?_named here)]
  · rename_i unknown
    have unknown : files.get? path = none := by simpa using unknown
    simp only [get?, List.find?_append, List.find?_cons, List.find?_nil]
    split
    · rename_i same
      rw [get?_same same] at unknown
      simp only [get?] at unknown
      simp [unknown, same]
    · rename_i different
      simp [different]

theorem modified?_remove (files : Files) (path other : Path) :
    (files.remove path).fileSystem.modified? other =
      if path.same other then none else files.fileSystem.modified? other := by
  simp only [fileSystem, get?, remove, List.find?_filter]
  split
  · rename_i same
    rw [Option.map_eq_none_iff, List.find?_eq_none]
    intro file _
    simp [Path.same, Path.same_iff.mp same]
  · rename_i different
    congr 2
    funext file
    cases here : file.path.same other with
    | false => simp
    | true => simp [apart different here]

end Files

/-! ### Histories -/

/-- A workspace and the files it works on. -/
structure Session where
  files : Files
  workspace : Workspace

/-- What happens to the files and to the workspace. -/
inductive Event where
  | write (path : Path) (content : Content) (modified : Nat)
  | remove (path : Path)
  | openSolution (now : Moment) (path : Path)
  | clear

namespace Session

/-- The session after an event. -/
def step (session : Session) : Event → Session
  | .write path content modified =>
    { session with files := session.files.write path content modified }
  | .remove path => { session with files := session.files.remove path }
  | .openSolution now path =>
    let opening := Workspace.switchTo session.files.fileSystem now path
    { session with workspace := (opening.run.run session.workspace).2 }
  | .clear => { session with workspace := session.workspace.clear }

/-- The session after a history that starts with some files and an empty workspace. -/
def run (settings : Settings) (start : Files) (events : List Event) : Session :=
  events.foldl step ⟨start, { settings }⟩

/-- Opening a path gives the solution. -/
def Gives (session : Session) (now : Moment) (path : Path) (solution : Solution) : Prop :=
  ∃ workspace, session.workspace.openSolution session.files.fileSystem now path =
    .ok (solution, workspace)

end Session

/-- What an event makes of the modification time of a file: a time, or that there is none. -/
def Event.touch? (path : Path) : Event → Option (Option Nat)
  | .write written _ modified => if written.same path then some (some modified) else none
  | .remove removed => if removed.same path then some none else none
  | _ => none

/-- What the last event that touches a file makes of its modification time. -/
def lastTouch? (path : Path) (events : List Event) : Option (Option Nat) :=
  events.reverse.findSome? (Event.touch? path)

namespace Session

variable {session : Session} {settings : Settings} {start : Files} {events : List Event}
  {path : Path}

theorem step_modified (session : Session) (event : Event) (path : Path) :
    (session.step event).files.fileSystem.modified? path =
      (event.touch? path).getD (session.files.fileSystem.modified? path) := by
  cases event with
  | write written content modified =>
    rw [step, Files.modified?_write, Event.touch?]
    split <;> rfl
  | remove removed =>
    rw [step, Files.modified?_remove, Event.touch?]
    split <;> rfl
  | openSolution now opened => rfl
  | clear => rfl

/-- The modification time of a file is that of its last change. -/
theorem steps_modified (session : Session) (events : List Event) (path : Path) :
    (events.foldl step session).files.fileSystem.modified? path =
      (lastTouch? path events).getD (session.files.fileSystem.modified? path) := by
  induction events using List.reverseRecOn with
  | nil => rfl
  | append_singleton events event ih =>
    rw [List.foldl_append, List.foldl_cons, List.foldl_nil, step_modified, ih]
    simp only [lastTouch?, List.reverse_append, List.reverse_singleton, List.singleton_append,
      List.findSome?_cons]
    cases event.touch? path <;> rfl

end Session

/-! ### Loading -/

/-- A project that is loaded stands at the path it is loaded from. -/
theorem Project.of_load {files : FileSystem} {settings : Settings} {path : Path}
    {knownAs : Option String} {project : Project}
    (loads : Project.load files settings path knownAs = .ok project) :
    files.has path ∧ project.path = path ∧
      project.entries = Redirection.ofDirectory files settings project.directory := by
  unfold Project.load at loads
  split at loads
  · cases loads
  · rename_i has
    dsimp only at loads
    cases read : files.read path with
    | error why =>
      rw [read] at loads
      cases loads
    | ok content =>
      rw [read] at loads
      cases parsed : ProjectFile.parse content with
      | error why =>
        simp only [Except.mapError, parsed, bind, Except.bind] at loads
        cases loads
      | ok file =>
        simp only [Except.mapError, parsed, bind, Except.bind] at loads
        cases loads
        exact ⟨by simpa using has, rfl, rfl⟩

namespace Solution

variable {files : FileSystem} {settings : Settings} {number : Nat} {now : Moment}
  {path origin : Path} {solution : Solution}

/-- A loaded solution has the projects of its solution file that could be loaded. -/
theorem of_load (loads : load files settings number now path = .ok solution) :
    files.has path ∧ solution.number = number ∧ solution.path = path ∧ solution.loadedAt = now ∧
    ∃ content, files.read path = .ok content ∧
      solution.projects = (SolutionFile.parse content path).filterMap fun entry =>
        (Project.load files settings entry.path (some entry.name)).toOption := by
  unfold load at loads
  split at loads
  · cases loads
  · rename_i has
    dsimp only at loads
    cases read : files.read path with
    | error why =>
      rw [read] at loads
      cases loads
    | ok content =>
      rw [read] at loads
      cases loads
      exact ⟨by simpa using has, rfl, rfl, rfl, content, rfl, rfl⟩

/-- The files that a solution is made of: the solution file, and the project files it names. -/
inductive Names (files : FileSystem) (path : Path) : Path → Prop where
  | own : Names files path path
  | project {content : String} {entry : SolutionEntry} (read : files.read path = .ok content)
    (listed : entry ∈ SolutionFile.parse content path) : Names files path entry.path

/-- The files that a loaded solution watches: the solution file, and the project files it names that
could be loaded. -/
inductive Watches (files : FileSystem) (settings : Settings) (path : Path) : Path → Prop where
  | own : Watches files settings path path
  | project {content : String} {entry : SolutionEntry} {project : Project}
    (read : files.read path = .ok content) (listed : entry ∈ SolutionFile.parse content path)
    (loads : Project.load files settings entry.path (some entry.name) = .ok project) :
    Watches files settings path entry.path

theorem mem_origins (loads : load files settings number now path = .ok solution) :
    origin ∈ solution.origins ↔ Watches files settings path origin := by
  obtain ⟨-, -, own, -, content, read, projects⟩ := of_load loads
  rw [origins, own, projects, List.mem_cons]
  constructor
  · rintro (rfl | member)
    · exact .own
    · obtain ⟨project, listed, rfl⟩ := List.mem_map.mp member
      obtain ⟨entry, named, loaded⟩ := List.mem_filterMap.mp listed
      cases given : Project.load files settings entry.path (some entry.name) with
      | error why =>
        rw [given] at loaded
        cases loaded
      | ok project =>
        rw [given] at loaded
        cases loaded
        rw [(Project.of_load given).2.1]
        exact .project read named given
  · intro watches
    cases watches with
    | own => exact .inl rfl
    | @project _ entry project readAgain named loaded =>
      cases readAgain.symm.trans read
      refine .inr (List.mem_map.mpr ⟨project, List.mem_filterMap.mpr ⟨entry, named, ?_⟩, ?_⟩)
      · rw [loaded]
        rfl
      · exact (Project.of_load loaded).2.1

/-- Every file that a loaded solution watches was there. -/
theorem Watches.has (watches : Watches files settings path origin)
    (loads : load files settings number now path = .ok solution) : files.has origin := by
  cases watches with
  | own => exact (of_load loads).1
  | project read listed loads => exact (Project.of_load loads).1

end Solution

/-! ### Known solutions -/

namespace Workspace

variable {workspace after : Workspace} {files : FileSystem} {now : Moment} {path : Path}
  {solution : Solution}

theorem mem_of_loaded? (known : workspace.loaded? path = some solution) :
    ∃ key, key.same path ∧ (key, solution) ∈ workspace.loaded := by
  obtain ⟨entry, found, rfl⟩ := Option.map_eq_some_iff.mp known
  have same := List.find?_some found
  exact ⟨entry.1, same, List.mem_of_find?_eq_some found⟩

theorem mem_setLoaded {loaded : List (Path × Solution)} {entry : Path × Solution}
    (member : entry ∈ setLoaded loaded path solution) :
    entry ∈ loaded ∨ entry.1.same path ∧ entry.2 = solution := by
  unfold setLoaded at member
  split at member
  · obtain ⟨old, listed, rfl⟩ := List.mem_map.mp member
    split
    · rename_i same
      exact .inr ⟨same, rfl⟩
    · exact .inl listed
  · rcases List.mem_append.mp member with old | new
    · exact .inl old
    · rw [List.mem_singleton.mp new]
      exact .inr ⟨Path.same_iff.mpr rfl, rfl⟩

/-- A solution is put in use once it is obtained, and nothing is done before that. -/
theorem switchTo_run (workspace : Workspace) (files : FileSystem) (now : Moment) (path : Path) :
    (switchTo files now path).run.run workspace =
      match workspace.obtain files now path with
      | .ok solution => (.ok solution, workspace.activate path solution)
      | .error failure => (.error failure, workspace) := by
  have begins : (switchTo files now path).run.run workspace =
      (do
        let solution ← ofExcept (workspace.obtain files now path)
        modify (·.activate path solution)
        return solution : ExceptT Failure (StateM Workspace) Solution).run.run workspace := rfl
  rw [begins]
  cases workspace.obtain files now path <;> rfl

theorem openSolution_eq (workspace : Workspace) (files : FileSystem) (now : Moment) (path : Path) :
    workspace.openSolution files now path = (workspace.obtain files now path).map fun solution =>
      (solution, workspace.activate path solution) := by
  rw [openSolution, switchTo_run]
  cases workspace.obtain files now path <;> rfl

/-- The workspace after an opening is the one that it gives, or the one before where it fails. -/
theorem switchTo_workspace (workspace : Workspace) (files : FileSystem) (now : Moment)
    (path : Path) : ((switchTo files now path).run.run workspace).2 =
      match workspace.openSolution files now path with
      | .ok (_, after) => after
      | .error _ => workspace := by
  rw [openSolution_eq, switchTo_run]
  cases workspace.obtain files now path <;> rfl

/-- An opening that succeeds gives the known solution while it is fresh, or else loads one. -/
theorem openSolution_cases
    (opened : workspace.openSolution files now path = .ok (solution, after)) :
    after = workspace.activate path solution ∧
      (workspace.loaded? path = some solution ∧ solution.isFresh files ∨
        Solution.load files workspace.settings workspace.nextNumber now path = .ok solution) := by
  rw [openSolution_eq] at opened
  cases obtained : workspace.obtain files now path with
  | error why =>
    rw [obtained] at opened
    cases opened
  | ok given =>
    rw [obtained] at opened
    cases opened
    refine ⟨rfl, ?_⟩
    unfold obtain at obtained
    split at obtained
    · rename_i cached
      cases obtained
      exact .inl (Option.filter_eq_some_iff.mp cached)
    · exact .inr obtained

end Workspace

namespace Session

variable {settings : Settings} {start : Files} {events before since : List Event} {now : Moment}
  {path key : Path} {solution known : Solution}

theorem run_concat (settings : Settings) (start : Files) (events : List Event) (event : Event) :
    run settings start (events ++ [event]) = (run settings start events).step event := by
  simp [run]

/-- Opening the path after the first events loads the solution: it is given, and it is new. -/
def Loads (settings : Settings) (start : Files) (before : List Event) (path : Path)
    (solution : Solution) : Prop :=
  (run settings start before).Gives solution.loadedAt path solution ∧
    solution.number = (run settings start before).workspace.nextNumber

/-- Some opening of the history loaded the solution for a path. -/
def LoadedIn (settings : Settings) (start : Files) (events : List Event) (path : Path)
    (solution : Solution) : Prop :=
  ∃ before since spelled, events = before ++ .openSolution solution.loadedAt spelled :: since ∧
    spelled.same path ∧ Loads settings start before spelled solution

theorem LoadedIn.later (loaded : LoadedIn settings start events path solution) (event : Event) :
    LoadedIn settings start (events ++ [event]) path solution := by
  obtain ⟨before, since, spelled, rfl, same, loads⟩ := loaded
  exact ⟨before, since ++ [event], spelled, by simp, same, loads⟩

theorem LoadedIn.same (loaded : LoadedIn settings start events path solution)
    (same : path.same key) : LoadedIn settings start events key solution := by
  obtain ⟨before, since, spelled, split, spelledSame, loads⟩ := loaded
  exact ⟨before, since, spelled, split, Path.same_trans spelledSame same, loads⟩

/-- What holds of the solutions that are known after a history: each was loaded by one of its
openings, and has a number below that of the next one. -/
structure Remembers (settings : Settings) (start : Files) (events : List Event)
    (workspace : Workspace) : Prop where
  kept : workspace.settings = settings
  loaded : ∀ entry ∈ workspace.loaded, LoadedIn settings start events entry.1 entry.2
  numbers : ∀ entry ∈ workspace.loaded, entry.2.number < workspace.nextNumber

theorem Remembers.later {workspace : Workspace}
    (remembers : Remembers settings start events workspace) (event : Event) :
    Remembers settings start (events ++ [event]) workspace :=
  ⟨remembers.kept, fun entry member => (remembers.loaded entry member).later event,
    remembers.numbers⟩

theorem Remembers.opened {after : Workspace}
    (remembers : Remembers settings start events (run settings start events).workspace)
    (opened : (run settings start events).workspace.openSolution
      (run settings start events).files.fileSystem now path = .ok (solution, after)) :
    Remembers settings start (events ++ [.openSolution now path]) after := by
  obtain ⟨rfl, source⟩ := Workspace.openSolution_cases opened
  have origin : LoadedIn settings start (events ++ [.openSolution now path]) path solution := by
    -- A solution that is given again was loaded by an earlier opening, perhaps of another spelling.
    rcases source with ⟨known, -⟩ | loads
    · obtain ⟨key, same, member⟩ := Workspace.mem_of_loaded? known
      exact ((remembers.loaded _ member).later _).same same
    · obtain ⟨-, new, -, rfl, -⟩ := Solution.of_load loads
      exact ⟨events, [], path, rfl, Path.same_iff.mpr rfl, ⟨_, opened⟩, new⟩
  refine ⟨remembers.kept, fun entry member => ?_, fun entry member => ?_⟩
  · rcases Workspace.mem_setLoaded member with old | ⟨same, rfl⟩
    · exact (remembers.loaded entry old).later _
    · exact origin.same (Path.same_symm same)
  · rcases Workspace.mem_setLoaded member with old | ⟨-, rfl⟩
    · exact Nat.lt_of_lt_of_le (remembers.numbers entry old) (Nat.le_max_left ..)
    · exact Nat.lt_of_lt_of_le (Nat.lt_succ_self _) (Nat.le_max_right ..)

theorem remembers_run (settings : Settings) (start : Files) (events : List Event) :
    Remembers settings start events (run settings start events).workspace := by
  induction events using List.reverseRecOn with
  | nil => exact ⟨rfl, nofun, nofun⟩
  | append_singleton events event ih =>
    rw [run_concat]
    cases event with
    | write written content modified => exact ih.later _
    | remove removed => exact ih.later _
    | openSolution now path =>
      rw [step, Workspace.switchTo_workspace]
      split
      · rename_i opened
        exact ih.opened opened
      · exact ih.later _
    | clear => exact ⟨ih.kept, nofun, nofun⟩

theorem Loads.load (loads : Loads settings start before path solution) :
    Solution.load (run settings start before).files.fileSystem settings
      (run settings start before).workspace.nextNumber solution.loadedAt path = .ok solution := by
  have remembers := remembers_run settings start before
  obtain ⟨⟨_, opened⟩, new⟩ := loads
  rcases (Workspace.openSolution_cases opened).2 with ⟨known, -⟩ | loads
  · obtain ⟨key, -, member⟩ := Workspace.mem_of_loaded? known
    exact absurd new (Nat.ne_of_lt (remembers.numbers _ member))
  · rwa [remembers.kept] at loads

/-- A known solution is given again exactly while it is fresh: one that is loaded anew has another
number. -/
theorem gives_known_iff (cached : (run settings start events).workspace.loaded? path = some known) :
    (run settings start events).Gives now path known ↔
      known.isFresh (run settings start events).files.fileSystem := by
  have remembers := remembers_run settings start events
  constructor
  · rintro ⟨after, opened⟩
    rcases (Workspace.openSolution_cases opened).2 with ⟨-, fresh⟩ | loads
    · exact fresh
    · obtain ⟨key, -, member⟩ := Workspace.mem_of_loaded? cached
      have number := (Solution.of_load loads).2.1
      exact absurd number (Nat.ne_of_lt (remembers.numbers _ member))
  · intro fresh
    refine ⟨(run settings start events).workspace.activate path known, ?_⟩
    simp only [Workspace.openSolution_eq, Workspace.obtain, cached, Option.filter_some, fresh]
    rfl

/-! ### Files out of date -/

/-- The file was last removed, or last written with a time after the moment; or nothing touched it,
and it had such a time from the start. -/
def Outdated (files : Files) (since : List Event) (moment : Moment) (path : Path) : Prop :=
  match lastTouch? path since with
  | some (some modified) => moment.ticks < modified
  | some none => True
  | none => ∃ modified, files.fileSystem.modified? path = some modified ∧ moment.ticks < modified

theorem outdated_iff {files : Files} {moment : Moment} (has : files.fileSystem.has path) :
    Outdated files since moment path ↔ ¬((lastTouch? path since).getD
      (files.fileSystem.modified? path)).any (· ≤ moment.ticks) := by
  unfold Outdated
  split
  · rename_i modified touched
    simp [touched]
  · rename_i touched
    simp [touched]
  · rename_i untouched
    obtain ⟨file, found⟩ := Option.isSome_iff_exists.mp has
    simp [untouched, Files.fileSystem, found]

/-- A solution that is known for a path was loaded by an opening of the history, and the next
opening does not give it again exactly when a file that it watches is out of date since. -/
theorem known_solution_renewed_iff
    (cached : (run settings start events).workspace.loaded? path = some known) (now : Moment) :
    ∃ before since spelled,
      events = before ++ .openSolution known.loadedAt spelled :: since ∧ spelled.same path ∧
      Loads settings start before spelled known ∧
      (¬(run settings start events).Gives now path known ↔ ∃ origin,
        Solution.Watches (run settings start before).files.fileSystem settings spelled origin ∧
          Outdated (run settings start before).files since known.loadedAt origin) := by
  obtain ⟨key, same, member⟩ := Workspace.mem_of_loaded? cached
  obtain ⟨before, since, spelled, split, spelledSame, loads⟩ :=
    (remembers_run settings start events).loaded _ member
  refine ⟨before, since, spelled, split, Path.same_trans spelledSame same, loads, ?_⟩
  -- Opening a solution touches no file, so the times are those of the load, changed by what follows.
  have times (origin : Path) : (run settings start events).files.fileSystem.modified? origin =
      (lastTouch? origin since).getD
        ((run settings start before).files.fileSystem.modified? origin) := by
    rw [split, run, List.foldl_append, List.foldl_cons, steps_modified, step_modified]
    rfl
  rw [gives_known_iff cached, Solution.isFresh, List.all_eq_true]
  simp only [not_forall, exists_prop, times]
  refine exists_congr fun origin => ?_
  rw [Solution.mem_origins loads.load]
  exact and_congr_right fun watches => (outdated_iff (watches.has loads.load)).symm

/-! ### A project that is left out -/

def solutionFile : Path := ⟨"/App.sln"⟩

def projectFile : Path := ⟨"/Lib.cwproj"⟩

/-- The text of a solution file that names one project. -/
def solutionText : String :=
  "Project(\"\") = \"Lib\", \"Lib.cwproj\", \"\""

/-- The solution file, and the file of its project with the given text. -/
def filesWith (project : String) : Files :=
  [⟨solutionFile, .bytes (Text.encode solutionText), 1000⟩,
    ⟨projectFile, .bytes (Text.encode project), 1000⟩]

/-- The solution is opened, and then its project file is written. -/
def openThenWrite : List Event :=
  [.openSolution ⟨2000, ""⟩ solutionFile,
    .write projectFile (.bytes (Text.encode "<Project/>")) 3000]

theorem rewritten_project_is_noticed : ∃ known before since spelled,
    let start := filesWith "<Project/>"
    (run {} start openThenWrite).workspace.loaded? solutionFile = some known ∧
      ¬(run {} start openThenWrite).Gives ⟨4000, ""⟩ solutionFile known ∧
      Loads {} start before spelled known ∧
      ∃ origin, Solution.Watches (run {} start before).files.fileSystem {} spelled origin ∧
        Outdated (run {} start before).files since known.loadedAt origin := by
  generalize given : filesWith "<Project/>" = start
  have present : ((run {} start openThenWrite).workspace.loaded? solutionFile).any fun known =>
      !known.isFresh (run {} start openThenWrite).files.fileSystem := by
    subst given
    decide +kernel
  obtain ⟨known, cached, stale⟩ := (Option.any_eq_true ..).mp present
  have renewed : ¬(run {} start openThenWrite).Gives ⟨4000, ""⟩ solutionFile known := by
    rw [gives_known_iff cached]
    simpa using stale
  obtain ⟨before, since, spelled, -, -, loads, exactly⟩ :=
    known_solution_renewed_iff cached ⟨4000, ""⟩
  exact ⟨known, before, since, spelled, cached, renewed, loads, exactly.mp renewed⟩

/-- The file was written with a time after the moment, or it was there and was removed. -/
def Changed (files : Files) (since : List Event) (moment : Moment) (path : Path) : Prop :=
  (∃ written content modified, .write written content modified ∈ since ∧ written.same path ∧
    moment.ticks < modified) ∨
  files.fileSystem.has path ∧ ∃ removed, .remove removed ∈ since ∧ removed.same path

/-- The next opening of a path does not give the known solution again once a file that the solution
is made of has changed. -/
def NoticesChanges (settings : Settings) (start : Files) (events : List Event) (now : Moment)
    (path : Path) : Prop :=
  ∀ known before since spelled origin,
    (run settings start events).workspace.loaded? path = some known →
    events = before ++ .openSolution known.loadedAt spelled :: since → spelled.same path →
    Loads settings start before spelled known →
    Solution.Names (run settings start before).files.fileSystem spelled origin →
    Changed (run settings start before).files since known.loadedAt origin →
    ¬(run settings start events).Gives now path known

theorem repaired_project_goes_unnoticed :
    ¬NoticesChanges {} (filesWith "<Project") openThenWrite ⟨4000, ""⟩ solutionFile := by
  let known : Solution := ⟨0, solutionFile, "App", [], ⟨2000, ""⟩⟩
  have cached : (run {} (filesWith "<Project") openThenWrite).workspace.loaded? solutionFile =
      some known := by
    decide +kernel
  have opened : Workspace.openSolution {} (filesWith "<Project").fileSystem ⟨2000, ""⟩
      solutionFile = .ok (known, Workspace.activate {} solutionFile known) := by
    decide +kernel
  have loads : Loads {} (filesWith "<Project") [] solutionFile known := ⟨⟨_, opened⟩, rfl⟩
  have read : (run {} (filesWith "<Project") []).files.fileSystem.read solutionFile =
      .ok solutionText := by
    decide +kernel
  have reused : (run {} (filesWith "<Project") openThenWrite).Gives ⟨4000, ""⟩ solutionFile known :=
    (gives_known_iff cached).mpr (by decide +kernel)
  have named : Solution.Names (run {} (filesWith "<Project") []).files.fileSystem solutionFile
      projectFile := by
    have listed : (SolutionFile.parse solutionText solutionFile).map SolutionEntry.path =
        [projectFile] := by
      decide +kernel
    obtain ⟨entry, member, same⟩ := List.mem_map.mp (listed ▸ List.mem_singleton_self projectFile)
    exact same ▸ .project read member
  have changed : Changed (run {} (filesWith "<Project") []).files openThenWrite.tail ⟨2000, ""⟩
      projectFile :=
    .inl ⟨projectFile, _, 3000, List.mem_singleton_self _, Path.same_iff.mpr rfl, by decide⟩
  intro notices
  exact notices known [] openThenWrite.tail solutionFile projectFile cached rfl
    (Path.same_iff.mpr rfl) loads named changed reused

end Session
end Clarion
