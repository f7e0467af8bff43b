import Clarion.Discovery
import Clarion.Proofs.PathNormalization
import Clarion.Proofs.TidyDisk

/-! What a scan for solutions finds. A file that a walk comes to is told by its route, the names from
the root of the walk down to it. The routes of a walk go up in the order of lists, which is the order
from top to bottom where entries are sorted by name; they are the routes that reach a file, are not
too long and have no name that is passed over. Without a limit a scan gives the solutions among these
files. With a limit it gives the first of them, up to the limit, but one even where the limit is
none. -/
namespace Clarion.Discovery

/-- The path that a route leads to. -/
def along (root : Path) (route : List String) : Path :=
  route.foldl (fun path name => path.join ⟨name⟩) root

/-- From the folder at `place`, which a walk comes to as `path` and in the folders of `chain`, the
route leads to a file. -/
inductive Reaches (disk : Disk) (options : Options) : List Place → Path → Place → List String → Prop
  | file {chain : List Place} {path : Path} {place : Place} {name : String} {node : Node}
    (entry : disk.root.get? (place ++ [name]) = some node)
    (isFile : entryAt disk options chain (path.join ⟨name⟩) (place ++ [name]) node = .file) :
    Reaches disk options chain path place [name]
  | inside {chain : List Place} {path : Path} {place target : Place} {name : String} {node : Node}
    {route : List String} (entry : disk.root.get? (place ++ [name]) = some node)
    (isFolder : entryAt disk options chain (path.join ⟨name⟩) (place ++ [name]) node =
      .folder target)
    (rest : Reaches disk options (target :: chain) (path.join ⟨name⟩) target route) :
    Reaches disk options chain path place (name :: route)

/-- No name of the route is passed over. -/
def Shown (options : Options) (route : List String) : Prop :=
  options.skipHidden → ∀ name ∈ route, isHidden name = false

variable {disk : Disk} {options : Options} {chain : List Place} {path root : Path} {place : Place}
  {name : String} {route : List String} {node : Node}

theorem shown_cons : Shown options (name :: route) ↔
    (options.skipHidden → isHidden name = false) ∧ Shown options route := by
  simp only [Shown, List.forall_mem_cons, imp_and]

/-! ### The entries of a folder -/

theorem mem_shownEntries (tidy : disk.root.Tidy) :
    (name, node) ∈ shownEntries disk options place ↔
      disk.root.get? (place ++ [name]) = some node ∧ (options.skipHidden → isHidden name = false) := by
  rw [shownEntries, List.mem_filter, Node.get?_append]
  refine and_congr ?_ (by cases options.skipHidden <;> simp)
  cases found : disk.root.get? place with
  | none => simp
  | some folder =>
    rw [Option.map_some, Option.getD_some, Option.bind_some]
    exact Node.mem_entries (Node.tidy_of_get? tidy found)

theorem shownEntries_ascend (tidy : disk.root.Tidy) :
    (shownEntries disk options place).Pairwise fun left right => left.1 < right.1 := by
  refine List.Pairwise.filter _ ?_
  cases found : disk.root.get? place with
  | none => exact .nil
  | some folder => exact Node.entries_ascend (Node.tidy_of_get? tidy found)

/-! ### The routes of a walk -/

/-- The routes that start at an entry; `below` gives those that start inside a folder. -/
def Entry.routes (name : String) (below : Place → List (List String)) : Entry → List (List String)
  | .file => [[name]]
  | .folder target => (below target).map (name :: ·)
  | .other => []

theorem Entry.exists_of_mem_routes {entry : Entry} {below : Place → List (List String)}
    (listed : route ∈ entry.routes name below) : ∃ rest, route = name :: rest := by
  cases entry with
  | file => exact ⟨[], List.mem_singleton.mp listed⟩
  | folder target =>
    obtain ⟨rest, -, same⟩ := List.mem_map.mp listed
    exact ⟨rest, same.symm⟩
  | other => cases listed

/-- The routes of the files below a folder, in the order of the walk. -/
def routesBelow (disk : Disk) (options : Options) :
    Nat → List Place → Path → Place → List (List String)
  | 0, _, _, _ => []
  | levels + 1, chain, path, place =>
    (shownEntries disk options place).flatMap fun (name, node) =>
      (entryAt disk options chain (path.join ⟨name⟩) (place ++ [name]) node).routes name fun target =>
        routesBelow disk options levels (target :: chain) (path.join ⟨name⟩) target

theorem filesBelow_eq (levels : Nat) (chain : List Place) (path : Path) (place : Place) :
    filesBelow disk options levels chain path place =
      (routesBelow disk options levels chain path place).map (along path) := by
  induction levels generalizing chain path place with
  | zero => rfl
  | succ levels ih =>
    rw [filesBelow, routesBelow, List.map_flatMap]
    refine List.flatMap_congr fun entry _ => ?_
    dsimp only
    cases entryAt disk options chain (path.join ⟨entry.1⟩) (place ++ [entry.1]) entry.2 with
    | file => rfl
    | folder target =>
      dsimp only [Entry.routes]
      rw [ih, List.map_map]
      rfl
    | other => rfl

theorem mem_routesBelow (tidy : disk.root.Tidy) (levels : Nat) (chain : List Place) (path : Path)
    (place : Place) (route : List String) :
    route ∈ routesBelow disk options levels chain path place ↔
      Reaches disk options chain path place route ∧ route.length ≤ levels ∧ Shown options route := by
  -- The first name of a route is that of an entry here; the rest is a route from where the entry
  -- leads, of one level less.
  induction levels generalizing chain path place route with
  | zero =>
    refine iff_of_false List.not_mem_nil fun ⟨reaches, short, _⟩ => ?_
    cases reaches <;> exact Nat.not_succ_le_zero _ short
  | succ levels ih =>
    rw [routesBelow, List.mem_flatMap]
    constructor
    · rintro ⟨⟨name, node⟩, member, listed⟩
      obtain ⟨entry, shown⟩ := (mem_shownEntries tidy).mp member
      dsimp only at listed
      cases stands : entryAt disk options chain (path.join ⟨name⟩) (place ++ [name]) node with
      | file =>
        rw [stands] at listed
        cases List.mem_singleton.mp listed
        exact ⟨.file entry stands, Nat.le_add_left 1 levels, shown_cons.mpr ⟨shown, by simp [Shown]⟩⟩
      | folder target =>
        rw [stands] at listed
        obtain ⟨deeper, inside, rfl⟩ := List.mem_map.mp listed
        obtain ⟨reaches, short, shownBelow⟩ := (ih _ _ _ _).mp inside
        exact ⟨.inside entry stands reaches, Nat.succ_le_succ short,
          shown_cons.mpr ⟨shown, shownBelow⟩⟩
      | other =>
        rw [stands] at listed
        cases listed
    · rintro ⟨reaches, short, shown⟩
      cases reaches with
      | file entry isFile =>
        refine ⟨_, (mem_shownEntries tidy).mpr ⟨entry, (shown_cons.mp shown).1⟩, ?_⟩
        dsimp only
        rw [isFile]
        exact List.mem_singleton.mpr rfl
      | inside entry isFolder rest =>
        obtain ⟨shown, shownBelow⟩ := shown_cons.mp shown
        refine ⟨_, (mem_shownEntries tidy).mpr ⟨entry, shown⟩, ?_⟩
        dsimp only
        rw [isFolder]
        exact List.mem_map_of_mem ((ih _ _ _ _).mpr ⟨rest, Nat.le_of_succ_le_succ short, shownBelow⟩)

theorem routesBelow_ascend (tidy : disk.root.Tidy) (levels : Nat) (chain : List Place) (path : Path)
    (place : Place) : (routesBelow disk options levels chain path place).Pairwise (· < ·) := by
  induction levels generalizing chain path place with
  | zero => exact .nil
  | succ levels ih =>
    rw [routesBelow, List.pairwise_flatMap]
    -- Routes through one entry differ below it, routes through two entries in their first names.
    refine ⟨fun entry _ => ?_, (shownEntries_ascend tidy).imp ?_⟩
    · dsimp only
      cases entryAt disk options chain (path.join ⟨entry.1⟩) (place ++ [entry.1]) entry.2 with
      | file => exact List.pairwise_singleton _ _
      | folder target =>
        refine List.pairwise_map.mpr ((ih _ _ _).imp fun before => ?_)
        exact List.cons_lt_cons_iff.mpr (.inr ⟨rfl, before⟩)
      | other => exact .nil
    · intro first second before left inFirst right inSecond
      obtain ⟨_, rfl⟩ := Entry.exists_of_mem_routes inFirst
      obtain ⟨_, rfl⟩ := Entry.exists_of_mem_routes inSecond
      exact List.cons_lt_cons_iff.mpr (.inl before)

/-! ### Folders without links -/

/-- Where links are not followed, a walk takes the entries of a folder for what they are. -/
theorem entryAt_eq (noLinks : options.followLinks = false) (below : Place) :
    entryAt disk options chain path below node =
      match node with
      | .file _ => .file
      | .folder _ => .folder below
      | .link _ => .other := by
  cases node with
  | link target => simp [entryAt, noLinks]
  | _ => rfl

/-- Where links are not followed, a route leads to a file exactly if the file stands there. -/
theorem reaches_iff (noLinks : options.followLinks = false) :
    Reaches disk options chain path place route ↔
      route ≠ [] ∧ ∃ bytes, disk.root.get? (place ++ route) = some (.file bytes) := by
  constructor
  · intro reaches
    refine ⟨by cases reaches <;> exact List.cons_ne_nil _ _, ?_⟩
    induction reaches with
    | file entry isFile =>
      rename_i node
      rw [entryAt_eq noLinks] at isFile
      cases node with
      | file bytes => exact ⟨bytes, entry⟩
      | _ => cases isFile
    | inside entry isFolder rest ih =>
      rename_i node route
      rw [entryAt_eq noLinks] at isFolder
      cases node with
      | folder entries =>
        cases isFolder
        rwa [List.append_assoc] at ih
      | _ => cases isFolder
  · rintro ⟨nonempty, bytes, found⟩
    induction route generalizing chain path place with
    | nil => exact absurd rfl nonempty
    | cons name deeper ih =>
      rw [← List.singleton_append, ← List.append_assoc, Node.get?_append] at found
      obtain ⟨node, entry, found⟩ := Option.bind_eq_some_iff.mp found
      cases deeper with
      | nil =>
        have isFile : node = .file bytes := Option.some_inj.mp ((Node.get?_nil node).symm.trans found)
        subst isFile
        exact .file entry (entryAt_eq noLinks _)
      | cons next deeper =>
        cases node with
        | folder entries =>
          refine .inside entry (entryAt_eq noLinks _) (ih (List.cons_ne_nil _ _) ?_)
          rw [Node.get?_append, entry]
          exact found
        | _ => cases found

/-! ### The whole walk -/

/-- The route leads from the root of a walk to a file. A root that is a file itself has the empty
route, unless it is a link that is not followed. -/
def ReachesFrom (disk : Disk) (options : Options) (root : Path) (route : List String) : Prop :=
  match disk.locate? root with
  | some (place, .folder _) => Reaches disk options [place] root place route
  | some (_, .file _) => route = [] ∧ (options.followLinks || !disk.isLink root)
  | _ => False

/-- The routes of a walk, in its order. -/
def routesFrom (disk : Disk) (options : Options) (depth : Nat) (root : Path) : List (List String) :=
  match disk.locate? root with
  | some (place, .folder _) => routesBelow disk options (levelsFor depth) [place] root place
  | some (_, .file _) => if options.followLinks || !disk.isLink root then [[]] else []
  | _ => []

theorem filesFrom_eq (disk : Disk) (options : Options) (depth : Nat) (root : Path) :
    filesFrom disk options depth root = (routesFrom disk options depth root).map (along root) := by
  rw [filesFrom, routesFrom]
  rcases disk.locate? root with _ | ⟨place, _ | _ | _⟩
  · rfl
  · dsimp only
    split <;> rfl
  · rfl
  · exact filesBelow_eq _ _ _ _

theorem mem_routesFrom (tidy : disk.root.Tidy) (depth : Nat) (root : Path) (route : List String) :
    route ∈ routesFrom disk options depth root ↔
      ReachesFrom disk options root route ∧ route.length ≤ levelsFor depth ∧ Shown options route := by
  rw [routesFrom, ReachesFrom]
  rcases disk.locate? root with _ | ⟨place, _ | _ | _⟩
  · simp
  · dsimp only
    split
    next follows =>
      rw [List.mem_singleton]
      constructor
      · rintro rfl
        exact ⟨⟨rfl, follows⟩, Nat.zero_le _, by simp [Shown]⟩
      · exact fun reached => reached.1.1
    next passed => exact iff_of_false List.not_mem_nil fun reached => passed reached.1.2
  · simp
  · exact mem_routesBelow tidy _ _ _ _ _

theorem routesFrom_ascend (tidy : disk.root.Tidy) (depth : Nat) (root : Path) :
    (routesFrom disk options depth root).Pairwise (· < ·) := by
  rw [routesFrom]
  rcases disk.locate? root with _ | ⟨place, _ | _ | _⟩
  · exact .nil
  · dsimp only
    split
    · exact List.pairwise_singleton _ _
    · exact .nil
  · exact .nil
  · exact routesBelow_ascend tidy _ _ _ _

/-! ### The names of solutions -/

/-- The name has something before its last period, and the extension of solutions after it. -/
def NamesSolution (name : String) : Prop :=
  ∃ stem extension : List Char, name.toList = stem ++ '.' :: extension ∧ stem ≠ [] ∧
    extension.map Char.toLower = ['s', 'l', 'n']

theorem namesSolution_iff : NamesSolution name ↔
    ∃ extension, (Path.cutExtension name).2 = some extension ∧ Text.sameFold extension "sln" := by
  rw [Path.cutExtension]
  constructor
  · rintro ⟨stem, extension, whole, nonempty, small⟩
    have absent : '.' ∉ extension.reverse := fun period => by
      have member : Char.toLower '.' ∈ extension.map Char.toLower :=
        List.mem_map_of_mem (List.mem_reverse.mp period)
      rw [small] at member
      exact absurd member (by decide)
    have cut : Text.cutChars '.' name.toList.reverse = some (extension.reverse, stem.reverse) := by
      rw [whole, List.reverse_append, List.reverse_cons, List.append_assoc, List.singleton_append]
      exact Text.cutChars_append_cons absent stem.reverse
    obtain ⟨last, before, flipped⟩ :=
      List.exists_cons_of_ne_nil (mt List.reverse_eq_nil_iff.mp nonempty)
    rw [cut, flipped]
    refine ⟨_, rfl, ?_⟩
    rw [Text.sameFold, List.reverse_reverse, String.toList_ofList, small]
    rfl
  · rintro ⟨extension, found, same⟩
    split at found
    · cases found
    next suffix before nonempty cut =>
      cases found
      obtain ⟨whole, -⟩ := Text.cutChars_eq_some cut
      refine ⟨before.reverse, suffix.reverse, ?_, mt List.reverse_eq_nil_iff.mp nonempty, ?_⟩
      · rw [← List.reverse_reverse name.toList, whole]
        simp
      · rw [Text.sameFold, String.toList_ofList, beq_iff_eq] at same
        exact same
    · cases found

theorem isSolution_along_iff (isName : Part.IsName name.toList) (root : Path) (route : List String) :
    isSolution (along root (route ++ [name])) ↔ NamesSolution name := by
  rw [isSolution, Path.extension?, along, List.foldl_concat, Path.fileName?_join _ isName,
    Option.bind_some, Option.any_eq_true]
  exact namesSolution_iff.symm

/-! ### The limit -/

theorem collect_other {limit : Option Nat} {found rest : List Path}
    (other : isSolution path = false) :
    collect limit found (path :: rest) = collect limit found rest := by
  simp [collect, other]

theorem collect_solution {limit : Option Nat} {found rest : List Path}
    (solution : isSolution path = true) :
    collect limit found (path :: rest) =
      if limit.any (· ≤ (found ++ [path]).length) then found ++ [path]
      else collect limit (found ++ [path]) rest := by
  simp [collect, solution]

theorem collect_none (found paths : List Path) :
    collect none found paths = found ++ paths.filter isSolution := by
  induction paths generalizing found with
  | nil => exact (List.append_nil found).symm
  | cons path rest ih =>
    cases solution : isSolution path with
    | false => rw [collect_other solution, ih, List.filter_cons_of_neg (by simp [solution])]
    | true =>
      rw [collect_solution solution, Option.any_none, if_neg Bool.false_ne_true, ih,
        List.filter_cons_of_pos solution, ← List.append_cons]

/-- The limit is looked at once a solution was found, so it counts for one at the least. -/
theorem collect_some {limit : Nat} {found : List Path} (paths : List Path)
    (room : found.length < max limit 1) :
    collect (some limit) found paths =
      (found ++ paths.filter isSolution).take (max limit 1) := by
  induction paths generalizing found with
  | nil =>
    rw [collect, List.filter_nil, List.append_nil, List.take_of_length_le (Nat.le_of_lt room)]
  | cons path rest ih =>
    cases solution : isSolution path with
    | false => rw [collect_other solution, ih room, List.filter_cons_of_neg (by simp [solution])]
    | true =>
      have longer : (found ++ [path]).length = found.length + 1 := by simp
      rw [collect_solution solution, Option.any_some, List.filter_cons_of_pos solution,
        List.append_cons found path (rest.filter isSolution)]
      -- There was room for this one; the scan stops just when there is none for another.
      by_cases full : limit ≤ (found ++ [path]).length
      · have count : (found ++ [path]).length = max limit 1 := by omega
        rw [if_pos (decide_eq_true full), ← count, List.take_left]
      · rw [if_neg (mt of_decide_eq_true full), ih (by omega)]

/-- What a walk makes of an entry does not depend on the limit. -/
theorem entryAt_limit (limit : Option Nat) (below : Place) :
    entryAt disk { options with limit := limit } chain path below node =
      entryAt disk options chain path below node := by
  cases node <;> rfl

theorem filesBelow_limit (limit : Option Nat) (levels : Nat) (chain : List Place) (path : Path)
    (place : Place) : filesBelow disk { options with limit := limit } levels chain path place =
      filesBelow disk options levels chain path place := by
  induction levels generalizing chain path place with
  | zero => rfl
  | succ levels ih =>
    simp only [filesBelow, entryAt_limit, ih]
    rfl

theorem filesFrom_limit (limit : Option Nat) (depth : Nat) (root : Path) :
    filesFrom disk { options with limit := limit } depth root = filesFrom disk options depth root := by
  simp only [filesFrom, filesBelow_limit]

theorem scan_eq (there : (disk.place? root).isSome) (limit : Option Nat) (depth : Nat) :
    scan disk { options with limit := limit } depth root =
      .ok (collect limit [] ((routesFrom disk options depth root).map (along root))) := by
  have found : ¬(disk.place? root).isNone := by simpa [Option.isSome_iff_ne_none] using there
  rw [scan, if_neg found, filesFrom_limit, filesFrom_eq]

/-- A scan counts what the route leads to. -/
structure Counts (disk : Disk) (options : Options) (depth : Nat) (root : Path)
    (route : List String) : Prop where
  reached : ReachesFrom disk options root route
  /-- The folders on the way are entered at most `depth` deep. -/
  within : route.length ≤ depth + 1
  shown : Shown options route
  solution : isSolution (along root route)

/-- The routes of the solutions of a walk, in its order. -/
def solutionRoutes (disk : Disk) (options : Options) (depth : Nat) (root : Path) :
    List (List String) :=
  (routesFrom disk options depth root).filter fun route => isSolution (along root route)

theorem mem_solutionRoutes (tidy : disk.root.Tidy) {depth : Nat}
    (fits : depth + 1 < 18446744073709551616) (root : Path) (route : List String) :
    route ∈ solutionRoutes disk options depth root ↔ Counts disk options depth root route := by
  rw [solutionRoutes, List.mem_filter, mem_routesFrom tidy, levelsFor, Nat.mod_eq_of_lt fits]
  exact ⟨fun ⟨⟨reached, within, shown⟩, solution⟩ => ⟨reached, within, shown, solution⟩,
    fun counts => ⟨⟨counts.reached, counts.within, counts.shown⟩, counts.solution⟩⟩

theorem filter_map_along (depth : Nat) (root : Path) :
    ((routesFrom disk options depth root).map (along root)).filter isSolution =
      (solutionRoutes disk options depth root).map (along root) := by
  rw [List.filter_map]
  rfl

theorem scan_without_limit (there : (disk.place? root).isSome) (depth : Nat) :
    scan disk { options with limit := none } depth root =
      .ok ((solutionRoutes disk options depth root).map (along root)) := by
  rw [scan_eq there, collect_none, List.nil_append, filter_map_along]

theorem scan_with_limit (there : (disk.place? root).isSome) (limit depth : Nat) :
    scan disk { options with limit := some limit } depth root =
      .ok (((solutionRoutes disk options depth root).map (along root)).take (max limit 1)) := by
  rw [scan_eq there, collect_some _ (Nat.lt_of_lt_of_le Nat.zero_lt_one (Nat.le_max_right _ _)),
    List.nil_append, filter_map_along]

/-- A scan of a disk gives the solutions that it counts, in the order of their routes, where the
levels to enter can be counted in 64 bits. With a limit it gives the first of them up to the limit,
save that a limit of none still gives the first. -/
theorem scan_up_to_limit (tidy : disk.root.Tidy) (there : (disk.place? root).isSome)
    (options : Options) (depth : Nat) :
    ∃ routes : List (List String), routes.Pairwise (· < ·) ∧
      (depth + 1 < 18446744073709551616 →
        ∀ route, route ∈ routes ↔ Counts disk options depth root route) ∧
      (options.followLinks = false → ∀ place entries,
        disk.locate? root = some (place, .folder entries) → ∀ route,
          ReachesFrom disk options root route ↔
            route ≠ [] ∧ ∃ bytes, disk.root.get? (place ++ route) = some (.file bytes)) ∧
      (∀ name, Part.IsName name.toList → ∀ route,
        isSolution (along root (route ++ [name])) ↔ NamesSolution name) ∧
      scan disk { options with limit := none } depth root = .ok (routes.map (along root)) ∧
      ∀ limit,
        scan disk { options with limit := some limit } depth root =
          .ok ((routes.map (along root)).take (max limit 1)) ∧
        (scan disk { options with limit := some limit } depth root =
          .ok ((routes.map (along root)).take (min limit routes.length)) ↔
            limit ≠ 0 ∨ routes = []) := by
  refine ⟨solutionRoutes disk options depth root, (routesFrom_ascend tidy depth root).filter _,
    fun fits => mem_solutionRoutes tidy fits root, ?_,
    fun name isName route => isSolution_along_iff isName root route,
    scan_without_limit there depth, fun limit => ⟨scan_with_limit there limit depth, ?_⟩⟩
  · intro noLinks place entries located route
    rw [ReachesFrom, located]
    exact reaches_iff noLinks
  · rw [scan_with_limit there, Except.ok.injEq, List.take_eq_take_iff, List.length_map,
      ← List.length_eq_zero_iff]
    omega

/-- A disk with a solution at its root. -/
def rootSolution : Disk :=
  ({} : Disk).add ⟨"Root.sln"⟩ (.file [])

theorem locate_rootSolution :
    rootSolution.locate? ⟨"/"⟩ = some ([], .folder [("Root.sln", .file [])]) := by
  rw [Disk.locate?, Disk.place?_root rfl]
  rfl

theorem rootSolution_counted :
    rootSolution.root.Tidy ∧ (rootSolution.place? ⟨"/"⟩).isSome ∧
      ∃ routes : List (List String), ["Root.sln"] ∈ routes ∧
        scan rootSolution { limit := some 1 } 0 ⟨"/"⟩ =
          .ok ((routes.map (along ⟨"/"⟩)).take 1) := by
  have tidy : rootSolution.root.Tidy := Disk.tidy_add Node.tidy_empty _ (.file [])
  have there : (rootSolution.place? ⟨"/"⟩).isSome := by rw [Disk.place?_root rfl]; rfl
  have isName : Part.IsName "Root.sln".toList := ⟨by decide, by decide, by decide, by decide⟩
  have named : NamesSolution "Root.sln" :=
    ⟨['R', 'o', 'o', 't'], ['s', 'l', 'n'], rfl, List.cons_ne_nil _ _, rfl⟩
  obtain ⟨routes, -, member, reached, solution, -, limited⟩ := scan_up_to_limit tidy there {} 0
  refine ⟨tidy, there, routes, (member (by decide) _).mpr ⟨?_, Nat.le_refl 1, ?_, ?_⟩,
    (limited 1).1⟩
  · exact (reached rfl _ _ locate_rootSolution _).mpr ⟨List.cons_ne_nil _ _, [], rfl⟩
  · exact fun _ => List.forall_mem_singleton.mpr rfl
  · exact (solution _ isName []).mpr named

/-- A limit of none should leave nothing of what a scan without a limit finds. -/
theorem limit_of_none_leaves_one : ∃ found, scan rootSolution {} 0 ⟨"/"⟩ = .ok found ∧
    scan rootSolution { limit := some 0 } 0 ⟨"/"⟩ ≠ .ok (found.take (min 0 found.length)) := by
  have there : ¬(rootSolution.place? ⟨"/"⟩).isNone := by
    rw [Disk.place?_root rfl]
    exact Bool.false_ne_true
  have shown : shownEntries rootSolution {} [] = [("Root.sln", .file [])] := by
    change List.filter _ (List.mergeSort [("Root.sln", Node.file [])] _) = _
    rw [List.mergeSort_singleton]
    rfl
  have files : filesFrom rootSolution {} 0 ⟨"/"⟩ = [⟨"/Root.sln"⟩] := by
    rw [filesFrom, locate_rootSolution]
    change filesBelow rootSolution {} 1 [[]] ⟨"/"⟩ [] = _
    rw [filesBelow, shown]
    rfl
  have limited : filesFrom rootSolution { limit := some 0 } 0 ⟨"/"⟩ = [⟨"/Root.sln"⟩] :=
    (filesFrom_limit (some 0) 0 _).trans files
  refine ⟨[⟨"/Root.sln"⟩], ?_, ?_⟩
  · rw [scan, if_neg there, files]
    rfl
  · rw [scan, if_neg there, limited]
    intro same
    cases same

end Clarion.Discovery
