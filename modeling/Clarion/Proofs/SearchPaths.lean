import Clarion.Proofs.NameCase
import Clarion.Proofs.SolutionCache
import Clarion.Proofs.Trimming

/-! The directories searched for an extension: that of the project, then those that its entries
assign to the extension, each once, in the order in which the entries first name them. The answer
depends on the extension and on the configuration only up to their spelling, and these are what
earlier answers are remembered by, so an answer from memory is the one a call without memory would
give. -/
namespace Clarion

/-! ### Each path once -/

namespace Path

variable {path other : Path} {seen paths : List Path}

theorem same_refl (path : Path) : path.same path :=
  same_iff.mpr rfl

theorem isIn_iff : path.isIn paths ↔ ∃ listed ∈ paths, listed.same path := by
  simp [isIn]

theorem isIn_of_mem (member : path ∈ paths) : path.isIn paths :=
  isIn_iff.mpr ⟨path, member, same_refl path⟩

/-- Nothing but the parts of a path decides whether it is among others. -/
theorem isIn_congr (same : path.same other) (paths : List Path) :
    path.isIn paths ↔ other.isIn paths := by
  simp only [isIn_iff, same_iff, same_iff.mp same]

theorem mem_distinctAfter (member : path ∈ distinctAfter seen paths) :
    path ∈ paths ∧ ¬path.isIn seen := by
  induction paths generalizing seen with
  | nil => cases member
  | cons first rest ih =>
    rw [distinctAfter] at member
    split at member
    · obtain ⟨listed, new⟩ := ih member
      exact ⟨List.mem_cons_of_mem first listed, new⟩
    · rename_i new
      rcases List.mem_cons.mp member with rfl | later
      · exact ⟨List.mem_cons_self, new⟩
      · obtain ⟨listed, apart⟩ := ih later
        refine ⟨List.mem_cons_of_mem first listed, fun old => apart ?_⟩
        simp only [isIn, List.any_append, Bool.or_eq_true] at old ⊢
        exact .inl old

/-- No path is lost but for those that were seen. -/
theorem isIn_distinctAfter (listed : path.isIn paths) (new : ¬path.isIn seen) :
    path.isIn (distinctAfter seen paths) := by
  induction paths generalizing seen with
  | nil => cases listed
  | cons first rest ih =>
    rw [distinctAfter]
    by_cases same : first.same path
    · rw [if_neg (mt (isIn_congr same seen).mp new)]
      exact isIn_iff.mpr ⟨first, List.mem_cons_self, same⟩
    · have later : path.isIn rest := by
        simpa [isIn, same] using listed
      split
      · exact ih later new
      · have stillNew : ¬path.isIn (seen ++ [first]) := by
          simpa [isIn, same] using new
        simp only [isIn, List.any_cons, Bool.or_eq_true]
        exact .inr (ih later stillNew)

/-- The place of the first path with the same parts. -/
def firstPlace (paths : List Path) (path : Path) : Nat :=
  paths.findIdx (·.same path)

theorem firstPlace_cons_of_same {first : Path} (same : first.same path) (rest : List Path) :
    firstPlace (first :: rest) path = 0 := by
  simp [firstPlace, List.findIdx_cons, same]

theorem firstPlace_cons_of_apart {first : Path} (apart : ¬first.same path) (rest : List Path) :
    firstPlace (first :: rest) path = firstPlace rest path + 1 := by
  simp [firstPlace, List.findIdx_cons, apart]

theorem firstPlace_congr (same : path.same other) (paths : List Path) :
    firstPlace paths path = firstPlace paths other := by
  simp only [firstPlace, Path.same, same_iff.mp same]

/-- Paths come in the order of their first places. -/
theorem distinctAfter_inOrder (seen paths : List Path) :
    (distinctAfter seen paths).Pairwise fun left right =>
      firstPlace paths left < firstPlace paths right := by
  -- A path after the first one that is kept is apart from it, since both are seen only once.
  have shift {first : Path} {rest kept : List Path} (seen : List Path)
      (isSeen : first.isIn seen) (new : ∀ path ∈ kept, ¬path.isIn seen)
      (inOrder : kept.Pairwise fun left right => firstPlace rest left < firstPlace rest right) :
      kept.Pairwise fun left right =>
        firstPlace (first :: rest) left < firstPlace (first :: rest) right := by
    have apart (path : Path) (member : path ∈ kept) : ¬first.same path :=
      fun same => new path member ((isIn_congr same seen).mp isSeen)
    refine inOrder.imp_of_mem fun {left right} inLeft inRight before => ?_
    rw [firstPlace_cons_of_apart (apart left inLeft), firstPlace_cons_of_apart (apart right inRight)]
    exact Nat.succ_lt_succ before
  induction paths generalizing seen with
  | nil => exact .nil
  | cons first rest ih =>
    rw [distinctAfter]
    split
    · rename_i isSeen
      exact shift seen isSeen (fun path member => (mem_distinctAfter member).2) (ih seen)
    · have isSeen : first.isIn (seen ++ [first]) := isIn_of_mem (by simp)
      have later := ih (seen ++ [first])
      have new := fun path (member : path ∈ distinctAfter (seen ++ [first]) rest) =>
        (mem_distinctAfter member).2
      refine List.pairwise_cons.mpr ⟨fun path member => ?_, shift _ isSeen new later⟩
      have apart : ¬first.same path :=
        fun same => new path member ((isIn_congr same _).mp isSeen)
      rw [firstPlace_cons_of_same (same_refl first), firstPlace_cons_of_apart apart]
      exact Nat.succ_pos _

theorem mem_distinct (member : path ∈ distinct paths) : path ∈ paths :=
  (mem_distinctAfter member).1

theorem isIn_distinct : path.isIn (distinct paths) ↔ path.isIn paths := by
  constructor
  · intro kept
    obtain ⟨listed, member, same⟩ := isIn_iff.mp kept
    exact isIn_iff.mpr ⟨listed, mem_distinct member, same⟩
  · exact fun listed => isIn_distinctAfter listed (by simp [isIn])

theorem distinct_inOrder (paths : List Path) : (distinct paths).Pairwise fun left right =>
    firstPlace paths left < firstPlace paths right :=
  distinctAfter_inOrder [] paths

/-- No two paths have the same parts. -/
theorem distinct_apart (paths : List Path) :
    (distinct paths).Pairwise fun left right => ¬left.same right := by
  apply (distinct_inOrder paths).imp
  intro left right before same
  rw [firstPlace_congr same] at before
  exact Nat.lt_irrefl _ before

end Path

/-! ### Extensions -/

namespace Text

theorem isBlank_toLower (c : Char) : isBlank c.toLower = isBlank c := by
  have ends := Outline.ends_toLower c
  by_cases isOpen : c = '('
  · rw [isOpen]
    decide
  · have noOpen : ¬c.toLower = '(' := mt (toLower_eq_iff (by decide)).mp isOpen
    rwa [beq_eq_false_iff_ne.mpr isOpen, beq_eq_false_iff_ne.mpr noOpen, Bool.or_false,
      Bool.or_false] at ends

end Text

namespace Path

/-- What is left of an extension after the stars and periods before it. -/
def bareExtension (chars : List Char) : List Char :=
  ((Text.trimChars chars).dropWhile (· == '*')).dropWhile (· == '.')

theorem normalizeExtension_eq (extension : String) : normalizeExtension extension =
    String.ofList ('.' :: (bareExtension extension.toList).map Char.toLower) := by
  simp [normalizeExtension, bareExtension, Text.foldLower]

/-- What is left starts with no period and ends in no blank, in either letter case. -/
theorem bareExtension_normal (chars : List Char) :
    bareExtension ('.' :: (bareExtension chars).map Char.toLower) =
      (bareExtension chars).map Char.toLower := by
  have noBlank : ∀ c, (bareExtension chars).getLast? = some c → Text.isBlank c = false := by
    intro c last
    have suffix : bareExtension chars <:+ Text.trimChars chars :=
      (List.dropWhile_suffix _).trans (List.dropWhile_suffix _)
    obtain ⟨front, same⟩ := suffix
    have lastOfAll : (Text.trimChars chars).getLast? = some c := by
      rw [← same, List.getLast?_append, last, Option.some_or]
    exact Text.isBlank_getLast?_trimChars lastOfAll
  have noPeriod : ∀ c, (bareExtension chars).head? = some c → ¬c = '.' := by
    intro c first
    have stopped := List.head?_dropWhile_not (· == '.')
      ((Text.trimChars chars).dropWhile (· == '*'))
    rw [bareExtension] at first
    rw [first] at stopped
    simpa using stopped
  generalize bareExtension chars = bare at noBlank noPeriod
  have trimmed : Text.trimChars ('.' :: bare.map Char.toLower) = '.' :: bare.map Char.toLower := by
    cases ends : bare.getLast? with
    | none =>
      rw [List.getLast?_eq_none_iff.mp ends]
      decide
    | some last =>
      have lowered : ('.' :: bare.map Char.toLower).getLast? = some last.toLower := by
        rw [List.getLast?_cons, List.getLast?_map, ends]
        rfl
      refine Text.trimChars_eq_self (by decide) lowered ?_
      rw [Text.isBlank_toLower]
      exact noBlank last ends
  rw [bareExtension, trimmed, List.dropWhile_cons_of_neg (by decide),
    List.dropWhile_cons_of_pos (by decide)]
  cases bare with
  | nil => rfl
  | cons first rest =>
    have small : ¬first.toLower = '.' := mt (toLower_eq_iff (by decide)).mp (noPeriod first rfl)
    rw [List.map_cons, List.dropWhile_cons_of_neg (by simpa using small)]

theorem normalizeExtension_idem (extension : String) :
    normalizeExtension (normalizeExtension extension) = normalizeExtension extension := by
  have small : Char.toLower ∘ Char.toLower = Char.toLower := funext toLower_toLower
  rw [normalizeExtension_eq (normalizeExtension extension), normalizeExtension_eq extension,
    String.toList_ofList, bareExtension_normal, List.map_map, small]

end Path

/-! ### The directories that entries assign -/

namespace Redirection

/-- The entry assigns its directories to an extension under a configuration: it stands in the
common section or in that of the configuration, and its mask is the one for every file or a star
with the extension after it. -/
def Assigns (entry : Redirection) (configuration extension : String) : Prop :=
  (Text.sameFold entry.heading "Common" ∨ Text.sameFold entry.heading configuration) ∧
    (entry.mask = "*.*" ∨ Text.sameFold entry.mask ("*" ++ extension))

instance (entry : Redirection) (configuration extension : String) :
    Decidable (entry.Assigns configuration extension) :=
  inferInstanceAs (Decidable (_ ∧ _))

theorem matchesExtension_iff {entry : Redirection} {extension : String} :
    entry.matchesExtension extension ↔ Text.sameFold entry.mask ("*" ++ extension) := by
  simp only [matchesExtension, Text.sameFold, String.toList_append, List.map_append, beq_iff_eq]
  cases entry.mask.toList with
  | nil => simp
  | cons first rest =>
    by_cases star : first = '*'
    · subst star
      simp
    · have small : ¬first.toLower = '*' := mt (toLower_eq_iff (by decide)).mp star
      simp [star, small]

end Redirection

namespace Project

variable {project : Project} {settings others : Settings} {extension other : String}

theorem covers_iff {entry : Redirection} {configuration : String} :
    covers configuration extension entry ↔ entry.Assigns configuration extension := by
  simp [covers, Redirection.Assigns, Redirection.appliesTo, Redirection.isWildcard,
    Redirection.commonHeading, Redirection.everyFile, Redirection.matchesExtension_iff]

/-- The directories that entries assign to an extension, in the order of the entries and as often as
they are named there. -/
def assigned (project : Project) (configuration extension : String) : List Path :=
  (project.entries.filter (·.Assigns configuration extension)).flatMap fun entry =>
    entry.paths.map project.directory.resolveAgainst

theorem searchPaths_eq (project : Project) (settings : Settings) (extension : String) :
    project.searchPaths settings extension = Path.distinct (project.directory ::
      project.assigned settings.configuration (Path.normalizeExtension extension)) := by
  have same : covers settings.configuration (Path.normalizeExtension extension) =
      fun entry => decide (entry.Assigns settings.configuration
        (Path.normalizeExtension extension)) := by
    funext entry
    rw [Bool.eq_iff_iff, covers_iff, decide_eq_true_iff]
  rw [searchPaths, same, assigned]

/-- The search paths depend on the configuration and the extension up to their spelling. -/
theorem searchPaths_congr (project : Project)
    (extensions : Path.normalizeExtension extension = Path.normalizeExtension other)
    (configurations : Text.foldLower settings.configuration = Text.foldLower others.configuration) :
    project.searchPaths settings extension = project.searchPaths others other := by
  have same : covers settings.configuration = covers others.configuration := by
    funext extension entry
    simp only [covers, Redirection.appliesTo, Text.sameFold_eq, configurations]
  rw [searchPaths, searchPaths, extensions, same]

/-! ### What is remembered -/

/-- The memory after a run of calls, each for an extension under settings. -/
def memoryAfter (project : Project) (calls : List (Settings × String)) : SearchMemory :=
  calls.foldl (fun memory call => (project.recallSearchPaths call.1 memory call.2).2) []

/-- What is remembered under the key of a call is what it would find without memory. -/
def Faithful (project : Project) (memory : SearchMemory) : Prop :=
  ∀ settings extension paths, memory.lookup (Path.normalizeExtension extension,
    Text.foldLower settings.configuration) = some paths →
      paths = project.searchPaths settings extension

theorem Faithful.recall {memory : SearchMemory} (faithful : project.Faithful memory)
    (settings : Settings) (extension : String) :
    (project.recallSearchPaths settings memory extension).1 =
        project.searchPaths settings extension ∧
      project.Faithful (project.recallSearchPaths settings memory extension).2 := by
  unfold recallSearchPaths
  dsimp only
  cases known : memory.lookup (Path.normalizeExtension extension,
    Text.foldLower settings.configuration) with
  | some paths => exact ⟨faithful settings extension paths known, faithful⟩
  | none =>
    refine ⟨rfl, fun others other paths found => ?_⟩
    rw [List.lookup_append] at found
    rcases Option.or_eq_some_iff.mp found with old | ⟨-, new⟩
    · exact faithful others other paths old
    · rw [List.lookup_cons] at new
      split at new
      · rename_i same
        obtain ⟨extensions, configurations⟩ := Prod.mk.inj (beq_iff_eq.mp same)
        cases new
        exact (project.searchPaths_congr extensions configurations).symm
      · cases new

theorem faithful_memoryAfter (project : Project) (calls : List (Settings × String)) :
    project.Faithful (project.memoryAfter calls) := by
  suffices run : ∀ memory, project.Faithful memory → project.Faithful
      (calls.foldl (fun memory call => (project.recallSearchPaths call.1 memory call.2).2)
        memory) by
    exact run [] nofun
  induction calls with
  | nil => exact fun memory faithful => faithful
  | cons call rest ih =>
    intro memory faithful
    exact ih _ (faithful.recall call.1 call.2).2

/-! ### The search paths -/

/-- Whatever was asked for before, the search paths for an extension are those worked out afresh:
the directory of the project, and then the directories that entries assign to the extension, each
once and in the order in which they are first named. They are the same for every spelling of the
extension, and the normal spelling is its own. -/
theorem search_paths_are_assigned (project : Project) (calls : List (Settings × String))
    (settings : Settings) (extension : String) :
    let paths := project.searchPaths settings extension
    let named := project.assigned settings.configuration (Path.normalizeExtension extension)
    (project.recallSearchPaths settings (project.memoryAfter calls) extension).1 = paths ∧
      (∃ others, paths = project.directory :: others) ∧
      paths.Pairwise (fun left right => ¬left.same right) ∧
      (∀ path ∈ paths, path = project.directory ∨ path ∈ named) ∧
      (∀ path ∈ named, path.isIn paths) ∧
      (paths.Pairwise fun left right =>
        Path.firstPlace (project.directory :: named) left <
          Path.firstPlace (project.directory :: named) right) ∧
      (∀ other, Path.normalizeExtension other = Path.normalizeExtension extension →
        project.searchPaths settings other = paths) ∧
      Path.normalizeExtension (Path.normalizeExtension extension) =
        Path.normalizeExtension extension := by
  intro paths named
  have worked : paths = Path.distinct (project.directory :: named) :=
    project.searchPaths_eq settings extension
  refine ⟨((project.faithful_memoryAfter calls).recall settings extension).1, ?_, ?_, ?_, ?_, ?_,
    ?_, Path.normalizeExtension_idem extension⟩
  · exact ⟨_, worked⟩
  · exact worked ▸ Path.distinct_apart _
  · intro path listed
    rw [worked] at listed
    exact List.mem_cons.mp (Path.mem_distinct listed)
  · intro path listed
    rw [worked, Path.isIn_distinct]
    exact Path.isIn_of_mem (List.mem_cons_of_mem _ listed)
  · exact worked ▸ Path.distinct_inOrder _
  · exact fun other same => project.searchPaths_congr same rfl

/-- A project with included files in two directories, and with sources and all other files in a
directory for each configuration. -/
def mixedSections : Project where
  name := "Invoice"
  path := ⟨"/app/Invoice.cwproj"⟩
  directory := ⟨"/app"⟩
  file := {}
  sourceFiles := []
  entries := [⟨"Common", "*.*", [⟨"."⟩], ⟨"/app"⟩⟩,
    ⟨"COMMON", "*.Inc", [⟨"inc"⟩, ⟨"../shared"⟩], ⟨"/app/Clarion110.red"⟩⟩,
    ⟨"Debug", "*.clw", [⟨"dbg"⟩], ⟨"/app/Clarion110.red"⟩⟩,
    ⟨"debug", "*.*", [⟨"obj"⟩, ⟨"./inc"⟩], ⟨"/app/Clarion110.red"⟩⟩,
    ⟨"Release", "*.inc", [⟨"rel"⟩], ⟨"/app/Clarion110.red"⟩⟩]

theorem mixedSections_searched :
    let calls : List (Settings × String) := [({}, "clw"), ({}, ".INC"), ({}, "inc")]
    let paths : List Path := [⟨"/app"⟩, ⟨"/app/inc"⟩, ⟨"/shared"⟩, ⟨"/app/obj"⟩]
    (mixedSections.recallSearchPaths {} (mixedSections.memoryAfter calls) "*.inc").1 = paths ∧
      Path.normalizeExtension ".INC" = Path.normalizeExtension "*.inc" ∧
      mixedSections.searchPaths {} ".INC" = paths := by
  intro calls paths
  have searched : mixedSections.searchPaths {} "*.inc" = paths := by
    decide +kernel
  have spelled : Path.normalizeExtension ".INC" = Path.normalizeExtension "*.inc" := by
    decide
  obtain ⟨recalled, -, -, -, -, -, anySpelling, -⟩ :=
    search_paths_are_assigned mixedSections calls {} "*.inc"
  exact ⟨recalled.trans searched, spelled, (anySpelling ".INC" spelled).trans searched⟩

end Project
end Clarion
