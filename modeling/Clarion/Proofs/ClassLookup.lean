import Clarion.Proofs.SearchPaths

/-! Looking up a class. The index keeps definitions apart by the capital form of their names, and a
lookup sees only those under one form; all the same it gives what a search through every line of
every source would give, in the order of the sources. The sources that an index is built from are
the files right inside its directories, each of them once. -/
namespace Clarion

/-! ### Letter case -/

/-- Small letters are made capital by going 32 characters back, and all other characters stay. -/
theorem toNat_toUpper (c : Char) :
    c.toUpper.toNat = if 97 ≤ c.toNat ∧ c.toNat ≤ 122 then c.toNat - 32 else c.toNat := by
  by_cases small : 97 ≤ c.toNat ∧ c.toNat ≤ 122
  · have lower : c.val ≥ 'a'.val ∧ c.val ≤ 'z'.val := small
    have back : (c.val + ('A'.val - 'a'.val)).toNat = (c.val.toNat + (2 ^ 32 - 32)) % 2 ^ 32 := by
      rw [UInt32.toNat_add]
      rfl
    have same : c.val.toNat = c.toNat := rfl
    rw [if_pos small]
    unfold Char.toUpper
    rw [dif_pos lower]
    refine Eq.trans back ?_
    omega
  · rw [if_neg small]
    exact congrArg Char.toNat (dif_neg small)

theorem toUpper_toLower (c : Char) : c.toLower.toUpper = c.toUpper := by
  apply Char.toNat_inj.mp
  rw [toNat_toUpper, toNat_toUpper, toNat_toLower]
  by_cases capital : 65 ≤ c.toNat ∧ c.toNat ≤ 90
  · rw [if_pos capital]
    split <;> split <;> omega
  · rw [if_neg capital]

/-- Names have the same capital form just when they differ in letter case alone. -/
theorem Text.foldUpper_eq_iff {left right : String} :
    foldUpper left = foldUpper right ↔ sameFold left right := by
  constructor
  · exact Outline.sameFold_of_foldUpper
  · intro same
    have letters := congrArg (List.map Char.toUpper) (Outline.sameFold_iff.mp same)
    have capital : Char.toUpper ∘ Char.toLower = Char.toUpper := funext toUpper_toLower
    rw [List.map_map, List.map_map, capital] at letters
    rw [foldUpper, foldUpper, letters]

/-! ### Sources, line by line -/

/-- A text to index, and the file that it belongs to. -/
structure Source where
  file : Path
  content : String
deriving Repr, DecidableEq

/-- A line of a source, and the place where it stands. -/
structure SourceLine where
  file : Path
  /-- The number of the line, from zero. -/
  number : Nat
  text : String
deriving Repr, DecidableEq

/-- The lines of a source, in order. -/
def Source.lines (source : Source) : List SourceLine :=
  (Text.lines source.content).mapIdx fun number text => ⟨source.file, number, text⟩

/-- The definition on a line, when there is one. -/
def SourceLine.definition? (line : SourceLine) : Option ClassDefinition :=
  (ClassDefinition.ofLine? line.text).map fun (name, parent, isType) =>
    { name, file := line.file, line := line.number, parent, isType }

theorem Source.definitions_eq (source : Source) :
    ClassDefinition.ofSource source.file source.content =
      source.lines.filterMap SourceLine.definition? := by
  simp only [lines, ClassDefinition.ofSource, List.mapIdx_eq_zipIdx_map, List.filterMap_map]
  rfl

theorem Source.file_of_definition {source : Source} {definition : ClassDefinition}
    (member : definition ∈ ClassDefinition.ofSource source.file source.content) :
    definition.file = source.file := by
  rw [definitions_eq, List.mem_filterMap] at member
  obtain ⟨line, listed, defines⟩ := member
  obtain ⟨number, bound, rfl⟩ := List.mem_mapIdx.mp listed
  obtain ⟨parts, -, rfl⟩ := Option.map_eq_some_iff.mp defines
  rfl

namespace ClassIndex

variable {index : ClassIndex} {files : FileSystem} {directories : List Path} {path : Path}

/-- The index with the definitions of more sources. -/
def addSources (index : ClassIndex) (sources : List Source) : ClassIndex :=
  sources.foldl (fun index source => index.addSource source.file source.content) index

/-! ### Definitions under their keys -/

/-- The definitions under a key. -/
def held (index : ClassIndex) (key : String) : List ClassDefinition :=
  (index.classes.lookup key).getD []

theorem find_eq (index : ClassIndex) (name : String) :
    index.find name = index.held (Text.foldUpper (Text.trim name)) :=
  rfl

theorem lookup_putLast (key other : String) (definition : ClassDefinition)
    (classes : List (String × List ClassDefinition)) :
    ((putLast key definition classes).lookup other).getD [] =
      (classes.lookup other).getD [] ++ if key = other then [definition] else [] := by
  induction classes with
  | nil =>
    by_cases same : key = other
    · simp [putLast, same]
    · simp [putLast, List.lookup_cons, beq_false_of_ne (Ne.symm same), same]
  | cons first rest ih =>
    obtain ⟨label, held⟩ := first
    by_cases asked : other = label
    · subst asked
      by_cases here : other = key
      · simp [putLast, here]
      · simp [putLast, here, Ne.symm here]
    · rw [putLast, List.lookup_cons, beq_false_of_ne asked]
      split
      · rename_i here
        subst here
        simp [List.lookup_cons, beq_false_of_ne asked, Ne.symm asked]
      · simp [List.lookup_cons, beq_false_of_ne asked, ih]

/-- One more definition stands last under its own key, and nowhere else. -/
theorem held_record (index : ClassIndex) (definition : ClassDefinition) (key : String) :
    (index.record definition).held key =
      index.held key ++ if Text.foldUpper definition.name = key then [definition] else [] :=
  lookup_putLast ..

theorem held_recordAll (index : ClassIndex) (definitions : List ClassDefinition) (key : String) :
    (definitions.foldl record index).held key =
      index.held key ++ definitions.filter fun definition =>
        Text.foldUpper definition.name = key := by
  induction definitions generalizing index with
  | nil => simp
  | cons definition rest ih =>
    rw [List.foldl_cons, ih, held_record, List.append_assoc, List.filter_cons]
    by_cases own : Text.foldUpper definition.name = key
    · simp [own]
    · simp [own]

theorem addSources_eq (index : ClassIndex) (sources : List Source) :
    index.addSources sources =
      ((sources.flatMap Source.lines).filterMap SourceLine.definition?).foldl record index := by
  simp only [addSources, addSource, Source.definitions_eq, List.filterMap_flatMap,
    List.foldl_flatMap]

/-! ### The sources of an index -/

/-- What the directories that can be listed hold for the index, as often as they list it. -/
def listed (files : FileSystem) (directories : List Path) : List Path :=
  directories.flatMap fun directory => ((files.list? directory).getD []).filter isIndexed

/-- The source that a file is, when it can be read. -/
def source? (files : FileSystem) (file : Path) : Option Source :=
  (files.read file).toOption.map fun content => ⟨file, content⟩

/-- The sources that an index is built from. -/
def sources (files : FileSystem) (directories : List Path) : List Source :=
  (sourceFiles files directories).filterMap (source? files)

theorem build_eq (files : FileSystem) (directories : List Path) :
    build files directories = addSources {} (sources files directories) := by
  rw [build, addSources, sources, List.foldl_filterMap]
  congr 1
  funext index file
  cases reading : files.read file <;> simp [source?, reading, Except.toOption]

theorem isIn_sourceFiles : path.isIn (sourceFiles files directories) ↔
    ∃ directory ∈ directories, ∃ listing, files.list? directory = some listing ∧
      ∃ file ∈ listing, isIndexed file ∧ file.same path := by
  rw [sourceFiles, Path.isIn_distinct, Path.isIn_iff]
  constructor
  · rintro ⟨file, member, same⟩
    obtain ⟨directory, given, member⟩ := List.mem_flatMap.mp member
    obtain ⟨member, indexed⟩ := List.mem_filter.mp member
    cases listing : files.list? directory with
    | none => simp [listing] at member
    | some paths =>
      exact ⟨directory, given, paths, listing, file, by simpa [listing] using member, indexed, same⟩
  · rintro ⟨directory, given, paths, listing, file, member, indexed, same⟩
    refine ⟨file, List.mem_flatMap.mpr ⟨directory, given, ?_⟩, same⟩
    exact List.mem_filter.mpr ⟨by simpa [listing] using member, indexed⟩

/-! ### What cannot be read -/

end ClassIndex

/-- The files where one directory cannot be listed. -/
def FileSystem.unlisted (files : FileSystem) (directory : Path) : FileSystem :=
  { files with
    list? := fun path => if path.same directory then none else files.list? path }

/-- The files where one file cannot be read. -/
def FileSystem.unreadable (files : FileSystem) (file : Path) (reason : String) : FileSystem :=
  { files with
    read := fun path => if path.same file then .error reason else files.read path }

namespace ClassIndex

theorem listed_unlisted (files : FileSystem) (directory : Path) (directories : List Path) :
    listed (files.unlisted directory) directories =
      listed files (directories.filter fun other => !other.same directory) := by
  unfold listed
  induction directories with
  | nil => rfl
  | cons first rest ih =>
    by_cases lost : first.same directory
    · simp [FileSystem.unlisted, lost, ← ih]
    · simp [FileSystem.unlisted, lost, ← ih]

/-- A directory that cannot be listed is as good as one that nobody asks for. -/
theorem build_unlisted (files : FileSystem) (directory : Path) (directories : List Path) :
    build (files.unlisted directory) directories =
      build files (directories.filter fun other => !other.same directory) := by
  have same : sourceFiles (files.unlisted directory) directories =
      sourceFiles files (directories.filter fun other => !other.same directory) :=
    congrArg Path.distinct (listed_unlisted files directory directories)
  rw [build, build, same]
  rfl

theorem source?_unreadable (files : FileSystem) (file : Path) (reason : String) (path : Path) :
    source? (files.unreadable file reason) path =
      (source? files path).filter fun source => !source.file.same file := by
  unfold source? FileSystem.unreadable
  by_cases lost : path.same file
  · cases files.read path <;> simp [lost, Except.toOption, Option.filter_some]
  · cases reading : files.read path <;>
      simp [lost, reading, Except.toOption, Option.filter_some]

theorem sources_unreadable (files : FileSystem) (file : Path) (reason : String)
    (directories : List Path) :
    sources (files.unreadable file reason) directories =
      (sources files directories).filter fun source => !source.file.same file := by
  have same : sourceFiles (files.unreadable file reason) directories =
    sourceFiles files directories := rfl
  rw [sources, sources, same, List.filter_filterMap]
  exact congrArg (List.filterMap · _) (funext (source?_unreadable files file reason))

/-! ### The search -/

theorem find_addSources (index : ClassIndex) (sources : List Source) (name : String) :
    (index.addSources sources).find name =
      index.find name ++ ((sources.flatMap Source.lines).filterMap
        SourceLine.definition?).filter fun definition =>
          Text.sameFold definition.name (Text.trim name) := by
  have keys : (fun definition : ClassDefinition =>
      decide (Text.foldUpper definition.name = Text.foldUpper (Text.trim name))) =
      fun definition => Text.sameFold definition.name (Text.trim name) := by
    funext definition
    rw [Bool.eq_iff_iff, decide_eq_true_iff, Text.foldUpper_eq_iff]
  rw [find_eq, addSources_eq, held_recordAll, keys, ← find_eq]

theorem find_build (files : FileSystem) (directories : List Path) (name : String) :
    (build files directories).find name =
      (((sources files directories).flatMap Source.lines).filterMap
        SourceLine.definition?).filter fun definition =>
          Text.sameFold definition.name (Text.trim name) := by
  rw [build_eq, find_addSources]
  rfl

/-- A file that cannot be read takes away the definitions that stand in it, and no others. -/
theorem find_unreadable (files : FileSystem) (file : Path) (reason : String)
    (directories : List Path) (name : String) :
    (build (files.unreadable file reason) directories).find name =
      ((build files directories).find name).filter fun definition =>
        !definition.file.same file := by
  rw [find_build, find_build, sources_unreadable, List.filter_comm]
  congr 1
  simp only [List.filterMap_flatMap, ← Source.definitions_eq, List.filter_flatMap]
  generalize sources files directories = sources
  induction sources with
  | nil => rfl
  | cons source rest ih =>
    have own : ∀ definition ∈ ClassDefinition.ofSource source.file source.content,
        (!definition.file.same file) = !source.file.same file := by
      intro definition member
      rw [Source.file_of_definition member]
    rw [List.flatMap_cons, ← ih, List.filter_congr own]
    by_cases lost : source.file.same file
    · simp [lost]
    · simp [lost]

/-- A lookup in an index, however many sources were added to it, gives the definitions of all lines
of its sources that bear the name, in order. The index is built from the files right inside its
directories, each of them once, in the order in which the directories first list them. A directory
that cannot be listed takes away what no other directory lists, and a file that cannot be read the
definitions in it. -/
theorem find_searches_all_lines (files : FileSystem) (directories : List Path) :
    (∀ later name, ((build files directories).addSources later).find name =
      (((sources files directories ++ later).flatMap Source.lines).filterMap
        SourceLine.definition?).filter fun definition =>
          Text.sameFold definition.name (Text.trim name)) ∧
    (∀ path, path.isIn (sourceFiles files directories) ↔
      ∃ directory ∈ directories, ∃ listing, files.list? directory = some listing ∧
        ∃ file ∈ listing, isIndexed file ∧ file.same path) ∧
    ((sourceFiles files directories).Pairwise fun left right => ¬left.same right) ∧
    ((sourceFiles files directories).Pairwise fun left right =>
      Path.firstPlace (listed files directories) left <
        Path.firstPlace (listed files directories) right) ∧
    (∀ directory, build (files.unlisted directory) directories =
      build files (directories.filter fun other => !other.same directory)) ∧
    ∀ file reason name, (build (files.unreadable file reason) directories).find name =
      ((build files directories).find name).filter fun definition =>
        !definition.file.same file := by
  refine ⟨fun later name => ?_, fun path => isIn_sourceFiles, Path.distinct_apart _,
    Path.distinct_inOrder _, fun directory => build_unlisted files directory directories,
    fun file reason name => find_unreadable files file reason directories name⟩
  rw [find_addSources, find_build, List.flatMap_append, List.filterMap_append, List.filter_append]

end ClassIndex
end Clarion
