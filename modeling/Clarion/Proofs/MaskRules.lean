import Clarion.Proofs.MaskMatching
import Clarion.Proofs.PathNormalization
import Clarion.Proofs.RedirectionMeaning
import Clarion.Proofs.SearchPaths

/-! Two rules for masks. Redirections match a mask against the whole name; search paths compare the
text of a mask with the extension. For masks of a star, a period and letters or digits, and for the
mask of every file, both say the same of a name with an extension, so that what the search paths give
the redirections give as well. Only blanks at the end of a name set the two apart, since an extension
counts without blanks around it. -/
namespace Clarion

variable {name : String} {stem suffix : List Char}

/-! ### Names with an extension -/

namespace Text

theorem dropEndWhile_isBlank_map (chars : List Char) :
    dropEndWhile isBlank (chars.map Char.toLower) = (dropEndWhile isBlank chars).map Char.toLower := by
  simp [dropEndWhile, ← List.map_reverse, List.dropWhile_map, Function.comp_def, isBlank_toLower]

end Text

theorem not_period_map (absent : '.' ∉ suffix) : '.' ∉ suffix.map Char.toLower := by
  rw [List.mem_map]
  rintro ⟨c, member, small⟩
  rw [toLower_eq_iff (by decide)] at small
  exact absent (small ▸ member)

namespace Path

theorem fileName?_of_noSlash {file : String} (noSlash : '/' ∉ name.toList)
    (named : fileName? ⟨name⟩ = some file) : file = name := by
  have whole : segments name.toList = [name.toList] := by
    refine Text.splitChars_of_none fun c member => beq_false_of_ne ?_
    rintro rfl
    exact noSlash member
  have single : parts ⟨name⟩ = partsOfSegments [name.toList] := congrArg partsOfSegments whole
  rw [fileName?, single] at named
  by_cases empty : name.toList = []
  · rw [empty] at named
    cases named
  · by_cases here : name.toList = ['.']
    · rw [here] at named
      cases named
    · rw [partsOfSegments_named [] empty here] at named
      by_cases climb : name.toList = ['.', '.']
      · rw [climb] at named
        cases named
      · simpa [partOf?, empty, here, climb, eq_comm] using named

/-- A name with an extension is what stands before its last period, the period, and the extension. -/
theorem exists_of_dottedExtension? {extension : String} (noSlash : '/' ∉ name.toList)
    (dotted : dottedExtension? name = some extension) :
    ∃ stem suffix, name.toList = stem ++ '.' :: suffix ∧ '.' ∉ suffix ∧
      extension = String.ofList ('.' :: suffix.map Char.toLower) := by
  obtain ⟨written, found, rfl⟩ := Option.map_eq_some_iff.mp dotted
  obtain ⟨file, named, cut⟩ := Option.bind_eq_some_iff.mp found
  obtain rfl := fileName?_of_noSlash noSlash named
  rw [cutExtension] at cut
  split at cut
  · cases cut
  next after before _ halves =>
    cases cut
    obtain ⟨whole, absent⟩ := Text.cutChars_eq_some halves
    refine ⟨before.reverse, after.reverse, ?_, by simpa using absent, by simp [Text.foldLower]⟩
    rw [← List.reverse_reverse file.toList, whole]
    simp
  · cases cut

theorem bareExtension_dotted (absent : '.' ∉ suffix) :
    bareExtension ('.' :: suffix) = Text.dropEndWhile Text.isBlank suffix := by
  have kept : (Text.dropEndWhile Text.isBlank suffix).dropWhile (· == '.') =
      Text.dropEndWhile Text.isBlank suffix := by
    rw [List.dropWhile_eq_self_iff]
    intro some isPeriod
    refine absent (Text.mem_of_mem_dropEndWhile (?_ : '.' ∈ Text.dropEndWhile Text.isBlank suffix))
    exact beq_iff_eq.mp isPeriod ▸ List.getElem_mem some
  have trimmed : Text.trimChars ('.' :: suffix) =
      '.' :: Text.dropEndWhile Text.isBlank suffix := by
    rw [Text.trimChars, List.dropWhile_cons_of_neg (by decide)]
    exact Text.dropEndWhile_append_cons (by decide) [] suffix
  rw [bareExtension, trimmed, List.dropWhile_cons_of_neg (by decide),
    List.dropWhile_cons_of_pos (by decide), kept]

/-- An extension counts without the blanks at its end. -/
theorem normalizeExtension_dotted (absent : '.' ∉ suffix) :
    normalizeExtension (String.ofList ('.' :: suffix.map Char.toLower)) =
      String.ofList ('.' :: (Text.dropEndWhile Text.isBlank suffix).map Char.toLower) := by
  have noPeriod : '.' ∉ suffix.map Char.toLower := not_period_map absent
  have small : Char.toLower ∘ Char.toLower = Char.toLower := funext toLower_toLower
  rw [normalizeExtension_eq, String.toList_ofList, bareExtension_dotted noPeriod,
    Text.dropEndWhile_isBlank_map, List.map_map, small]

end Path

/-! ### The two rules -/

namespace Redirection

variable {entry : Redirection}

/-- The mask is the one for every file, or a star, a period and letters or digits. -/
def HasPlainMask (entry : Redirection) : Prop :=
  entry.mask = "*.*" ∨ ∃ chars, chars ≠ [] ∧ (∀ c ∈ chars, c.isAlphanum) ∧
    entry.mask = String.ofList ('*' :: '.' :: chars)

theorem ascii_of_isAlphanum {c : Char} (plain : c.isAlphanum) : c.toNat < 128 := by
  have code : c.toNat = c.val.toNat := rfl
  have ranges : ((decide (c.val ≥ 65 ∧ c.val ≤ 90) || (c.val ≥ 97 && c.val ≤ 122)) ||
      (c.val ≥ 48 && c.val ≤ 57)) = true := plain
  simp [UInt32.le_iff_toNat_le] at ranges
  omega

/-- Behind their last periods names end alike. -/
theorem suffix_of_period {pattern : List Char} (absent : '.' ∉ suffix) (plain : '.' ∉ pattern) :
    '.' :: pattern <:+ stem ++ '.' :: suffix ↔ pattern = suffix := by
  constructor
  · rintro ⟨front, whole⟩
    rcases List.append_eq_append_iff.mp whole with ⟨between, -, same⟩ | ⟨between, -, same⟩
    · rcases List.cons_eq_append_iff.mp same with ⟨-, same⟩ | ⟨inner, -, same⟩
      · exact (List.cons.inj same).2.symm
      · exact absurd (same ▸ by simp) plain
    · rcases List.cons_eq_append_iff.mp same with ⟨-, same⟩ | ⟨inner, -, same⟩
      · exact (List.cons.inj same).2
      · exact absurd (same ▸ by simp) absent
  · rintro rfl
    exact List.suffix_append stem _

/-- A mask accepts a name whose extension it names. -/
theorem maskAccepts_eq (plain : entry.HasPlainMask) (whole : name.toList = stem ++ '.' :: suffix)
    (absent : '.' ∉ suffix) : entry.maskAccepts name =
      (entry.isWildcard ||
        entry.matchesExtension (String.ofList ('.' :: suffix.map Char.toLower))) := by
  rcases plain with every | ⟨chars, -, alphanum, mask⟩
  · have accepted : entry.maskAccepts name = true := by
      rw [maskAccepts, every, Mask.parse_everyFile]
      exact Mask.accepts_everyFile (whole ▸ by simp)
    have wild : entry.isWildcard = true := beq_iff_eq.mpr every
    rw [accepted, wild, Bool.true_or]
  · have ascii : ∀ c ∈ '.' :: chars, c.toNat < 128 :=
      List.forall_mem_cons.mpr ⟨by decide, fun c member => ascii_of_isAlphanum (alphanum c member)⟩
    have noPeriod : '.' ∉ chars := fun member => absurd (alphanum '.' member) (by decide)
    have glob : entry.maskAccepts name ↔ chars.map Char.toLower = suffix.map Char.toLower := by
      rw [maskAccepts, mask, Mask.parse_extension alphanum]
      dsimp only
      rw [Mask.accepts_star ascii, whole, List.map_append, List.map_cons, List.map_cons]
      exact suffix_of_period (not_period_map absent) (not_period_map noPeriod)
    have wild : entry.isWildcard = false := by
      refine beq_false_of_ne fun every => ?_
      have written : '*' :: '.' :: chars = ['*', '.', '*'] := by
        rw [← String.ofList_inj, ← mask, every]
        rfl
      obtain rfl : chars = ['*'] := (List.cons.inj (List.cons.inj written).2).2
      exact absurd (alphanum '*' List.mem_cons_self) (by decide)
    have textual : entry.matchesExtension (String.ofList ('.' :: suffix.map Char.toLower)) ↔
        chars.map Char.toLower = suffix.map Char.toLower := by
      have small : Char.toLower ∘ Char.toLower = Char.toLower := funext toLower_toLower
      rw [matchesExtension_iff, Outline.sameFold_iff, mask]
      simp [small]
    rw [wild, Bool.false_or, Bool.eq_iff_iff, glob, textual]

end Redirection

/-! ### Places -/

/-- The text without blanks at its end. -/
def Text.trimEnd (text : String) : String :=
  String.ofList (dropEndWhile isBlank text.toList)

theorem Path.resolveAgainst_here (base : Path) : base.resolveAgainst ⟨"."⟩ = base.normalize := by
  rw [resolveAgainst_eq]
  apply normalize_congr
  rw [resolved_join, if_neg (by decide)]
  rfl

namespace Project

variable {project : Project} {files : FileSystem} {settings now : Settings} {path place : Path}
  {knownAs : Option String}

/-- Redirections look for the name in the directory, which for the directory of the project they do
once it is normalized. -/
def Redirects (project : Project) (settings : Settings) (directory : Path) (name : String) : Prop :=
  directory.join ⟨name⟩ ∈ project.redirected settings name ∨
    directory = project.directory ∧
      directory.normalize.join ⟨name⟩ ∈ project.redirected settings name

theorem mem_redirected : place ∈ project.redirected settings name ↔ ∃ entry ∈ project.entries,
    entry.appliesTo settings.configuration ∧ entry.maskAccepts name ∧ ∃ directory ∈ entry.paths,
      (project.directory.resolveAgainst directory).join ⟨name⟩ = place := by
  simp [redirected, Redirection.candidates, and_assoc]

theorem seed_mem_entries (loads : load files settings path knownAs = .ok project) :
    Redirection.seed project.directory ∈ project.entries := by
  rw [(of_load loads).2.2, Redirection.ofDirectory]
  split
  · exact List.mem_singleton_self _
  · rw [Redirection.ofFile_entries]
    exact List.mem_cons_self

/-- An entry that covers the extension of a name counts for the name. -/
theorem counts_of_covers {entry : Redirection} {configuration : String}
    (plain : entry.HasPlainMask) (whole : name.toList = stem ++ '.' :: suffix)
    (absent : '.' ∉ suffix)
    (covering : covers configuration (String.ofList ('.' :: suffix.map Char.toLower)) entry) :
    entry.appliesTo configuration ∧ entry.maskAccepts name := by
  rw [covers, ← Redirection.maskAccepts_eq plain whole absent] at covering
  exact Bool.and_eq_true_iff.mp covering

theorem covers_seed (configuration extension : String) (directory : Path) :
    covers configuration extension (Redirection.seed directory) := by
  have common : Text.sameFold Redirection.commonHeading Redirection.commonHeading = true := by
    decide
  rw [covers, Redirection.appliesTo, Redirection.seed, common]
  rfl

/-- The directories searched for a name are those that redirections give for the name without blanks
at its end. -/
theorem redirects_of_mem_searchPaths (loads : load files settings path knownAs = .ok project)
    (plain : ∀ entry ∈ project.entries, entry.HasPlainMask)
    (whole : name.toList = stem ++ '.' :: suffix) (absent : '.' ∉ suffix) {directory : Path}
    (searched : directory ∈
      project.searchPaths now (String.ofList ('.' :: suffix.map Char.toLower))) :
    project.Redirects now directory (Text.trimEnd name) := by
  have trimmed : (Text.trimEnd name).toList =
      stem ++ '.' :: Text.dropEndWhile Text.isBlank suffix := by
    rw [Text.trimEnd, String.toList_ofList, whole, Text.dropEndWhile_append_cons (by decide)]
  have noPeriod : '.' ∉ Text.dropEndWhile Text.isBlank suffix :=
    mt Text.mem_of_mem_dropEndWhile absent
  rw [searchPaths_eq, Path.normalizeExtension_dotted absent] at searched
  rcases List.mem_cons.mp (Path.mem_distinct searched) with rfl | assigned
  · have own := seed_mem_entries loads
    obtain ⟨applies, accepts⟩ :=
      counts_of_covers (plain _ own) trimmed noPeriod (covers_seed now.configuration _ _)
    refine .inr ⟨rfl, mem_redirected.mpr ⟨_, own, applies, accepts, ⟨"."⟩, List.mem_cons_self, ?_⟩⟩
    rw [Path.resolveAgainst_here]
  · obtain ⟨entry, covering, assigned⟩ := List.mem_flatMap.mp assigned
    obtain ⟨given, listed, rfl⟩ := List.mem_map.mp assigned
    obtain ⟨member, assigns⟩ := List.mem_filter.mp covering
    obtain ⟨applies, accepts⟩ := counts_of_covers (plain entry member) trimmed noPeriod
      (covers_iff.mpr (of_decide_eq_true assigns))
    exact .inl (mem_redirected.mpr ⟨entry, member, applies, accepts, given, listed, rfl⟩)

/-- For masks of a star, a period and letters or digits, and for the mask of every file, matching the
whole name and comparing its extension come to the same. So in a project with such masks alone,
redirections look for a name wherever the search paths have it, up to normalization of the directory
of the project; for a name that ends in blanks, which the extension is taken without, they look there
for the name without them. -/
theorem mask_rules_agree :
    (∀ (entry : Redirection) (name extension : String), entry.HasPlainMask →
      '/' ∉ name.toList → Path.dottedExtension? name = some extension →
        entry.maskAccepts name = (entry.isWildcard || entry.matchesExtension extension)) ∧
    ∀ (files : FileSystem) (settings now : Settings) (path : Path) (knownAs : Option String)
      (project : Project) (name extension : String),
      load files settings path knownAs = .ok project →
      (∀ entry ∈ project.entries, entry.HasPlainMask) →
      '/' ∉ name.toList → Path.dottedExtension? name = some extension →
        ∀ place ∈ project.searchCandidates now name, ∃ directory, place = directory.join ⟨name⟩ ∧
          (Text.trimEnd name = name → project.Redirects now directory name) ∧
          project.Redirects now directory (Text.trimEnd name) := by
  constructor
  · intro entry name extension plain noSlash dotted
    obtain ⟨stem, suffix, whole, absent, rfl⟩ := Path.exists_of_dottedExtension? noSlash dotted
    exact Redirection.maskAccepts_eq plain whole absent
  · intro files settings now path knownAs project name extension loads plain noSlash dotted place
      searched
    obtain ⟨stem, suffix, whole, absent, rfl⟩ := Path.exists_of_dottedExtension? noSlash dotted
    rw [searchCandidates, dotted, Option.getD_some] at searched
    obtain ⟨directory, listed, rfl⟩ := List.mem_map.mp searched
    have redirects := redirects_of_mem_searchPaths loads plain whole absent listed
    exact ⟨directory, rfl, fun same => same ▸ redirects, redirects⟩

/-- A project file, reached through another directory, and a redirection file with a directory for
sources. -/
def withSources : Files :=
  [⟨⟨"/app/x/../App.cwproj"⟩, .bytes (Text.encode "<Project/>"), 0⟩,
    ⟨⟨"/app/x/../Clarion110.red"⟩, .bytes (Text.encode "*.CLW = src"), 0⟩]

/-- The project as it is loaded. -/
def sourcesInFolder : Project where
  name := "App"
  path := ⟨"/app/x/../App.cwproj"⟩
  directory := ⟨"/app/x/.."⟩
  file := {}
  sourceFiles := []
  entries := [Redirection.seed ⟨"/app/x/.."⟩,
    ⟨"Common", "*.CLW", [⟨"src"⟩], ⟨"/app/x/../Clarion110.red"⟩⟩]

theorem entries_withSources : Redirection.ofDirectory withSources.fileSystem {} ⟨"/app/x/.."⟩ =
    sourcesInFolder.entries := by
  have here : (withSources.filter fun file => file.path.parent?.any (·.same ⟨"/app/x/.."⟩)) =
      withSources := by
    decide +kernel
  have sorted : withSources.Pairwise fun left right => Files.nameLe left right := by
    decide +kernel
  have listed : withSources.fileSystem.list? ⟨"/app/x/.."⟩ = some (withSources.map File.path) := by
    simp only [Files.fileSystem, Files.inside, here, List.mergeSort_of_pairwise sorted]
    rfl
  have located : Redirection.locate? withSources.fileSystem {} ⟨"/app/x/.."⟩ =
      some ⟨"/app/x/../Clarion110.red"⟩ := by
    rw [Redirection.locate?, listed]
    decide +kernel
  rw [Redirection.ofDirectory, located]
  dsimp only
  rw [Redirection.ofFile_entries]
  decide +kernel

theorem load_withSources :
    load withSources.fileSystem {} ⟨"/app/x/../App.cwproj"⟩ none = .ok sourcesInFolder := by
  have has : withSources.fileSystem.has ⟨"/app/x/../App.cwproj"⟩ = true := by decide +kernel
  have read : withSources.fileSystem.read ⟨"/app/x/../App.cwproj"⟩ = .ok "<Project/>" := by
    decide +kernel
  have parsed : ProjectFile.parse "<Project/>" = .ok {} := by decide +kernel
  have directory : Path.parentOrHere ⟨"/app/x/../App.cwproj"⟩ = ⟨"/app/x/.."⟩ := by decide +kernel
  have stem : Path.stem? ⟨"/app/x/../App.cwproj"⟩ = some "App" := by decide +kernel
  simp only [load, has, read, parsed, directory, Except.mapError, bind, Except.bind]
  rw [entries_withSources, stem]
  rfl

theorem plain_sourcesInFolder : ∀ entry ∈ sourcesInFolder.entries, entry.HasPlainMask :=
  List.forall_mem_cons.mpr ⟨.inl rfl, List.forall_mem_singleton.mpr
    (.inr ⟨['C', 'L', 'W'], by decide, List.all_eq_true.mp rfl, rfl⟩)⟩

theorem sources_are_redirected :
    load withSources.fileSystem {} ⟨"/app/x/../App.cwproj"⟩ none = .ok sourcesInFolder ∧
      (∀ entry ∈ sourcesInFolder.entries, entry.HasPlainMask) ∧
      '/' ∉ "Main.clw".toList ∧ Path.dottedExtension? "Main.clw" = some ".clw" ∧
      (∀ entry ∈ sourcesInFolder.entries, entry.maskAccepts "Main.clw" =
        (entry.isWildcard || entry.matchesExtension ".clw")) ∧
      sourcesInFolder.searchCandidates {} "Main.clw" =
        [⟨"/app/x/../Main.clw"⟩, ⟨"/app/Main.clw"⟩, ⟨"/app/src/Main.clw"⟩] ∧
      ∀ place ∈ sourcesInFolder.searchCandidates {} "Main.clw", ∃ directory,
        place = directory.join ⟨"Main.clw"⟩ ∧
          sourcesInFolder.Redirects {} directory "Main.clw" := by
  have noSlash : '/' ∉ "Main.clw".toList := by decide
  have dotted : Path.dottedExtension? "Main.clw" = some ".clw" := by decide +kernel
  obtain ⟨rules, places⟩ := mask_rules_agree
  refine ⟨load_withSources, plain_sourcesInFolder, noSlash, dotted, ?_, by decide +kernel, ?_⟩
  · intro entry listed
    exact rules entry _ _ (plain_sourcesInFolder entry listed) noSlash dotted
  · intro place searched
    obtain ⟨directory, whole, redirects, -⟩ := places _ {} {} _ none sourcesInFolder _ _
      load_withSources plain_sourcesInFolder noSlash dotted place searched
    exact ⟨directory, whole, redirects (by decide +kernel)⟩

/-- With a blank at the end of the name the search paths still lead to the sources, and redirections
do not. -/
theorem trailing_blank_sets_rules_apart :
    load withSources.fileSystem {} ⟨"/app/x/../App.cwproj"⟩ none = .ok sourcesInFolder ∧
      (∀ entry ∈ sourcesInFolder.entries, entry.HasPlainMask) ∧
      '/' ∉ "a.clw ".toList ∧ Path.dottedExtension? "a.clw " = some ".clw " ∧
      ⟨"/app/src/a.clw "⟩ ∈ sourcesInFolder.searchCandidates {} "a.clw " ∧
      ∀ place ∈ sourcesInFolder.redirected {} "a.clw ",
        place.normalize ≠ Path.normalize ⟨"/app/src/a.clw "⟩ :=
  ⟨load_withSources, plain_sourcesInFolder, by decide, by decide +kernel, by decide +kernel,
    by decide +kernel⟩

end Project

end Clarion
