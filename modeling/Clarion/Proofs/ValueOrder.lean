import Clarion.Proofs.Cutting
import Clarion.Proofs.Names
import Clarion.Proofs.RedirectionMeaning
import Clarion.Proofs.Trimming
import Mathlib.Data.List.Chain

/-! The order in which the values of names are set. A name is looked up without regard to letter
case, and the table may hold two spellings of it: then the one that comes first counts. So the order
makes no difference as long as names that differ in case alone have one value; and with two values
for one name there is a redirection file that tells the orders apart. -/
namespace Clarion

/-- Names that differ in letter case alone have one value. -/
def Agreeing (table : List (String × String)) : Prop :=
  ∀ left ∈ table, ∀ right ∈ table, Text.sameFold left.1 right.1 → left.2 = right.2

instance (table : List (String × String)) : Decidable (Agreeing table) :=
  inferInstanceAs (Decidable (∀ left ∈ table, ∀ right ∈ table,
    Text.sameFold left.1 right.1 → left.2 = right.2))

namespace Settings

/-- The settings with another table of values. -/
def withTable (settings : Settings) (table : List (String × String)) : Settings :=
  { settings with macroValues := table }

variable {settings : Settings} {table : List (String × String)} {name value : String}

/-! ### Looking up a name -/

theorem macroValue?_cons_of_same {entry : String × String} (same : Text.sameFold entry.1 name) :
    (settings.withTable (entry :: table)).macroValue? name = some entry.2 := by
  simp [macroValue?, withTable, same]

/-- Where spellings agree, any spelling of a name gives its value. -/
theorem macroValue?_eq_some_iff (agreeing : Agreeing settings.macroValues) :
    settings.macroValue? name = some value ↔
      ∃ entry ∈ settings.macroValues, Text.sameFold entry.1 name ∧ entry.2 = value := by
  unfold macroValue?
  constructor
  · intro found
    obtain ⟨entry, first, gives⟩ := Option.map_eq_some_iff.mp found
    have same : Text.sameFold entry.1 name := by simpa using List.find?_some first
    exact ⟨entry, List.mem_of_find?_eq_some first, same, gives⟩
  · rintro ⟨entry, member, same, rfl⟩
    have found : (settings.macroValues.find? fun other => Text.sameFold other.1 name).isSome :=
      List.find?_isSome.mpr ⟨entry, member, same⟩
    obtain ⟨other, first⟩ := Option.isSome_iff_exists.mp found
    have otherSame : Text.sameFold other.1 name := by simpa using List.find?_some first
    have together := Outline.sameFold_trans otherSame (Outline.sameFold_symm same)
    rw [first, Option.map_some,
      agreeing other (List.mem_of_find?_eq_some first) entry member together]

theorem macroValue?_perm (agreeing : Agreeing settings.macroValues)
    (order : table.Perm settings.macroValues) (name : String) :
    (settings.withTable table).macroValue? name = settings.macroValue? name := by
  have reordered : Agreeing (settings.withTable table).macroValues := by
    intro left leftMember right rightMember
    exact agreeing left (order.subset leftMember) right (order.subset rightMember)
  apply Option.ext
  intro value
  rw [macroValue?_eq_some_iff agreeing, macroValue?_eq_some_iff reordered]
  exact exists_congr fun entry => and_congr_left' order.mem_iff

/-- Any entry can come first. -/
theorem exists_perm_first {entry : String × String} (member : entry ∈ settings.macroValues) :
    ∃ rest, (entry :: rest).Perm settings.macroValues :=
  ⟨settings.macroValues.erase entry, (List.perm_cons_erase member).symm⟩

/-- The value of a name does not depend on the order exactly where spellings agree. -/
theorem macroValue?_perm_iff :
    (∀ table : List (String × String), table.Perm settings.macroValues →
      ∀ name, (settings.withTable table).macroValue? name = settings.macroValue? name) ↔
      Agreeing settings.macroValues := by
  constructor
  · intro same left leftMember right rightMember together
    obtain ⟨leftRest, leftFirst⟩ := exists_perm_first leftMember
    obtain ⟨rightRest, rightFirst⟩ := exists_perm_first rightMember
    have byLeft := same _ leftFirst right.1
    have byRight := same _ rightFirst right.1
    rw [macroValue?_cons_of_same together] at byLeft
    rw [macroValue?_cons_of_same (Outline.sameFold_iff.mpr rfl)] at byRight
    exact Option.some.inj (byLeft.trans byRight.symm)
  · intro agreeing table order
    exact macroValue?_perm agreeing order

end Settings

namespace Redirection

variable {files : FileSystem} {settings other : Settings} {table : List (String × String)}
  {root directory : Path} {name value : String}

/-! ### Reading under other settings -/

theorem expand_withTable
    (values : ∀ name, (settings.withTable table).macroValue? name = settings.macroValue? name)
    (root : Path) (text : String) :
    expand (settings.withTable table) root text = expand settings root text := by
  have names : nameValue? (settings.withTable table) root = nameValue? settings root := by
    funext name
    rw [nameValue?, nameValue?, values]
    rfl
  rw [expand, expand, names]

/-- Settings have a part in a redirection file only through the texts with values in place of
names. -/
theorem fileEntries_congr (same : ∀ text, expand other root text = expand settings root text)
    (depth : Nat) (chain : List Path) (path : Path) :
    fileEntries files other root depth chain path =
      fileEntries files settings root depth chain path := by
  rw [fileEntries, fileEntries]
  by_cases guard : maxDepth < depth ∨ (chainKey path).isIn chain
  · rw [if_pos guard, if_pos guard]
  · have shallow := Nat.not_lt.mp (not_or.mp guard).1
    have deeper (inner : Path) :
        fileEntries files other root (depth + 1) (chainKey path :: chain) inner =
          fileEntries files settings root (depth + 1) (chainKey path :: chain) inner :=
      fileEntries_congr same (depth + 1) _ inner
    have line (lines : List String) (index : Nat) :
        lineEntries other root path
            (fileEntries files other root (depth + 1) (chainKey path :: chain)) lines index =
          lineEntries settings root path
            (fileEntries files settings root (depth + 1) (chainKey path :: chain)) lines index := by
      simp only [lineEntries, assignedPaths, includedPath, same, deeper]
    simp only [if_neg guard, contentEntries, funext (line _)]
termination_by maxDepth + 1 - depth

/-- What a redirection file gives does not depend on the order in which the values were set. -/
def OrderFree (settings : Settings) : Prop :=
  ∀ table : List (String × String), table.Perm settings.macroValues →
    ∀ files root directory,
      ofFile files (settings.withTable table) root directory =
        ofFile files settings root directory

theorem orderFree_of_agreeing (agreeing : Agreeing settings.macroValues) : OrderFree settings := by
  intro table order files root directory
  have same := expand_withTable (Settings.macroValue?_perm agreeing order) root
  rw [ofFile_entries, ofFile_entries, fileEntries_congr same]

/-! ### Asking for one value -/

/-- Two dashes in a row begin a comment. -/
def NoComment (chars : List Char) : Prop :=
  chars.IsChain fun c d => c = '-' → d ≠ '-'

/-- The name can stand between percent signs in the paths of an assignment. -/
structure Writable (name : String) : Prop where
  nonempty : name.toList ≠ []
  plain : ∀ c ∈ name.toList, Text.isBlank c = false ∧ c ≠ '%' ∧ c ≠ ';'
  noComment : NoComment name.toList

/-- A name as it stands for its value. -/
def quoted (name : String) : String := "%" ++ name ++ "%"

/-- An assignment of just the value of a name. -/
def question (name : String) : String := "*.*=" ++ quoted name

/-- Files that all ask for the value of one name. -/
def asking (name : String) : FileSystem where
  has _ := true
  read _ := .ok (question name)
  modified? _ := none
  list? _ := none

theorem beforeDashes_of_noComment {chars : List Char} (noComment : NoComment chars) :
    beforeDashes chars = chars := by
  induction chars with
  | nil => rfl
  | cons c rest ih =>
    obtain ⟨here, later⟩ := List.isChain_cons.mp noComment
    rw [beforeDashes, ih later]
    rintro after rfl rfl
    exact here '-' rfl rfl rfl

theorem quoted_toList (name : String) : (quoted name).toList = '%' :: name.toList ++ ['%'] := by
  simp [quoted]

theorem question_toList (name : String) :
    (question name).toList = "*.*=".toList ++ (quoted name).toList := by
  simp [question]

theorem Writable.noComment_question (writable : Writable name) :
    NoComment (question name).toList := by
  have front : NoComment "*.*=%".toList := by
    simp [NoComment]
  have back : NoComment (name.toList ++ ['%']) :=
    writable.noComment.append (List.isChain_singleton _) (by simp)
  have parts : (question name).toList = "*.*=%".toList ++ (name.toList ++ ['%']) := by
    simp [question_toList, quoted_toList]
  rw [parts]
  exact front.append back (by simp)

theorem Writable.plain_quoted (writable : Writable name) :
    ∀ c ∈ (quoted name).toList, Text.isBlank c = false ∧ c ≠ ';' := by
  rw [quoted_toList]
  intro c member
  rcases List.mem_append.mp member with front | last
  · rcases List.mem_cons.mp front with rfl | inside
    · decide
    · exact ⟨(writable.plain c inside).1, (writable.plain c inside).2.2⟩
  · rw [List.mem_singleton.mp last]
    decide

theorem trimChars_quoted (name : String) :
    Text.trimChars (quoted name).toList = (quoted name).toList := by
  rw [quoted_toList]
  exact Text.trimChars_of_ends (by decide) (by decide) _

theorem trimChars_question (name : String) :
    Text.trimChars (question name).toList = (question name).toList := by
  have ends : (question name).toList = '*' :: (".*=%".toList ++ name.toList) ++ ['%'] := by
    simp [question_toList, quoted_toList]
  rw [ends]
  exact Text.trimChars_of_ends (by decide) (by decide) _

theorem percentName?_quoted (writable : Writable name) :
    percentName? (quoted name).toList = some (name.toList, []) := by
  have whole : (name.toList ++ ['%']).takeWhile (fun c => c != '%' && !Text.isBlank c) =
      name.toList := by
    rw [List.takeWhile_append_of_pos]
    · simp
    · intro c member
      simp [(writable.plain c member).1, (writable.plain c member).2.1]
  rw [quoted_toList, List.cons_append, percentName?, whole, List.drop_left]
  simp [writable.nonempty]

theorem expand_quoted (writable : Writable name) (known : settings.macroValue? name = some value) :
    expand settings root (quoted name) = value := by
  have here := percentName?_quoted writable
  have given : nameValue? settings root name = some value := by
    rw [nameValue?, known]
  rw [quoted_toList, List.cons_append] at here
  rw [expand, quoted_toList, List.cons_append, List.length_cons, expandChars, here]
  cases (name.toList ++ ['%']).length <;> simp [given, expandChars]

theorem assignedPaths_quoted (writable : Writable name)
    (known : settings.macroValue? name = some value) :
    assignedPaths settings root (quoted name) = [(Path.ofProjectText value).normalize] := by
  have onePart : Text.splitWhere (· == ';') (quoted name) = [quoted name] := by
    rw [Text.splitWhere, Text.splitChars_of_none]
    · simp
    · intro c member
      simpa using (writable.plain_quoted c member).2
  have trimmed : Text.trim (quoted name) = quoted name := by
    rw [Text.trim, trimChars_quoted, String.ofList_toList]
  have written : (quoted name).isEmpty = false := by
    simp [quoted]
  simp [assignedPaths, onePart, trimmed, written, expand_quoted writable known]

theorem parse?_question (writable : Writable name) :
    Line.parse? (question name) = some (.assignment everyFile (quoted name)) := by
  have kept := beforeDashes_of_noComment writable.noComment_question
  have cut : Text.cutChars '=' (question name).toList =
      some ("*.*".toList, (quoted name).toList) := by
    rw [question_toList]
    rfl
  have noHeader : between? '[' ']' (question name).toList = none := by
    rw [question_toList]
    rfl
  have noInclusion : between? '\x7b' '\x7d' (question name).toList = none := by
    rw [question_toList]
    rfl
  have written : (question name).toList.isEmpty = false := by
    rw [question_toList]
    rfl
  have mask : Text.trimChars "*.*".toList = "*.*".toList := by decide
  simp only [Line.parse?, kept, trimChars_question, written, noHeader, noInclusion, cut, mask,
    trimChars_quoted, String.ofList_toList]
  rfl

theorem lines_question (writable : Writable name) :
    Text.lines (question name) = [question name] := by
  have front : ∀ c ∈ "*.*=".toList, (c == '\n') = false := by simp
  have back : ∀ c ∈ (quoted name).toList, (c == '\n') = false := by
    intro c member
    refine beq_false_of_ne ?_
    rintro rfl
    exact absurd (writable.plain_quoted _ member).1 (by decide)
  have oneLine : Text.splitChars (· == '\n') (question name).toList = [(question name).toList] := by
    rw [question_toList]
    exact Text.splitChars_of_none (List.forall_mem_append.mpr ⟨front, back⟩)
  have written : (question name).toList.isEmpty = false := by
    rw [question_toList]
    rfl
  rw [Text.lines, oneLine]
  simp [written]

theorem ofFile_asking (writable : Writable name) (known : settings.macroValue? name = some value) :
    ofFile (asking name) settings root directory =
      [seed directory,
        ⟨commonHeading, everyFile, [(Path.ofProjectText value).normalize], root⟩] := by
  have content : content? (asking name) root = some (question name) := rfl
  rw [ofFile_entries, fileEntries, content]
  simp [Path.isIn, contentEntries, lines_question writable, lineEntries, parse?_question writable,
    assignedPaths_quoted writable known]

theorem not_orderFree_of_two_values {left right : String × String}
    (leftMember : left ∈ settings.macroValues) (rightMember : right ∈ settings.macroValues)
    (together : Text.sameFold left.1 right.1) (writable : Writable right.1)
    (differ : (Path.ofProjectText left.2).normalize ≠ (Path.ofProjectText right.2).normalize) :
    ¬OrderFree settings := by
  intro free
  obtain ⟨leftRest, leftFirst⟩ := Settings.exists_perm_first leftMember
  obtain ⟨rightRest, rightFirst⟩ := Settings.exists_perm_first rightMember
  have itself : Text.sameFold right.1 right.1 := Outline.sameFold_iff.mpr rfl
  -- One name is asked for twice, and answered by whichever of the two comes first.
  have same := (free _ leftFirst (asking right.1) ⟨"red"⟩ ⟨"."⟩).trans
    (free _ rightFirst (asking right.1) ⟨"red"⟩ ⟨"."⟩).symm
  rw [ofFile_asking writable (Settings.macroValue?_cons_of_same together),
    ofFile_asking writable (Settings.macroValue?_cons_of_same itself)] at same
  simp [differ] at same

/-- When the order of the values makes a difference. The value of every name is free of it exactly
where names that differ in case alone have one value, and then all redirection files are read alike
in any order. Two values for one name that stand for different directories make a file that is
not. -/
theorem order_matters_for_two_values (settings : Settings) :
    ((∀ table : List (String × String), table.Perm settings.macroValues →
        ∀ name, (settings.withTable table).macroValue? name = settings.macroValue? name) ↔
      Agreeing settings.macroValues) ∧
    (Agreeing settings.macroValues → OrderFree settings) ∧
    ∀ left ∈ settings.macroValues, ∀ right ∈ settings.macroValues,
      Text.sameFold left.1 right.1 → Writable right.1 →
      (Path.ofProjectText left.2).normalize ≠ (Path.ofProjectText right.2).normalize →
        ¬OrderFree settings := by
  refine ⟨Settings.macroValue?_perm_iff, orderFree_of_agreeing, ?_⟩
  intro left leftMember right rightMember together writable differ
  exact not_orderFree_of_two_values leftMember rightMember together writable differ

/-- Settings that give a name a value in each of two spellings. -/
def twoSpellings (small capital : String) : Settings :=
  { macroValues := [("lib", small), ("LIB", capital)] }

theorem capital_writable : Writable "LIB" where
  nonempty := by decide
  plain := by simp [Text.isBlank]
  noComment := by simp [NoComment]

theorem two_spellings_need_one_value :
    OrderFree (twoSpellings "one" "one") ∧ ¬OrderFree (twoSpellings "one" "two") := by
  constructor
  · exact (order_matters_for_two_values (twoSpellings "one" "one")).2.1 (by decide)
  · exact (order_matters_for_two_values (twoSpellings "one" "two")).2.2 ("lib", "one") (by decide)
      ("LIB", "two") (by decide) (by decide) capital_writable (by decide +kernel)

theorem distinct_names_are_not_enough :
    ¬∀ settings : Settings, (settings.macroValues.map Prod.fst).Nodup → OrderFree settings := by
  intro claimed
  have left : ("lib", "one") ∈ (twoSpellings "one" "two").macroValues := by decide
  have right : ("LIB", "two") ∈ (twoSpellings "one" "two").macroValues := by decide
  exact not_orderFree_of_two_values left right (by decide) capital_writable (by decide +kernel)
    (claimed _ (by decide))

end Redirection
end Clarion
