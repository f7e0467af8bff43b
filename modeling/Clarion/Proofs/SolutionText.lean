import Clarion.Solution.SolutionFile
import Mathlib.Data.List.Basic
import Mathlib.Data.List.TakeWhile

/-! Solution files read back. A solution file is a header and then two lines for each project, the
first with four texts in quotes. Reading it gives these texts again, whatever stands in them and in
the header apart from quotes: blanks between lines may belong to the front of a project line, but a
word that stands before a quote cannot start in text without quotes. -/
namespace Clarion.SolutionFile

variable {fields : Fields} {projects : List Fields} {lineEnd front body rest : List Char}

/-! ### The text of a solution file -/

/-- None of the four texts holds a quote. -/
structure Fields.QuoteFree (fields : Fields) : Prop where
  typeGuid : '"' ∉ fields.typeGuid
  name : '"' ∉ fields.name
  path : '"' ∉ fields.path
  guid : '"' ∉ fields.guid

instance (fields : Fields) : Decidable fields.QuoteFree :=
  decidable_of_iff ('"' ∉ fields.typeGuid ∧ '"' ∉ fields.name ∧ '"' ∉ fields.path ∧ '"' ∉ fields.guid)
    ⟨fun free => ⟨free.1, free.2.1, free.2.2.1, free.2.2.2⟩,
      fun free => ⟨free.typeGuid, free.name, free.path, free.guid⟩⟩

/-- A text in quotes. -/
def inQuotes (text : List Char) : List Char :=
  '"' :: text ++ ['"']

/-- A project line, without its end. -/
def projectLine (fields : Fields) : List Char :=
  "Project(".toList ++ inQuotes fields.typeGuid ++ [')'] ++
    " = ".toList ++ inQuotes fields.name ++ ", ".toList ++ inQuotes fields.path ++
    ", ".toList ++ inQuotes fields.guid

/-- What stands between two project lines. -/
def closing (lineEnd : List Char) : List Char :=
  lineEnd ++ "EndProject".toList ++ lineEnd

/-- The lines of the projects. -/
def written (lineEnd : List Char) (projects : List Fields) : List Char :=
  projects.flatMap fun fields => projectLine fields ++ closing lineEnd

/-! ### One project line -/

theorem quoted?_inQuotes {text : List Char} (quoteFree : '"' ∉ text) (rest : List Char) :
    quoted? (inQuotes text ++ rest) = some (text, rest) := by
  have plain : ∀ c ∈ text, (c != '"') = true := by
    intro c member
    simpa using fun quote : c = '"' => quoteFree (quote ▸ member)
  have spelled : inQuotes text ++ rest = '"' :: (text ++ '"' :: rest) := by simp [inQuotes]
  have dropped : (text ++ '"' :: rest).dropWhile (· != '"') = '"' :: rest := by
    rw [List.dropWhile_append_of_pos plain]
    rfl
  have taken : (text ++ '"' :: rest).takeWhile (· != '"') = text := by
    rw [List.takeWhile_append_of_pos plain, List.takeWhile_cons_of_neg (by simp), List.append_nil]
  rw [spelled, quoted?, dropped, taken]

theorem quoted?_of_ne {c : Char} (noQuote : c ≠ '"') (rest : List Char) :
    quoted? (c :: rest) = none := by
  unfold quoted?
  split
  · rename_i same
    cases same
    exact absurd rfl noQuote
  · rfl

theorem afterWord?_append (word rest : List Char) : afterWord? word (word ++ rest) = some rest := by
  induction word with
  | nil => rfl
  | cons c word ih => rw [List.cons_append, afterWord?, if_pos rfl, ih]

theorem signedQuote?_equals {text : List Char} (quoteFree : '"' ∉ text) (rest : List Char) :
    signedQuote? '=' (" = ".toList ++ inQuotes text ++ rest) = some (text, rest) := by
  rw [← quoted?_inQuotes quoteFree rest]
  rfl

theorem signedQuote?_comma {text : List Char} (quoteFree : '"' ∉ text) (rest : List Char) :
    signedQuote? ',' (", ".toList ++ inQuotes text ++ rest) = some (text, rest) := by
  rw [← quoted?_inQuotes quoteFree rest]
  rfl

theorem projectLine_append (fields : Fields) (rest : List Char) :
    projectLine fields ++ rest =
      "Project(".toList ++ (inQuotes fields.typeGuid ++ ([')'] ++
        (" = ".toList ++ inQuotes fields.name ++ (", ".toList ++ inQuotes fields.path ++
          (", ".toList ++ inQuotes fields.guid ++ rest))))) := by
  unfold projectLine
  simp only [List.append_assoc]

/-- A project line is read piece by piece. -/
theorem projectLine?_of_pieces {chars typeGuid name path guid afterHead afterType afterSign afterName
    afterPath rest : List Char}
    (head : afterWord? "Project(".toList (chars.dropWhile Text.isBlank) = some afterHead)
    (readType : quoted? afterHead = some (typeGuid, afterType))
    (sign : afterWord? [')'] afterType = some afterSign)
    (readName : signedQuote? '=' afterSign = some (name, afterName))
    (readPath : signedQuote? ',' afterName = some (path, afterPath))
    (readGuid : signedQuote? ',' afterPath = some (guid, rest)) :
    projectLine? chars = some (⟨typeGuid, name, path, guid⟩, rest) := by
  change (afterWord? "Project(".toList (chars.dropWhile Text.isBlank) >>= _) = _
  simp only [head, readType, sign, readName, readPath, readGuid, Option.bind_eq_bind,
    Option.bind_some, Option.pure_def]

/-- A project line gives its four texts. -/
theorem projectLine?_projectLine (quoteFree : fields.QuoteFree) (rest : List Char) :
    projectLine? (projectLine fields ++ rest) = some (fields, rest) := by
  have noBlank (later : List Char) : ("Project(".toList ++ later).dropWhile Text.isBlank =
      "Project(".toList ++ later := List.dropWhile_cons_of_neg (by decide)
  rw [projectLine_append]
  refine projectLine?_of_pieces ?_ (quoted?_inQuotes quoteFree.typeGuid _) (afterWord?_append _ _)
    (signedQuote?_equals quoteFree.name _) (signedQuote?_comma quoteFree.path _)
    (signedQuote?_comma quoteFree.guid _)
  rw [noBlank, afterWord?_append]

/-- Blanks before a project line make no difference. -/
theorem projectLine?_blanks {blanks : List Char} (blank : ∀ c ∈ blanks, Text.isBlank c)
    (rest : List Char) : projectLine? (blanks ++ rest) = projectLine? rest := by
  change (afterWord? "Project(".toList ((blanks ++ rest).dropWhile Text.isBlank) >>= _) = _
  rw [List.dropWhile_append_of_pos blank]
  rfl

/-! ### Text without quotes -/

/-- A word that ends inside a text ends before its last character, when that is no character of the
word. -/
theorem afterWord?_within {word text rest after : List Char} {last : Char}
    (found : afterWord? word (text ++ rest) = some after) (ends : text.getLast? = some last)
    (apart : last ∉ word) : ∃ left, left ≠ [] ∧ left <:+ text ∧ after = left ++ rest := by
  induction word generalizing text with
  | nil =>
    cases found
    refine ⟨text, fun empty => ?_, List.suffix_refl text, rfl⟩
    rw [empty] at ends
    cases ends
  | cons c word ih =>
    cases text with
    | nil => cases ends
    | cons d text =>
      obtain ⟨here, later⟩ := not_or.mp (mt List.mem_cons.mpr apart)
      rw [List.cons_append, afterWord?] at found
      split at found
      · rename_i same
        have more : text.getLast? = some last := by
          cases text with
          | nil =>
            cases ends
            exact absurd same.symm here
          | cons e text => simpa using ends
        obtain ⟨left, some, suffix, split⟩ := ih found more later
        exact ⟨left, some, suffix.trans (List.suffix_cons d text), split⟩
      · cases found

/-- No project line starts in text without quotes, unless nothing but blanks are left of it. -/
theorem projectLine?_front (quoteFree : '"' ∉ front) (ends : front.getLast? = some '\n')
    (word : ∃ c ∈ front, ¬Text.isBlank c) (body : List Char) :
    projectLine? (front ++ body) = none := by
  -- What is left after the blanks still ends in the line feed.
  have worded : front.dropWhile Text.isBlank ≠ [] := by simpa [List.dropWhile_eq_nil_iff] using word
  have suffix := List.dropWhile_suffix Text.isBlank (l := front)
  have leftEnds : (front.dropWhile Text.isBlank).getLast? = some '\n' := by
    obtain ⟨blanks, whole⟩ := suffix
    rwa [← whole, List.getLast?_append, List.getLast?_eq_some_getLast worded, Option.some_or,
      ← List.getLast?_eq_some_getLast worded] at ends
  have split : (front ++ body).dropWhile Text.isBlank = front.dropWhile Text.isBlank ++ body := by
    rw [List.dropWhile_append, if_neg (by simpa using word)]
  change (afterWord? "Project(".toList ((front ++ body).dropWhile Text.isBlank) >>= _) = _
  rw [split]
  cases found : afterWord? "Project(".toList (front.dropWhile Text.isBlank ++ body) with
  | none => rfl
  | some after =>
    have apart : '\n' ∉ "Project(".toList := by decide
    obtain ⟨left, nonempty, within, rfl⟩ := afterWord?_within found leftEnds apart
    obtain ⟨c, others, rfl⟩ := List.exists_cons_of_ne_nil nonempty
    have noQuote : c ≠ '"' := by
      rintro rfl
      exact quoteFree ((within.trans suffix).subset List.mem_cons_self)
    rw [Option.bind_eq_bind, Option.bind_some, List.cons_append, quoted?_of_ne noQuote]
    rfl

/-! ### All project lines -/

theorem afterWord?_suffix {word chars after : List Char} (found : afterWord? word chars = some after) :
    after <:+ chars := by
  induction word generalizing chars with
  | nil =>
    cases found
    exact List.suffix_refl _
  | cons c word ih =>
    cases chars with
    | nil => cases found
    | cons d chars =>
      rw [afterWord?] at found
      split at found
      · exact (ih found).trans (List.suffix_cons d chars)
      · cases found

theorem projectLine?_quoteFree {chars : List Char} (quoteFree : '"' ∉ chars) :
    projectLine? chars = none := by
  change (afterWord? "Project(".toList (chars.dropWhile Text.isBlank) >>= _) = _
  cases found : afterWord? "Project(".toList (chars.dropWhile Text.isBlank) with
  | none => rfl
  | some after =>
    have within := (afterWord?_suffix found).trans (List.dropWhile_suffix Text.isBlank)
    cases after with
    | nil => rfl
    | cons c others =>
      have noQuote : c ≠ '"' := by
        rintro rfl
        exact quoteFree (within.subset List.mem_cons_self)
      rw [Option.bind_eq_bind, Option.bind_some, quoted?_of_ne noQuote]
      rfl

theorem fieldsFrom_line {chars : List Char} (found : projectLine? chars = some (fields, rest))
    (fuel : Nat) : fieldsFrom (fuel + 1) true chars = fields :: fieldsFrom fuel false rest := by
  conv =>
    lhs
    unfold fieldsFrom
  rw [if_pos rfl, found]

theorem fieldsFrom_step {c : Char} {atStart : Bool}
    (noLine : atStart = false ∨ projectLine? (c :: rest) = none) (fuel : Nat) :
    fieldsFrom (fuel + 1) atStart (c :: rest) = fieldsFrom fuel (c == '\n') rest := by
  have nothing : (if atStart then projectLine? (c :: rest) else none) = none := by
    rcases noLine with inside | none
    · rw [inside]
      rfl
    · rw [none, ite_self]
  conv =>
    lhs
    unfold fieldsFrom
  rw [nothing]

theorem fieldsFrom_quoteFree {chars : List Char} (quoteFree : '"' ∉ chars) (fuel : Nat)
    (atStart : Bool) : fieldsFrom fuel atStart chars = [] := by
  induction fuel generalizing chars atStart with
  | zero => rfl
  | succ fuel ih =>
    cases chars with
    | nil => cases atStart <;> rfl
    | cons c rest =>
      rw [fieldsFrom_step (.inr (projectLine?_quoteFree quoteFree))]
      exact ih (fun quote => quoteFree (List.mem_cons_of_mem c quote)) _

/-- Text without quotes that ends where a line starts is passed over, up to the project line after
it. -/
theorem fieldsFrom_front (quoteFree : fields.QuoteFree) (frontFree : '"' ∉ front) {atStart : Bool}
    (ends : front.getLast? = some '\n' ∨ front = [] ∧ atStart = true) (rest : List Char) {fuel : Nat}
    (enough : (front ++ (projectLine fields ++ rest)).length < fuel) :
    ∃ left, rest.length < left ∧ fieldsFrom fuel atStart (front ++ (projectLine fields ++ rest)) =
      fields :: fieldsFrom left false rest := by
  have line := projectLine?_projectLine quoteFree rest
  have long : 0 < (projectLine fields).length :=
    List.length_pos_of_ne_nil (List.append_ne_nil_of_right_ne_nil _ (List.cons_ne_nil _ _))
  induction front generalizing atStart fuel with
  | nil =>
    obtain ⟨-, rfl⟩ := ends.resolve_left (by simp)
    obtain ⟨left, rfl⟩ := Nat.exists_eq_add_one_of_ne_zero (Nat.ne_of_gt (Nat.zero_lt_of_lt enough))
    refine ⟨left, ?_, fieldsFrom_line line left⟩
    simp only [List.length_append, List.length_nil] at enough
    omega
  | cons c front ih =>
    obtain ⟨left, rfl⟩ := Nat.exists_eq_add_one_of_ne_zero (Nat.ne_of_gt (Nat.zero_lt_of_lt enough))
    by_cases reads : atStart = true ∧ ∀ d ∈ c :: front, Text.isBlank d = true
    · obtain ⟨rfl, blank⟩ := reads
      refine ⟨left, ?_, fieldsFrom_line ((projectLine?_blanks blank _).trans line) left⟩
      simp only [List.length_append, List.length_cons] at enough
      omega
    · have noLine : atStart = false ∨ projectLine? (c :: front ++ (projectLine fields ++ rest)) = none := by
        cases atStart with
        | false => exact .inl rfl
        | true =>
          refine .inr (projectLine?_front frontFree (ends.resolve_right (by simp)) ?_ _)
          simpa only [true_and, not_forall, exists_prop] using reads
      rw [List.cons_append] at noLine enough ⊢
      rw [fieldsFrom_step noLine]
      refine ih (fun quote => frontFree (List.mem_cons_of_mem c quote)) ?_ ?_
      · have whole := ends.resolve_right (by simp)
        cases front with
        | nil => exact .inr ⟨rfl, by simpa using whole⟩
        | cons d front => exact .inl (by simpa using whole)
      · simp only [List.length_cons] at enough
        omega

/-- The lines of projects give their texts, after any text without quotes. -/
theorem fieldsFrom_written (quoteFree : ∀ fields ∈ projects, fields.QuoteFree)
    (breaks : lineEnd.getLast? = some '\n') (plain : '"' ∉ lineEnd) {atStart : Bool}
    (frontFree : '"' ∉ front) (ends : front.getLast? = some '\n') {fuel : Nat}
    (enough : (front ++ written lineEnd projects).length < fuel) :
    fieldsFrom fuel atStart (front ++ written lineEnd projects) = projects := by
  induction projects generalizing front atStart fuel with
  | nil =>
    rw [written, List.flatMap_nil, List.append_nil]
    exact fieldsFrom_quoteFree frontFree fuel atStart
  | cons fields projects ih =>
    obtain ⟨here, later⟩ := List.forall_mem_cons.mp quoteFree
    have spelled : written lineEnd (fields :: projects) =
        projectLine fields ++ (closing lineEnd ++ written lineEnd projects) := by
      rw [written, List.flatMap_cons, List.append_assoc]
      rfl
    rw [spelled] at enough ⊢
    obtain ⟨left, room, read⟩ := fieldsFrom_front here frontFree (.inl ends) _ enough
    have closingFree : '"' ∉ closing lineEnd := by simp [closing, plain]
    have closingEnds : (closing lineEnd).getLast? = some '\n' := by
      rw [closing, List.getLast?_append, breaks, Option.some_or]
    rw [read, ih later closingFree closingEnds room]

/-- Reading a header and then two lines for each project gives the projects of the language, in
order, whatever the four texts of each hold apart from quotes. -/
theorem written_solution_reads_back (header lineEnd : List Char)
    (projects : List Fields) (path : Path) (headerFree : '"' ∉ header)
    (headerEnds : header.getLast? = some '\n') (breaks : lineEnd ∈ [['\n'], ['\r', '\n']])
    (quoteFree : ∀ fields ∈ projects, fields.QuoteFree) :
    parse (String.ofList (header ++ written lineEnd projects)) path =
      (projects.filter fun fields =>
        Text.endsWithFold (String.ofList (Text.trimChars fields.path)) ".cwproj").map fun fields =>
        let relativePath := String.ofList (Text.trimChars fields.path)
        { typeGuid := Uuid.parse? (String.ofList fields.typeGuid)
          name := String.ofList (Text.trimChars fields.name)
          relativePath
          path := path.parentOrHere.resolveAgainst (.ofProjectText relativePath)
          guid := Uuid.parse? (String.ofList fields.guid) } := by
  obtain ⟨ends, plain⟩ : lineEnd.getLast? = some '\n' ∧ '"' ∉ lineEnd := by
    simp only [List.mem_cons, List.not_mem_nil, or_false] at breaks
    rcases breaks with rfl | rfl <;> decide
  rw [parse, String.toList_ofList,
    fieldsFrom_written quoteFree ends plain headerFree headerEnds (Nat.lt_succ_self _),
    ← List.filterMap_eq_map, List.filterMap_filter]
  refine List.filterMap_congr fun fields _ => ?_
  rw [entryOf?]
  rfl

/-- A project, a folder, and a project whose texts look like the start of another line. -/
def threeEntries : List Fields :=
  [⟨"{12B76EC0-1D7B-4FA7-A7D0-C524288B48A1}".toList, " Invoice\t".toList,
      "Invoice\\Invoice.cwproj".toList, "A1B2C3D4000011112222333344445555".toList⟩,
    ⟨"{2150E333-8FDC-42A3-9474-1A3956D46DE8}".toList, "Docs".toList, "Docs".toList, "".toList⟩,
    ⟨"\nProject(".toList, "EndProject\nLib".toList, "..\\Lib.CWPROJ ".toList,
      "not-a-guid".toList⟩]

theorem threeEntries_read_back :
    let header := "Visual Studio Solution File\r\n  Project(\r\n\r\n".toList
    let path : Path := ⟨"/work/app/App.sln"⟩
    '"' ∉ header ∧ header.getLast? = some '\n' ∧ (∀ fields ∈ threeEntries, fields.QuoteFree) ∧
      parse (String.ofList (header ++ written ['\r', '\n'] threeEntries)) path =
        [⟨some ⟨"12b76ec01d7b4fa7a7d0c524288b48a1".toList⟩, "Invoice", "Invoice\\Invoice.cwproj",
            ⟨"/work/app/Invoice/Invoice.cwproj"⟩, some ⟨"a1b2c3d4000011112222333344445555".toList⟩⟩,
          ⟨none, "EndProject\nLib", "..\\Lib.CWPROJ", ⟨"/work/Lib.CWPROJ"⟩, none⟩] := by
  intro header path
  have headerFree : '"' ∉ header := by decide +kernel
  have headerEnds : header.getLast? = some '\n' := by decide +kernel
  have quoteFree : ∀ fields ∈ threeEntries, fields.QuoteFree := by decide +kernel
  refine ⟨headerFree, headerEnds, quoteFree, ?_⟩
  have read := written_solution_reads_back header ['\r', '\n'] threeEntries path headerFree
    headerEnds (by decide) quoteFree
  exact read.trans (by decide +kernel)

end Clarion.SolutionFile
