import Clarion.Proofs.InclusionChain

/-! What a redirection file means. Its entries are what its lines give, one after the other: an
assignment gives one entry under the nearest header above it in its own file, an inclusion gives the
entries of the file it names, and every other line gives nothing. This meaning is put together from
those of the files taken in, and nothing is passed along. The reading carries one list of entries
and one chain of files through all its calls, and comes to the same entries. -/
namespace Clarion.Redirection

variable {files : FileSystem} {settings : Settings} {root path : Path} {lines : List String}
  {entriesOf : Path → List Redirection}

/-! ### What lines give -/

/-- The name in a line that is a header. -/
def headerName? (raw : String) : Option String :=
  match Line.parse? raw with
  | some (.header name) => some name
  | _ => none

/-- The heading that a line stands under: the nearest header above it. -/
def headingAt (lines : List String) (index : Nat) : String :=
  ((lines.take index).reverse.findSome? headerName?).getD commonHeading

/-- What one line of a file gives, where `entriesOf` says what a file gives that is taken in. -/
def lineEntries (settings : Settings) (root path : Path) (entriesOf : Path → List Redirection)
    (lines : List String) (index : Nat) : List Redirection :=
  match lines[index]?.bind Line.parse? with
  | some (.assignment mask paths) =>
    [⟨headingAt lines index, mask, assignedPaths settings root paths, path⟩]
  | some (.inclusion target) => entriesOf (includedPath settings root path target)
  | _ => []

/-- What the lines of a file give, one after the other. -/
def contentEntries (settings : Settings) (root path : Path) (entriesOf : Path → List Redirection)
    (lines : List String) : List Redirection :=
  (List.range lines.length).flatMap (lineEntries settings root path entriesOf lines)

/-- The text of a file that is there and can be read. -/
def content? (files : FileSystem) (path : Path) : Option String :=
  if files.has path then (files.read path).toOption else none

/-- What a file gives that stands `depth` inclusions deep, while the files with the keys of the
chain are being read: nothing if it is too deep, on the chain, not there or not readable. -/
def fileEntries (files : FileSystem) (settings : Settings) (root : Path) (depth : Nat)
    (chain : List Path) (path : Path) : List Redirection :=
  if maxDepth < depth ∨ (chainKey path).isIn chain then []
  else
    match content? files path with
    | none => []
    | some content =>
      contentEntries settings root path
        (fun inner => fileEntries files settings root (depth + 1) (chainKey path :: chain) inner)
        (Text.lines content)
termination_by maxDepth + 1 - depth

@[simp] theorem headingAt_zero (lines : List String) : headingAt lines 0 = commonHeading :=
  rfl

theorem headingAt_next (above below : List String) (raw : String) :
    headingAt (above ++ raw :: below) (above.length + 1) =
      (headerName? raw).getD (headingAt (above ++ raw :: below) above.length) := by
  have passed : (above ++ raw :: below).take (above.length + 1) = above ++ [raw] := by
    rw [List.append_cons, List.take_left' (by simp)]
  rw [headingAt, headingAt, passed, List.take_left, List.reverse_concat, List.findSome?_cons]
  cases headerName? raw <;> rfl

/-- Lines with the same headers in the same places have the same headings. -/
theorem headingAt_congr {left right : List String}
    (same : left.map headerName? = right.map headerName?) (index : Nat) :
    headingAt left index = headingAt right index := by
  have byHeaders (lines : List String) : headingAt lines index =
      (((lines.map headerName?).take index).reverse.findSome? id).getD commonHeading := by
    rw [headingAt, ← List.map_take, ← List.map_reverse, List.findSome?_map]
    rfl
  rw [byHeaders, byHeaders, same]

/-- With a blank line in the place of an inclusion, every other line gives what it gave. -/
theorem lineEntries_without_inclusion {index other : Nat} {raw target : String}
    (here : lines[index]? = some raw) (inclusion : Line.parse? raw = some (.inclusion target))
    (different : other ≠ index) :
    lineEntries settings root path entriesOf (lines.set index "") other =
      lineEntries settings root path entriesOf lines other := by
  have noHeader : headerName? "" = headerName? raw := by
    rw [headerName?, headerName?, inclusion]
    rfl
  have headers : (lines.set index "").map headerName? = lines.map headerName? := by
    obtain ⟨bound, rfl⟩ := List.getElem?_eq_some_iff.mp here
    rw [List.map_set, noHeader, ← List.getElem_map headerName? (h := by simpa using bound),
      List.set_getElem_self]
  rw [lineEntries, lineEntries, List.getElem?_set_ne different.symm, headingAt_congr headers]

/-! ### The reading against the meaning -/

theorem readLines_entries (settings : Settings) (root path : Path)
    {takeIn : Path → Reading → Reading} {chain : List Path}
    (takes : ∀ inner reading, reading.chain = chain → (takeIn inner reading).chain = chain ∧
      (takeIn inner reading).entries = reading.entries ++ entriesOf inner)
    (above lines : List String) {reading : Reading} (onChain : reading.chain = chain) :
    (readLines settings root path takeIn (headingAt (above ++ lines) above.length) lines
        reading).entries =
      reading.entries ++ (List.range' above.length lines.length).flatMap
        (lineEntries settings root path entriesOf (above ++ lines)) := by
  induction lines generalizing above reading with
  | nil => simp [readLines]
  | cons raw rest ih =>
    have here : (above ++ raw :: rest)[above.length]? = some raw := by simp
    have heading := headingAt_next above rest raw
    have later := @ih (above ++ [raw])
    rw [← List.append_cons, List.length_append, List.length_singleton, heading,
      headerName?] at later
    rw [readLines, List.length_cons, List.range'_succ, List.flatMap_cons, lineEntries, here,
      Option.bind_some]
    split
    · rename_i nothing
      simpa [nothing] using later onChain
    · rename_i name header
      simpa [header] using later onChain
    · rename_i target inclusion
      obtain ⟨kept, taken⟩ := takes (includedPath settings root path target) reading onChain
      simpa [inclusion, taken] using later kept
    · rename_i mask paths assignment
      simpa [assignment, Reading.add] using @later (reading.add _) onChain

theorem readContent_entries (files : FileSystem) (settings : Settings) (root path : Path)
    {takeIn : Path → Reading → Reading} {reading : Reading}
    (takes : ∀ inner other, other.chain = reading.chain →
      (takeIn inner other).chain = reading.chain ∧
      (takeIn inner other).entries = other.entries ++ entriesOf inner) :
    (readContent files settings root path takeIn reading).2.entries = reading.entries ++
      (content? files path).elim [] fun content =>
        contentEntries settings root path entriesOf (Text.lines content) := by
  rw [readContent, content?]
  cases files.has path with
  | false => simp
  | true =>
    cases files.read path with
    | error reason => simp [Except.toOption]
    | ok content =>
      have whole := readLines_entries settings root path takes [] (Text.lines content) rfl
      simpa [Except.toOption, contentEntries, List.range_eq_range'] using whole

/-- A call adds what its file gives to the entries that were read before. -/
theorem readFile_entries (depth : Nat) (path : Path) (reading : Reading) :
    (readFile files settings root depth path reading).2.entries =
      reading.entries ++ fileEntries files settings root depth reading.chain path := by
  rw [fileEntries]
  rcases readFile_cases files settings root depth path reading with
    ⟨guard, why, refused⟩ | ⟨⟨shallow, new⟩, opened⟩
  · simp [refused, guard]
  · have guard : ¬(maxDepth < depth ∨ (chainKey path).isIn reading.chain) :=
      not_or.mpr ⟨Nat.not_lt.mpr shallow, new⟩
    -- What is taken in stands one inclusion deeper, and there is an end to that.
    have takes (inner : Path) (other : Reading)
        (onChain : other.chain = (reading.enter (chainKey path)).chain) :
        (takenIn files settings root (depth + 1) inner other).chain =
            (reading.enter (chainKey path)).chain ∧
          (takenIn files settings root (depth + 1) inner other).entries = other.entries ++
            fileEntries files settings root (depth + 1) (chainKey path :: reading.chain) inner := by
      have deeper := readFile_entries (depth + 1) inner other
      rw [onChain] at deeper
      exact ⟨(readFile_chain (depth + 1) inner other).trans onChain, deeper⟩
    have read := readContent_entries files settings root path takes
    rw [opened, if_neg guard]
    exact read.trans (by cases content? files path <;> rfl)
termination_by maxDepth + 1 - depth

theorem ofFile_entries (files : FileSystem) (settings : Settings) (root directory : Path) :
    ofFile files settings root directory =
      seed directory :: fileEntries files settings root 0 [] root :=
  readFile_entries 0 root _

theorem fileEntries_nil_of_error {depth : Nat} {reading : Reading} {why : Failure}
    (fails : (readFile files settings root depth path reading).1 = .error why) :
    fileEntries files settings root depth reading.chain path = [] := by
  have unchanged := readFile_error fails
  rw [readFile_entries] at unchanged
  exact List.append_right_eq_self.mp unchanged

/-- Reading a redirection file gives the first entry of every project and then what the file means.
Each call adds what its file means to the entries read before it, whatever they are, and a call that
fails adds nothing. And an inclusion has a part in what its own line gives alone: what the other
lines give is what they give with a blank line in its place. -/
theorem reading_is_compositional (files : FileSystem) (settings : Settings)
    (root directory : Path) :
    ofFile files settings root directory =
        seed directory :: fileEntries files settings root 0 [] root ∧
      (∀ call : Call,
        (call.result files settings root).2.entries = call.reading.entries ++
          fileEntries files settings root call.depth call.reading.chain call.path ∧
        ∀ why, (call.result files settings root).1 = .error why →
          fileEntries files settings root call.depth call.reading.chain call.path = []) ∧
      ∀ path entriesOf lines index raw target, lines[index]? = some raw →
        Line.parse? raw = some (.inclusion target) → ∀ other ≠ index,
          lineEntries settings root path entriesOf (lines.set index "") other =
            lineEntries settings root path entriesOf lines other := by
  refine ⟨ofFile_entries files settings root directory, fun call => ⟨?_, ?_⟩, ?_⟩
  · exact readFile_entries call.depth call.path call.reading
  · exact fun why fails => fileEntries_nil_of_error fails
  · exact fun path entriesOf lines index raw target here inclusion other different =>
      lineEntries_without_inclusion here inclusion different

/-- A redirection file that takes in one with a header and one that is not there. -/
def branching : Files :=
  [⟨⟨"/main.red"⟩, .bytes (Text.encode
      "\x7binclude debug.red\x7d\n\x7binclude none.red\x7d\n*.clw = src"), 0⟩,
    ⟨⟨"/debug.red"⟩, .bytes (Text.encode "[Debug]\n*.obj = obj"), 0⟩]

theorem branching_gives_in_place :
    let main : Path := ⟨"/main.red"⟩
    let deeper := fileEntries branching.fileSystem {} main 1 [main]
    let lines := ["\x7binclude debug.red\x7d", "\x7binclude none.red\x7d", "*.clw = src"]
    ofFile branching.fileSystem {} main ⟨"/"⟩ = [seed ⟨"/"⟩,
        ⟨"Debug", "*.obj", [⟨"obj"⟩], ⟨"/debug.red"⟩⟩, ⟨"Common", "*.clw", [⟨"src"⟩], main⟩] ∧
      deeper ⟨"/none.red"⟩ = [] ∧
      lineEntries {} main main deeper (lines.set 0 "") 2 =
        lineEntries {} main main deeper lines 2 := by
  intro main deeper lines
  obtain ⟨whole, calls, others⟩ := reading_is_compositional branching.fileSystem {} main ⟨"/"⟩
  have missing : ¬branching.fileSystem.has ⟨"/none.red"⟩ := by decide +kernel
  obtain ⟨why, fails⟩ : ∃ why, (readFile branching.fileSystem {} main 1 ⟨"/none.red"⟩
      ⟨[], [main]⟩).1 = .error why :=
    readFile_fails_iff.mpr (.inr (.inr (.inl missing)))
  have inclusion : Line.parse? "\x7binclude debug.red\x7d" = some (.inclusion "debug.red") := by
    decide +kernel
  refine ⟨?_, ?_, ?_⟩
  · rw [whole]
    decide +kernel
  · exact (calls ⟨1, ⟨"/none.red"⟩, ⟨[], [main]⟩⟩).2 why fails
  · exact others main deeper lines 0 _ _ rfl inclusion 2 (by decide)

end Clarion.Redirection
