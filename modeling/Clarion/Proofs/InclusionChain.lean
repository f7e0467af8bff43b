import Clarion.Redirection
import Mathlib.Data.List.Basic

/-! Redirection files that take in one another, in a circle or for ever. The keys of the files being
read are pushed when a file is opened and removed when it is done, on every way out; so they are at
any moment just the files of the calls that are under way, no two of them the same and no more than
the depth allows. -/
namespace Clarion.Redirection

variable {files : FileSystem} {settings : Settings} {root path directory : Path} {depth : Nat}
  {reading : Reading} {why : Failure}

/-! ### What a call leaves -/

theorem Reading.leave_enter {key : Path} {after : Reading} (new : ¬key.isIn reading.chain)
    (kept : after.chain = (reading.enter key).chain) :
    (after.leave key).chain = reading.chain := by
  have others : ∀ other ∈ reading.chain, !other.same key := by
    intro other member
    simpa using fun same : other.same key => new (List.any_eq_true.mpr ⟨other, member, same⟩)
  have itself : key.same key := beq_self_eq_true key.parts
  rw [leave, kept, enter, List.filter_cons_of_neg (by simp [itself])]
  exact List.filter_eq_self.mpr others

theorem readLines_chain {takeIn : Path → Reading → Reading}
    (keeps : ∀ inner reading, (takeIn inner reading).chain = reading.chain) (heading : String)
    (lines : List String) (reading : Reading) :
    (readLines settings root path takeIn heading lines reading).chain = reading.chain := by
  induction lines generalizing heading reading with
  | nil => rfl
  | cons raw rest ih =>
    rw [readLines]
    split
    · exact ih heading reading
    · exact ih _ reading
    · exact (ih heading _).trans (keeps _ reading)
    · exact ih heading _

theorem readContent_chain {takeIn : Path → Reading → Reading}
    (keeps : ∀ inner reading, (takeIn inner reading).chain = reading.chain) (reading : Reading) :
    (readContent files settings root path takeIn reading).2.chain = reading.chain := by
  rw [readContent]
  split
  · rfl
  · split
    · rfl
    · exact readLines_chain keeps ..

theorem readContent_fails_iff {takeIn : Path → Reading → Reading} :
    (∃ why, (readContent files settings root path takeIn reading).1 = .error why) ↔
      ¬files.has path ∨ ∃ reason, files.read path = .error reason := by
  rw [readContent]
  cases has : files.has path with
  | false => simp
  | true => cases read : files.read path <;> simp

theorem readContent_error {takeIn : Path → Reading → Reading}
    (fails : (readContent files settings root path takeIn reading).1 = .error why) :
    (readContent files settings root path takeIn reading).2 = reading := by
  rw [readContent] at fails ⊢
  cases has : files.has path with
  | false => rfl
  | true =>
    rw [has] at fails
    cases read : files.read path with
    | error reason => rfl
    | ok content =>
      rw [read] at fails
      cases fails

/-- What taking in a file makes of what is read, `depth` inclusions deep. -/
def takenIn (files : FileSystem) (settings : Settings) (root : Path) (depth : Nat) (inner : Path)
    (reading : Reading) : Reading :=
  (readFile files settings root depth inner reading).2

/-- A file that is too deep or being read already is refused, and nothing changes; any other is on
the chain while its content is read. -/
theorem readFile_cases (files : FileSystem) (settings : Settings) (root : Path) (depth : Nat)
    (path : Path) (reading : Reading) :
    (maxDepth < depth ∨ (chainKey path).isIn reading.chain) ∧
        (∃ why, readFile files settings root depth path reading = (.error why, reading)) ∨
      (depth ≤ maxDepth ∧ ¬(chainKey path).isIn reading.chain) ∧
        readFile files settings root depth path reading =
          let content := readContent files settings root path
            (takenIn files settings root (depth + 1)) (reading.enter (chainKey path))
          (content.1, content.2.leave (chainKey path)) := by
  rw [readFile]
  split
  · rename_i deep
    exact .inl ⟨.inl deep, _, rfl⟩
  · rename_i shallow
    dsimp only
    split
    · rename_i known
      exact .inl ⟨.inr known, _, rfl⟩
    · rename_i new
      exact .inr ⟨⟨Nat.le_of_not_lt shallow, new⟩, rfl⟩

/-- The chain after a call is the chain before it, whatever comes of the call. -/
theorem readFile_chain (depth : Nat) (path : Path) (reading : Reading) :
    (readFile files settings root depth path reading).2.chain = reading.chain := by
  rcases readFile_cases files settings root depth path reading with
    ⟨-, why, refused⟩ | ⟨⟨shallow, new⟩, opened⟩
  · rw [refused]
  · rw [opened]
    -- What is taken in stands one inclusion deeper, and there is an end to that.
    exact Reading.leave_enter new
      (readContent_chain (fun inner reading => readFile_chain (depth + 1) inner reading) _)
termination_by maxDepth + 1 - depth

theorem readFile_fails_iff :
    (∃ why, (readFile files settings root depth path reading).1 = .error why) ↔
      maxDepth < depth ∨ (chainKey path).isIn reading.chain ∨ ¬files.has path ∨
        ∃ reason, files.read path = .error reason := by
  rcases readFile_cases files settings root depth path reading with
    ⟨guard, why, refused⟩ | ⟨⟨shallow, new⟩, opened⟩
  · rw [refused, ← or_assoc]
    exact iff_of_true ⟨why, rfl⟩ (.inl guard)
  · rw [opened]
    dsimp only
    rw [readContent_fails_iff]
    simp [Nat.not_lt.mpr shallow, new]

/-- A call that fails has added no entry. -/
theorem readFile_error
    (fails : (readFile files settings root depth path reading).1 = .error why) :
    (readFile files settings root depth path reading).2.entries = reading.entries := by
  rcases readFile_cases files settings root depth path reading with
    ⟨-, _, refused⟩ | ⟨-, opened⟩
  · rw [refused]
  · rw [opened] at fails ⊢
    have untouched := congrArg Reading.entries (readContent_error fails)
    exact untouched

/-! ### Calls under way -/

/-- A call that reads a file, with what is read when it is made. -/
structure Call where
  depth : Nat
  path : Path
  reading : Reading

namespace Call

/-- What tells the file of the call from others. -/
def key (call : Call) : Path :=
  chainKey call.path

/-- What comes of the call, and what is read afterwards. -/
def result (call : Call) (files : FileSystem) (settings : Settings) (root : Path) :
    Except Failure Unit × Reading :=
  readFile files settings root call.depth call.path call.reading

/-- The file of the call is put on the chain: it is neither too deep nor being read already. -/
def Enters (call : Call) : Prop :=
  call.depth ≤ maxDepth ∧ ¬call.key.isIn call.reading.chain

/-- What is read at the moment when the call has done some lines of its file. -/
def after (call : Call) (files : FileSystem) (settings : Settings) (root : Path)
    (done : List String) : Reading :=
  readLines settings root call.path (takenIn files settings root (call.depth + 1)) commonHeading done
    (call.reading.enter call.key)

/-- One call makes another, at a line that takes in a file. -/
inductive Makes (files : FileSystem) (settings : Settings) (root : Path) : Call → Call → Prop where
  | inclusion {outer : Call} {content raw target : String} {done rest : List String}
    (enters : outer.Enters) (has : files.has outer.path)
    (read : files.read outer.path = .ok content)
    (lines : Text.lines content = done ++ raw :: rest)
    (line : Line.parse? raw = some (.inclusion target)) :
    Makes files settings root outer ⟨outer.depth + 1, includedPath settings root outer.path target,
      outer.after files settings root done⟩

end Call

/-- The call that reads the root file, for a project in a directory. -/
def firstCall (root directory : Path) : Call :=
  ⟨0, root, ⟨[seed directory], []⟩⟩

/-- The calls that are reading their files at some moment, the innermost first. -/
inductive UnderWay (files : FileSystem) (settings : Settings) (root directory : Path) :
    List Call → Prop where
  | first : UnderWay files settings root directory [firstCall root directory]
  | next {outer inner : Call} {calls : List Call}
    (before : UnderWay files settings root directory (outer :: calls))
    (makes : Call.Makes files settings root outer inner) (enters : inner.Enters) :
    UnderWay files settings root directory (inner :: outer :: calls)

theorem Call.after_chain (call : Call) (done : List String) :
    (call.after files settings root done).chain = call.key :: call.reading.chain :=
  readLines_chain (fun inner reading => readFile_chain (call.depth + 1) inner reading) ..

theorem Call.Makes.deeper {outer inner : Call} (makes : Makes files settings root outer inner) :
    outer.depth ≤ maxDepth ∧ inner.depth = outer.depth + 1 := by
  cases makes with
  | inclusion enters => exact ⟨enters.1, rfl⟩

theorem Call.Makes.chain {outer inner : Call} (makes : Makes files settings root outer inner) :
    inner.reading.chain = outer.key :: outer.reading.chain := by
  cases makes with
  | inclusion => exact outer.after_chain _

/-- Calls do not go on making calls for ever. -/
theorem makes_wellFounded (files : FileSystem) (settings : Settings) (root : Path) :
    WellFounded fun inner outer => Call.Makes files settings root outer inner := by
  refine Subrelation.wf (fun {inner outer} makes => ?_)
    (measure fun call : Call => maxDepth + 1 - call.depth).wf
  obtain ⟨shallow, deeper⟩ := makes.deeper
  change maxDepth + 1 - inner.depth < maxDepth + 1 - outer.depth
  omega

/-- The innermost call stands as deep as there are calls around it, and found their files on the
chain. -/
theorem UnderWay.innermost {call : Call} {calls : List Call}
    (underWay : UnderWay files settings root directory (call :: calls)) :
    call.Enters ∧ call.depth = calls.length ∧ call.reading.chain = calls.map Call.key := by
  generalize all : call :: calls = whole at underWay
  induction underWay generalizing call calls with
  | first =>
    cases all
    exact ⟨⟨Nat.zero_le _, Bool.false_ne_true⟩, rfl, rfl⟩
  | next before makes enters ih =>
    cases all
    obtain ⟨-, depth, chain⟩ := ih rfl
    refine ⟨enters, ?_, ?_⟩
    · rw [makes.deeper.2, depth, List.length_cons]
    · rw [makes.chain, chain, List.map_cons]

theorem UnderWay.distinct {calls : List Call}
    (underWay : UnderWay files settings root directory calls) :
    calls.Pairwise fun inner outer => ¬outer.key.same inner.key := by
  induction underWay with
  | first => exact List.pairwise_singleton ..
  | @next outer inner calls before makes enters ih =>
    obtain ⟨⟨-, new⟩, -, chain⟩ := (before.next makes enters).innermost
    refine List.pairwise_cons.mpr ⟨fun call member same => new ?_, ih⟩
    rw [chain]
    exact List.any_eq_true.mpr ⟨call.key, List.mem_map_of_mem member, same⟩

/-- Taking in files is safe on all files. The calls come to an end. At any moment the calls that are
reading their files are few, their files differ, and these are the files on the chain. Each call
leaves the chain as it found it; it fails exactly when it stands too deep, or its file is being read,
not there or not readable; and then it has added no entry. -/
theorem inclusion_is_safe (files : FileSystem) (settings : Settings) (root directory : Path) :
    ofFile files settings root directory =
        ((firstCall root directory).result files settings root).2.entries ∧
      (WellFounded fun inner outer => Call.Makes files settings root outer inner) ∧
      (∀ call calls, UnderWay files settings root directory (call :: calls) →
        (call :: calls).length ≤ maxDepth + 1 ∧
        (call :: calls).Pairwise (fun inner outer => ¬outer.key.same inner.key) ∧
        ∀ done, (call.after files settings root done).chain = (call :: calls).map Call.key) ∧
      ∀ call : Call,
        (call.result files settings root).2.chain = call.reading.chain ∧
        ((∃ why, (call.result files settings root).1 = .error why) ↔
          maxDepth < call.depth ∨ call.key.isIn call.reading.chain ∨ ¬files.has call.path ∨
            ∃ reason, files.read call.path = .error reason) ∧
        ∀ why, (call.result files settings root).1 = .error why →
          (call.result files settings root).2.entries = call.reading.entries := by
  refine ⟨rfl, makes_wellFounded files settings root, ?_, fun call => ⟨?_, ?_, ?_⟩⟩
  · intro call calls underWay
    obtain ⟨⟨shallow, -⟩, depth, chain⟩ := underWay.innermost
    refine ⟨?_, underWay.distinct, fun done => ?_⟩
    · rw [List.length_cons, ← depth]
      exact Nat.succ_le_succ shallow
    · rw [call.after_chain, chain, List.map_cons]
  · exact readFile_chain call.depth call.path call.reading
  · exact readFile_fails_iff
  · exact fun why fails => readFile_error fails

/-- Two redirection files that take in one another. -/
def circle : Files :=
  [⟨⟨"/a.red"⟩, .bytes (Text.encode "\x7binclude b.red\x7d"), 0⟩,
    ⟨⟨"/b.red"⟩, .bytes (Text.encode "*.inc = inc\n\x7binclude a.red\x7d"), 0⟩]

theorem circle_is_broken :
    let outer := firstCall ⟨"/a.red"⟩ ⟨"/"⟩
    let inner : Call := ⟨1, ⟨"/b.red"⟩, outer.after circle.fileSystem {} ⟨"/a.red"⟩ []⟩
    let again : Call := ⟨2, ⟨"/a.red"⟩, inner.after circle.fileSystem {} ⟨"/a.red"⟩ ["*.inc = inc"]⟩
    UnderWay circle.fileSystem {} ⟨"/a.red"⟩ ⟨"/"⟩ [inner, outer] ∧
      again.reading.chain = [inner.key, outer.key] ∧
      (∃ why, (again.result circle.fileSystem {} ⟨"/a.red"⟩).1 = .error why) := by
  intro outer inner again
  obtain ⟨-, -, moments, calls⟩ := inclusion_is_safe circle.fileSystem {} ⟨"/a.red"⟩ ⟨"/"⟩
  have read : circle.fileSystem.read outer.path = .ok "\x7binclude b.red\x7d" := by
    decide +kernel
  have lines : Text.lines "\x7binclude b.red\x7d" = [] ++ "\x7binclude b.red\x7d" :: [] := by
    decide +kernel
  have line : Line.parse? "\x7binclude b.red\x7d" = some (.inclusion "b.red") := by decide +kernel
  have target : includedPath {} ⟨"/a.red"⟩ ⟨"/a.red"⟩ "b.red" = ⟨"/b.red"⟩ := by decide +kernel
  have makes : Call.Makes circle.fileSystem {} ⟨"/a.red"⟩ outer inner := by
    have step : Call.Makes circle.fileSystem {} ⟨"/a.red"⟩ outer
        ⟨1, includedPath {} ⟨"/a.red"⟩ ⟨"/a.red"⟩ "b.red", inner.reading⟩ :=
      .inclusion ⟨by decide, by decide⟩ (by decide +kernel) read lines line
    rwa [target] at step
  have new : inner.Enters := by
    refine ⟨by decide, ?_⟩
    rw [makes.chain]
    decide +kernel
  have underWay := UnderWay.first.next makes new
  have chain : again.reading.chain = [inner.key, outer.key] := (moments inner _ underWay).2.2 _
  refine ⟨underWay, chain, (calls again).2.1.mpr (.inr (.inl ?_))⟩
  rw [chain]
  decide +kernel

end Clarion.Redirection
