import Clarion.Proofs.RoutineOwner

/-! Executable code declares nothing. Markers, routines and bodies start the sections of a document,
and no other token ends one: neither structures nor their ends, nor declarations, blocks or closing
scopes. So whether a label and a type declare data is decided by the last start before them. -/
namespace Clarion.Outline.State

variable {state : State} {tokens : Tokens} {index : Nat} {token : Token}

/-! ### Starts of sections -/

/-- What a section starts with. -/
inductive SectionStart where
  | data | code | routine | body
deriving Repr, DecidableEq

/-- The section holds executable code. -/
def SectionStart.isExecutable : SectionStart → Bool
  | .code | .routine => true
  | .data | .body => false

/-- The section that a token starts, in the state in which it is dispatched. -/
def sectionStart? (tokens : Tokens) (index : Nat) (token : Token) (state : State) :
    Option SectionStart :=
  match token.kind with
  | .executionMarker =>
    if token.reads "DATA" then some .data else if token.reads "CODE" then some .code else none
  | .routine => some .routine
  | .keyword => if token.reads "ROUTINE" then some .routine else none
  | .procedure => if state.procedureUse tokens index token = .prototype then none else some .body
  | _ => none

/-- The section that starts at an index, when the token there is dispatched. -/
def startAt? (tokens : Tokens) (index : Nat) : Option SectionStart :=
  tokens[index]?.bind fun token =>
    let state := (after tokens index).reach tokens token
    if state.handled.contains index then none else state.sectionStart? tokens index token

/-- The section that the tokens before an index end in. -/
def lastStart? (tokens : Tokens) (index : Nat) : Option SectionStart :=
  (List.range index).reverse.findSome? (startAt? tokens)

/-- The tokens before an index end in executable code. -/
def InCode (tokens : Tokens) (index : Nat) : Prop :=
  (lastStart? tokens index).any SectionStart.isExecutable

instance (tokens : Tokens) (index : Nat) : Decidable (InCode tokens index) :=
  inferInstanceAs (Decidable ((lastStart? tokens index).any SectionStart.isExecutable = true))

theorem Dispatches.startAt? (dispatches : Dispatches tokens index token state) :
    startAt? tokens index = state.sectionStart? tokens index token := by
  have fresh := dispatches.fresh
  rw [dispatches.reached] at fresh ⊢
  simp [State.startAt?, dispatches.found, fresh]

theorem lastStart?_succ (tokens : Tokens) (index : Nat) :
    lastStart? tokens (index + 1) = (startAt? tokens index).or (lastStart? tokens index) := by
  rw [lastStart?, List.range_succ, List.reverse_concat, List.findSome?_cons]
  cases startAt? tokens index <;> rfl

/-! ### What a token does to the note that code is being read -/

theorem Adds.pastCode {before after : State} (adds : before.Adds after) :
    after.pastCode = before.pastCode := by
  rw [adds.frame]

theorem Furnishes.pastCode {before after : State} (furnishes : before.Furnishes after) :
    after.pastCode = before.pastCode := by
  rw [furnishes.frame]

theorem Settles.pastCode {before after : State} (settles : before.Settles after) :
    after.pastCode = before.pastCode := by
  rw [settles.frame]

theorem onRoutine_pastCode (tokens : Tokens) (index : Nat) (token : Token) (state : State) :
    (state.onRoutine tokens index token).pastCode = true := by
  rw [onRoutine_eq]
  dsimp only
  split <;> rfl

theorem onMarker_pastCode_of_code (code : token.reads "CODE") (state : State) :
    (state.onMarker token).pastCode = true := by
  have noData : token.readsOneOf ["DATA"] = false := readsOneOf_of_reads code (by decide)
  simp only [Token.readsOneOf, List.any_cons, List.any_nil, Bool.or_false] at noData
  unfold onMarker
  simp only [noData, Bool.false_eq_true, ↓reduceIte, code]
  split
  · rfl
  · split <;> rfl

/-- A token that starts a section says whether code is being read from now on. -/
theorem dispatch_pastCode_of_start {start : SectionStart}
    (starts : state.sectionStart? tokens index token = some start) :
    (state.dispatch tokens index token).pastCode = start.isExecutable := by
  unfold sectionStart? at starts
  split at starts
  · rename_i word
    simp only [State.dispatch, word]
    split at starts
    · rename_i reads
      cases starts
      simp [onMarker, reads, SectionStart.isExecutable]
    · split at starts
      · rename_i reads
        cases starts
        exact onMarker_pastCode_of_code reads state
      · cases starts
  · rename_i word
    cases starts
    rw [dispatch_routine (.inl word), onRoutine_pastCode]
    rfl
  · rename_i word
    split at starts
    · rename_i reads
      cases starts
      rw [dispatch_routine (.inr ⟨word, reads⟩), onRoutine_pastCode]
      rfl
    · cases starts
  · rename_i word
    split at starts
    · cases starts
    · rename_i body
      cases starts
      simp only [State.dispatch, word, onProcedure_eq]
      split
      · contradiction
      · rfl
      · rfl
      · rfl
  · cases starts

/-- No other token touches the note. -/
theorem Sound.dispatch_pastCode_of_none (sound : state.Sound) (found : tokens[index]? = some token)
    (none : state.sectionStart? tokens index token = none) :
    (state.dispatch tokens index token).pastCode = state.pastCode := by
  have acts := sound.acts found
  generalize state.dispatch tokens index token = after at acts ⊢
  -- Bodies, routines and the two markers start a section, so the assumption rules them out.
  cases acts with
  | files neutral filed => exact filed.adds.pastCode
  | block opens silent => rfl
  | record opens word loud recorded => rfl
  | declares opens word loud fresh =>
    have files := (structureMade_files tokens index token state).adds
    rw [openStructure_eq]
    exact (furnish_furnishes ..).pastCode.trans files.pastCode
  | globalBody word use => simp [sectionStart?, word, use] at none
  | enclosedBody word use => simp [sectionStart?, word, use] at none
  | method word use => simp [sectionStart?, word, use] at none
  | routine word =>
    rcases word with word | ⟨word, reads⟩
    · simp [sectionStart?, word] at none
    · simp [sectionStart?, word, reads] at none
  | marker word =>
    simp only [sectionStart?, word] at none
    unfold State.onMarker
    split at none
    · cases none
    · rename_i noData
      split at none
      · cases none
      · rename_i noCode
        simp [noData, noCode]
  | loopStop stops =>
    obtain ⟨_, same⟩ := onLoopTerminator_frame tokens index state
    rw [same]
  | ends word =>
    obtain ⟨_, _, _, _, same⟩ := onEnd_frame token state
    rw [same]

theorem Sound.dispatch_pastCode (sound : state.Sound) (found : tokens[index]? = some token) :
    (state.dispatch tokens index token).pastCode =
      (state.sectionStart? tokens index token).elim state.pastCode SectionStart.isExecutable := by
  cases starts : state.sectionStart? tokens index token with
  | none => exact sound.dispatch_pastCode_of_none found starts
  | some start => exact dispatch_pastCode_of_start starts

/-- One token of the pass: a section that starts there says whether it holds code. -/
theorem pastCode_succ (tokens : Tokens) (index : Nat) :
    (after tokens (index + 1)).pastCode =
      (startAt? tokens index).elim (after tokens index).pastCode SectionStart.isExecutable := by
  cases found : tokens[index]? with
  | none => simp [after_succ, step_none found, startAt?, found]
  | some token =>
    have kept := (reach_settles tokens (after tokens index) token).pastCode
    by_cases fresh : index ∈ ((after tokens index).reach tokens token).handled
    · simp [after_succ, step_eq found, startAt?, found, fresh, kept]
    · have dispatches : Dispatches tokens index token _ := ⟨found, rfl, fresh⟩
      rw [dispatches.after_succ, dispatches.startAt?,
        dispatches.sound.dispatch_pastCode found, kept]

/-- Between any two tokens the note says whether the last section holds code. -/
theorem pastCode_after (tokens : Tokens) (index : Nat) :
    (after tokens index).pastCode ↔ InCode tokens index := by
  induction index with
  | zero => simp [InCode, lastStart?]
  | succ index ih =>
    rw [pastCode_succ, InCode, lastStart?_succ]
    cases startAt? tokens index with
    | none => exact ih
    | some start => rfl

/-! ### Data declarations -/

/-- The token may be the type of a data declaration. -/
def isDataType (token : Token) : Bool :=
  match token.kind with
  | .typeName | .annotatedType | .referenceVariable | .variableName | .argument => true
  | _ => false

/-- The references that a field is known by, when the home is a structure. -/
def homeReferences (state : State) (token : Token) (label : DataLabel) (home : Home) :
    List String :=
  home.owner.elim [] fun owner => state.possibleReferences owner label.text token.fieldPrefix

theorem dispatch_data (data : isDataType token) (tokens : Tokens) (index : Nat) (state : State) :
    state.dispatch tokens index token = state.onData tokens index token := by
  unfold isDataType at data
  unfold State.dispatch
  split at data <;> simp_all

theorem onData_of_pastCode (past : state.pastCode = true) :
    state.onData tokens index token = state := by
  rw [onData, if_pos past]

theorem onData_of_unlabelled (unlabelled : dataLabel? tokens index token = none) :
    state.onData tokens index token = state := by
  simp [onData, unlabelled]

/-- A labelled type outside of executable code makes one symbol in its home. -/
theorem onData_of_labelled {label : DataLabel} (reading : state.pastCode = false)
    (labelled : dataLabel? tokens index token = some label) :
    state.onData tokens index token = state.dataHome.1.addLeaf state.dataHome.2.parent
      (dataInfo tokens index token label state.dataHome.2
        (state.dataHome.1.homeReferences token label state.dataHome.2)) := by
  simp only [onData, reading, Bool.false_eq_true, ↓reduceIte, labelled]
  rfl

theorem dataHome_adds (state : State) : state.Adds state.dataHome.1 := by
  unfold dataHome
  split
  · split
    · exact ensureGroup_adds ..
    · exact .refl _
    · exact .refl _
    · exact .refl _
    · exact .refl _
  · exact .refl _

theorem onData_declares_iff :
    state.arena.nodes.size < (state.onData tokens index token).arena.nodes.size ↔
      state.pastCode = false ∧ (dataLabel? tokens index token).isSome := by
  cases past : state.pastCode with
  | true => simp [onData_of_pastCode past]
  | false =>
    cases labelled : dataLabel? tokens index token with
    | none => simp [onData_of_unlabelled labelled]
    | some label =>
      rw [onData_of_labelled past labelled]
      have larger := (dataHome_adds state).grows.size
      refine iff_of_true (Nat.lt_of_le_of_lt larger ?_) ⟨rfl, rfl⟩
      exact Nat.lt_of_lt_of_eq (Nat.lt_succ_self _) (Arena.add_size ..).symm

theorem exists_bornAt_iff (tokens : Tokens) (index : Nat) :
    (∃ id, BornAt tokens index id) ↔
      (after tokens index).arena.nodes.size < (after tokens (index + 1)).arena.nodes.size := by
  constructor
  · rintro ⟨id, older, younger⟩
    exact Nat.lt_of_le_of_lt older younger
  · intro larger
    exact ⟨_, Nat.le_refl _, larger⟩

theorem Dispatches.settles (dispatches : Dispatches tokens index token state) :
    (after tokens index).Settles state := by
  rw [dispatches.reached]
  exact reach_settles ..

theorem Dispatches.after_data (dispatches : Dispatches tokens index token state)
    (data : isDataType token) : after tokens (index + 1) = state.onData tokens index token := by
  rw [dispatches.after_succ, dispatch_data data]

theorem Dispatches.declares_iff (dispatches : Dispatches tokens index token state)
    (data : isDataType token) : (∃ id, BornAt tokens index id) ↔
      state.pastCode = false ∧ (dataLabel? tokens index token).isSome := by
  rw [exists_bornAt_iff, dispatches.after_data data, ← dispatches.settles.size,
    onData_declares_iff]

/-- Executable code declares nothing. A token that may be the type of a data declaration changes
nothing at all where the tokens before it end in executable code; anywhere else it declares a symbol
exactly when a label stands before it at the start of its line. -/
theorem executable_code_declares_nothing (dispatches : Dispatches tokens index token state)
    (data : isDataType token) :
    (InCode tokens index → after tokens (index + 1) = state) ∧
      ((∃ id, BornAt tokens index id) ↔
        ¬InCode tokens index ∧ (dataLabel? tokens index token).isSome) := by
  have noted : state.pastCode = true ↔ InCode tokens index := by
    rw [dispatches.settles.pastCode]
    exact pastCode_after tokens index
  constructor
  · intro inCode
    rw [dispatches.after_data data, onData_of_pastCode (noted.mpr inCode)]
  · rw [dispatches.declares_iff data, ← noted, Bool.not_eq_true]

/-- A procedure with data before its code, and a structure and a label with a type after it. -/
def labelAfterCode : Tokens :=
  [{ kind := .label, value := "Main", line := 0, start := 0 },
    { kind := .procedure, value := "PROCEDURE", line := 0, start := 8 },
    { kind := .label, value := "Count", line := 1, start := 0 },
    { kind := .typeName, value := "LONG", line := 1, start := 8 },
    { kind := .executionMarker, value := "CODE", line := 2, start := 2 },
    { kind := .label, value := "Pair", line := 3, start := 0 },
    { kind := .structureWord, value := "GROUP", line := 3, start := 8 },
    { kind := .endStatement, value := "END", line := 4, start := 2 },
    { kind := .label, value := "Total", line := 5, start := 0 },
    { kind := .typeName, value := "LONG", line := 5, start := 8 }]

theorem label_after_code_is_no_declaration :
    (∃ id, BornAt labelAfterCode 3 id) ∧ InCode labelAfterCode 9 ∧
      ¬∃ id, BornAt labelAfterCode 9 id := by
  have before : Dispatches labelAfterCode 3 _ _ := ⟨rfl, rfl, by decide +kernel⟩
  have behind : Dispatches labelAfterCode 9 _ _ := ⟨rfl, rfl, by decide +kernel⟩
  have noCode : ¬InCode labelAfterCode 3 := by decide +kernel
  have code : InCode labelAfterCode 9 := by decide +kernel
  refine ⟨?_, code, ?_⟩
  · exact (executable_code_declares_nothing before rfl).2.mpr ⟨noCode, by decide +kernel⟩
  · intro declares
    exact ((executable_code_declares_nothing behind rfl).2.mp declares).1 code

end Clarion.Outline.State
