import Clarion.Proofs.Handlers

/-! The pass over a document, token by token. What a token can do is said once, with the conditions
under which it does so. Between any two tokens the state is sound, and from any token on the arena
only grows. -/
namespace Clarion.Outline.State

variable {state : State} {tokens : Tokens} {index : Nat} {token : Token}

/-- The token takes no part in the matching of blocks: it neither opens nor closes one. -/
structure Neutral (tokens : Tokens) (index : Nat) (token : Token) : Prop where
  opens : tokens.opensBlock index = false
  ends : token.kind ≠ .endStatement
  stops : tokens.isLoopTerminator index = false

/-- What a token does to the state, with the conditions under which it does so. -/
inductive Acts (tokens : Tokens) (index : Nat) (token : Token) (state : State) : State → Prop where
  | files {after : State} (neutral : Neutral tokens index token) (filed : state.Files after) :
    Acts tokens index token state after
  | block (opens : tokens.opensBlock index) (silent : token.readsOneOf Tokens.silentWords) :
    Acts tokens index token state { state with openBlocks := token :: state.openBlocks }
  | record {node : NodeId} (opens : tokens.opensBlock index) (word : token.kind = .structureWord)
    (loud : token.readsOneOf Tokens.silentWords = false)
    (recorded : state.prebuilt.lookup index = some node) :
    Acts tokens index token state
      ({ state with prebuilt := state.prebuilt.filter (·.1 != index) }.openScope
        node token.finishesAt)
  | declares (opens : tokens.opensBlock index) (word : token.kind = .structureWord)
    (loud : token.readsOneOf Tokens.silentWords = false)
    (fresh : state.prebuilt.lookup index = none) :
    Acts tokens index token state (state.openStructure tokens index token)
  | globalBody (word : token.kind = .procedure)
    (use : state.procedureUse tokens index token = .body true) :
    Acts tokens index token state ((state.atRoot tokens).openBody none
      (procedureInfo tokens index token (procedureName tokens index token) true) token.finishesAt)
  | enclosedBody (word : token.kind = .procedure)
    (use : state.procedureUse tokens index token = .body false) :
    Acts tokens index token state (state.openBody state.focus.block
      (procedureInfo tokens index token (procedureName tokens index token) false)
      token.finishesAt)
  | method {className methodName : String} (word : token.kind = .procedure)
    (use : state.procedureUse tokens index token = .method className methodName) :
    Acts tokens index token state (state.openMethod tokens index token className methodName)
  | routine (word : token.kind = .routine ∨ token.kind = .keyword ∧ token.reads "ROUTINE") :
    Acts tokens index token state (state.onRoutine tokens index token)
  | marker (word : token.kind = .executionMarker) :
    Acts tokens index token state (state.onMarker token)
  | loopStop (stops : tokens.isLoopTerminator index) :
    Acts tokens index token state (state.onLoopTerminator tokens index)
  | ends (word : token.kind = .endStatement) : Acts tokens index token state (state.onEnd token)

theorem neutral_of_kind (found : tokens[index]? = some token)
    (noStructure : token.kind ≠ .structureWord) (noKeyword : token.kind ≠ .keyword)
    (noEnd : token.kind ≠ .endStatement) : Neutral tokens index token := by
  refine ⟨?_, noEnd, ?_⟩
  · unfold Tokens.opensBlock
    rw [found]
    dsimp only
    split <;> simp_all
  · simp [Tokens.isLoopTerminator, found, noKeyword]

/-- A token reads only one word. -/
theorem readsOneOf_of_reads {word : String} {words : List String} (reads : token.reads word)
    (others : words.all fun other => !Text.sameFold word other) :
    token.readsOneOf words = false := by
  unfold Token.readsOneOf
  rw [List.any_eq_false]
  intro other member readsOther
  have different := List.all_eq_true.mp others other member
  simp_all [Token.reads, Text.sameFold]

theorem reads_other {word other : String} (reads : token.reads word)
    (apart : Text.sameFold word other = false) : token.reads other = false := by
  have none : token.readsOneOf [other] = false := readsOneOf_of_reads reads (by simp [apart])
  simpa [Token.readsOneOf] using none

/-- A token that reads one of some words reads none of the others. -/
theorem readsOneOf_apart {words others : List String} (reads : token.readsOneOf words)
    (apart : words.all fun word => others.all fun other => !Text.sameFold word other) :
    token.readsOneOf others = false := by
  obtain ⟨word, member, readsWord⟩ := List.any_eq_true.mp reads
  exact readsOneOf_of_reads readsWord (List.all_eq_true.mp apart word member)

theorem silent_of_compound (compound : token.readsOneOf Tokens.compoundWords) :
    token.readsOneOf Tokens.silentWords := by
  obtain ⟨word, member, reads⟩ := List.any_eq_true.mp compound
  have included : Tokens.compoundWords ⊆ Tokens.silentWords := by decide
  exact List.any_eq_true.mpr ⟨word, included member, reads⟩

/-- A silent word opens a block, whatever stands before it on its line. -/
theorem isModuleAttribute_of_silent (silent : token.readsOneOf Tokens.silentWords)
    (found : tokens[index]? = some token) : tokens.isModuleAttribute index = false := by
  simp only [Tokens.isModuleAttribute, found, Bool.and_eq_false_iff]
  left
  by_contra reads
  have loud : token.readsOneOf Tokens.silentWords = false :=
    readsOneOf_of_reads (by simpa using reads) (by decide)
  simp [silent] at loud

theorem acts_structure (found : tokens[index]? = some token)
    (word : token.kind = .structureWord) (state : State) :
    Acts tokens index token state (state.onStructure tokens index token) := by
  have opens : tokens.opensBlock index = !tokens.isModuleAttribute index := by
    simp [Tokens.opensBlock, found, word]
  unfold State.onStructure
  split
  · rename_i silent
    exact .block (by simp [opens, isModuleAttribute_of_silent silent found]) silent
  · rename_i loud
    split
    · rename_i isAttribute
      refine .files ⟨by simp [opens, isAttribute], by simp [word], ?_⟩ .nothing
      simp [Tokens.isLoopTerminator, found, word]
    · rename_i declaration
      have opens : tokens.opensBlock index := by simpa [opens] using declaration
      split
      · rename_i node recorded
        exact .record opens word (by simpa using loud) recorded
      · rename_i fresh
        exact .declares opens word (by simpa using loud) fresh

theorem isLoopTerminator_reads (found : tokens[index]? = some token)
    (silent : token.readsOneOf ["UNTIL", "WHILE"] = false) :
    tokens.isLoopTerminator index = false := by
  simp only [Token.readsOneOf, List.any_cons, List.any_nil, Bool.or_false] at silent
  simp [Tokens.isLoopTerminator, found, silent]

theorem Sound.acts_keyword (sound : state.Sound) (found : tokens[index]? = some token)
    (word : token.kind = .keyword) :
    Acts tokens index token state (state.dispatch tokens index token) := by
  have opens : tokens.opensBlock index = token.readsOneOf Tokens.compoundWords := by
    simp [Tokens.opensBlock, found, word]
  simp only [State.dispatch, word]
  split
  · rename_i reads
    have reads := (Bool.or_eq_true _ _).mp reads
    refine .files ⟨?_, by simp [word], isLoopTerminator_reads found ?_⟩ sound.onKey_files
    · rw [opens]
      rcases reads with reads | reads <;> exact readsOneOf_of_reads reads (by decide)
    · rcases reads with reads | reads <;> exact readsOneOf_of_reads reads (by decide)
  · split
    · rename_i reads
      exact .routine (.inr ⟨word, reads⟩)
    · split
      · rename_i compound
        exact .block (opens ▸ compound) (silent_of_compound compound)
      · split
        · rename_i stops
          exact .loopStop stops
        · rename_i compound stops
          exact .files ⟨by simpa [opens] using compound, by simp [word], by simpa using stops⟩
            .nothing

theorem Sound.acts_procedure (sound : state.Sound) (found : tokens[index]? = some token)
    (word : token.kind = .procedure) :
    Acts tokens index token state (state.onProcedure tokens index token) := by
  rw [onProcedure_eq]
  split
  · exact .files (neutral_of_kind found (by simp [word]) (by simp [word]) (by simp [word]))
      (sound.declarePrototype_files _)
  · rename_i use
    exact .globalBody word use
  · rename_i use
    exact .enclosedBody word use
  · rename_i use
    exact .method word use

/-- Every token acts in one of these ways. -/
theorem Sound.acts (sound : state.Sound) (found : tokens[index]? = some token) :
    Acts tokens index token state (state.dispatch tokens index token) := by
  have neutral := neutral_of_kind found
  have data : state.Files (state.onData tokens index token) := sound.onData_files
  cases word : token.kind with
  | structureWord => simpa only [State.dispatch, word] using acts_structure found word state
  | keyword => exact sound.acts_keyword found word
  | procedure => simpa only [State.dispatch, word] using sound.acts_procedure found word
  | routine => simpa only [State.dispatch, word] using Acts.routine (.inl word)
  | executionMarker => simpa only [State.dispatch, word] using Acts.marker word
  | endStatement => simpa only [State.dispatch, word] using Acts.ends word
  | windowElement =>
    simpa only [State.dispatch, word] using Acts.files (by simp_all) sound.onControl_files
  | propertyFunction =>
    simp only [State.dispatch, word]
    split
    · exact .files (by simp_all) sound.onProject_files
    · exact .files (by simp_all) .nothing
  | typeName | annotatedType | referenceVariable | variableName | argument =>
    simpa only [State.dispatch, word] using Acts.files (by simp_all) data
  | _ => simpa only [State.dispatch, word] using Acts.files (by simp_all) .nothing

theorem Sound.dispatch (sound : state.Sound) (found : tokens[index]? = some token) :
    (state.dispatch tokens index token).Sound ∧
      state.arena.Grows (state.dispatch tokens index token).arena := by
  have acts := sound.acts found
  generalize state.dispatch tokens index token = after at acts
  cases acts with
  | files neutral filed => exact ⟨sound.files filed, filed.adds.grows⟩
  | block opens silent => exact ⟨sound.note state.pastCode _, .refl _⟩
  | record opens word loud recorded =>
    have consumed := sound.toGrounded.consume index
    exact ⟨consumed.openScope (sound.prebuilt_holds recorded) _, .refl _⟩
  | declares opens word loud fresh => exact sound.openStructure
  | globalBody word use =>
    exact ⟨(sound.atRoot tokens).toGrounded.openBody ready_none _ _,
      (atRoot_grows tokens state).trans (openBody_grows ..)⟩
  | enclosedBody word use =>
    exact ⟨sound.toGrounded.openBody (fun _ focused => sound.names_holds (sound.block_named focused))
      _ _, openBody_grows ..⟩
  | method word use => exact sound.openMethod ..
  | routine word => exact sound.onRoutine
  | marker word => exact sound.onMarker
  | loopStop stops => exact ⟨sound.onLoopTerminator.1, sound.onLoopTerminator.2 ▸ .refl _⟩
  | ends word => exact sound.onEnd

/-- The state when the scan comes to a token: scopes have closed if it stands on another line. -/
def reach (tokens : Tokens) (state : State) (token : Token) : State :=
  if state.currentLine == some token.line then state else state.advanceLine tokens token.line

/-- One token: the scan comes to it, and it is dispatched unless a look ahead has dealt with it. -/
theorem step_eq (found : tokens[index]? = some token) (state : State) :
    state.step tokens index = if (state.reach tokens token).handled.contains index then
      state.reach tokens token else (state.reach tokens token).dispatch tokens index token := by
  simp [step, found, reach]

theorem step_none (missing : tokens[index]? = none) (state : State) :
    state.step tokens index = state := by
  simp [step, missing]

theorem closeAtLine_kept (scopes : Scopes) (line : Nat) (lineTokens : List Token)
    (hasMethods : Bool) :
    ∀ scope ∈ (scopes.closeAtLine line lineTokens hasMethods).1, scope ∈ scopes := by
  intro scope member
  rw [Scopes.closeAtLine, List.splitAt_eq] at member
  exact List.mem_of_mem_take member

/-- Coming to another line closes scopes, moves spans and may drop the last method; nothing else
that the pass remembers changes. -/
structure Settles (before after : State) : Prop where
  frame : after = { before with
    arena := after.arena, scopes := after.scopes, focus := after.focus,
    currentLine := after.currentLine, previousLine := after.previousLine,
    lastMethod := after.lastMethod }
  grows : before.arena.Grows after.arena
  size : after.arena.nodes.size = before.arena.nodes.size
  scopes : ∀ scope ∈ after.scopes, scope ∈ before.scopes
  lastMethod : ∀ id, after.lastMethod = some id → before.lastMethod = some id

theorem Settles.refl (state : State) : state.Settles state :=
  ⟨rfl, .refl _, rfl, fun _ => id, fun _ => id⟩

theorem Settles.prebuilt {before after : State} (settles : before.Settles after) :
    after.prebuilt = before.prebuilt := by
  rw [settles.frame]

theorem Settles.classes {before after : State} (settles : before.Settles after) :
    after.classes = before.classes := by
  rw [settles.frame]

theorem Settles.handled {before after : State} (settles : before.Settles after) :
    after.handled = before.handled := by
  rw [settles.frame]

theorem advanceLine_scopes (tokens : Tokens) (state : State) (line : Nat) :
    (state.advanceLine tokens line).scopes =
      (state.scopes.closeAtLine line (tokens.onLine line) state.hasMethods).1 := by
  have adds := close_adds tokens
    { state with scopes := (state.scopes.closeAtLine line (tokens.onLine line) state.hasMethods).1 }
    (state.scopes.closeAtLine line (tokens.onLine line) state.hasMethods).2 state.currentLine
  unfold advanceLine
  dsimp only
  split <;> exact adds.scopes

theorem advanceLine_settles (tokens : Tokens) (state : State) (line : Nat) :
    state.Settles (state.advanceLine tokens line) := by
  have kept := closeAtLine_kept state.scopes line (tokens.onLine line) state.hasMethods
  unfold advanceLine
  dsimp only
  have adds := close_adds tokens
    { state with scopes := (state.scopes.closeAtLine line (tokens.onLine line) state.hasMethods).1 }
    (state.scopes.closeAtLine line (tokens.onLine line) state.hasMethods).2 state.currentLine
  have size := close_size tokens
    { state with scopes := (state.scopes.closeAtLine line (tokens.onLine line) state.hasMethods).1 }
    (state.scopes.closeAtLine line (tokens.onLine line) state.hasMethods).2 state.currentLine
  generalize close tokens _ _ _ = closed at adds size ⊢
  have included : ∀ scope ∈ closed.scopes, scope ∈ state.scopes := by
    rw [adds.scopes]
    exact kept
  split
  · refine ⟨?_, adds.grows, size, included, ?_⟩
    · rw [adds.frame]
      rfl
    · rintro _ ⟨⟩
  · refine ⟨?_, adds.grows, size, included, ?_⟩
    · rw [adds.frame]
      rfl
    · exact fun id last => adds.lastMethod ▸ last

theorem Sound.advanceLine (sound : state.Sound) (tokens : Tokens) (line : Nat) :
    (state.advanceLine tokens line).Sound := by
  have kept := sound.toGrounded.keep (closeAtLine_kept state.scopes line (tokens.onLine line)
    state.hasMethods)
  have closed := kept.close tokens
    (state.scopes.closeAtLine line (tokens.onLine line) state.hasMethods).2 state.currentLine
  unfold State.advanceLine
  dsimp only
  split
  · exact Grounded.refocus ⟨closed.arena, closed.scopes, by simp, closed.classes, closed.prebuilt⟩
  · exact Grounded.refocus ⟨closed.arena, closed.scopes, closed.lastMethod, closed.classes,
      closed.prebuilt⟩

theorem Sound.reach (sound : state.Sound) (tokens : Tokens) (token : Token) :
    (state.reach tokens token).Sound := by
  unfold State.reach
  split
  · exact sound
  · exact sound.advanceLine tokens token.line

theorem reach_settles (tokens : Tokens) (state : State) (token : Token) :
    state.Settles (state.reach tokens token) := by
  unfold reach
  split
  · exact .refl _
  · exact advanceLine_settles ..

/-- One token keeps the state sound, and the arena grows. -/
theorem Sound.step (sound : state.Sound) (tokens : Tokens) (index : Nat) :
    (state.step tokens index).Sound ∧ state.arena.Grows (state.step tokens index).arena := by
  cases found : tokens[index]? with
  | none =>
    rw [step_none found]
    exact ⟨sound, .refl _⟩
  | some token =>
    have reached := sound.reach tokens token
    have grows := (reach_settles tokens state token).grows
    rw [step_eq found]
    split
    · exact ⟨reached, grows⟩
    · have acted := reached.dispatch found
      exact ⟨acted.1, grows.trans acted.2⟩

@[simp] theorem after_zero (tokens : Tokens) : after tokens 0 = {} :=
  rfl

theorem after_succ (tokens : Tokens) (count : Nat) :
    after tokens (count + 1) = (after tokens count).step tokens count := by
  simp [after, List.range_succ]

/-- Between any two tokens the state is sound. -/
theorem sound_after (tokens : Tokens) (count : Nat) : (after tokens count).Sound := by
  induction count with
  | zero => exact Sound.empty
  | succ count ih =>
    rw [after_succ]
    exact (ih.step tokens count).1

/-- From any token on the arena only grows. -/
theorem grows_after (tokens : Tokens) {earlier later : Nat} (order : earlier ≤ later) :
    (after tokens earlier).arena.Grows (after tokens later).arena := by
  induction order with
  | refl => exact .refl _
  | @step later _ ih =>
    rw [after_succ]
    exact ih.trans ((sound_after tokens later).step tokens later).2

theorem finish_grows (tokens : Tokens) (state : State) :
    state.arena.Grows (state.finish tokens).arena :=
  (close_adds tokens { state with scopes := [] } state.scopes state.currentLine).grows

theorem finish_size (tokens : Tokens) (state : State) :
    (state.finish tokens).arena.nodes.size = state.arena.nodes.size :=
  close_size tokens { state with scopes := [] } state.scopes state.currentLine

theorem Sound.finish (sound : state.Sound) (tokens : Tokens) :
    (state.finish tokens).arena.WellFormed :=
  ((sound.toGrounded.keep (by simp)).close tokens state.scopes state.currentLine).arena

/-- The arena when the document has ended. -/
def finished (tokens : Tokens) : Arena :=
  ((after tokens tokens.length).finish tokens).arena

theorem grows_finished (tokens : Tokens) {count : Nat} (order : count ≤ tokens.length) :
    (after tokens count).arena.Grows (finished tokens) :=
  (grows_after tokens order).trans (finish_grows ..)

/-- The pass dispatches the token at an index in this state: it has come to the line of the token,
and no look ahead has dealt with it. -/
structure Dispatches (tokens : Tokens) (index : Nat) (token : Token) (state : State) : Prop where
  found : tokens[index]? = some token
  reached : state = (after tokens index).reach tokens token
  fresh : index ∉ state.handled

theorem Dispatches.sound (dispatches : Dispatches tokens index token state) : state.Sound := by
  rw [dispatches.reached]
  exact (sound_after tokens index).reach tokens token

/-- Coming to the line of the token makes no nodes. -/
theorem Dispatches.size (dispatches : Dispatches tokens index token state) :
    state.arena.nodes.size = (after tokens index).arena.nodes.size := by
  rw [dispatches.reached, (reach_settles ..).size]

theorem Dispatches.after_succ (dispatches : Dispatches tokens index token state) :
    after tokens (index + 1) = state.dispatch tokens index token := by
  have fresh := dispatches.fresh
  rw [State.after_succ, step_eq dispatches.found, ← dispatches.reached]
  simp [fresh]

/-- One token of the pass: there is none left, a look ahead has dealt with it, or it is
dispatched. -/
theorem after_succ_cases (tokens : Tokens) (index : Nat) :
    after tokens (index + 1) = after tokens index ∨
      (∃ token, after tokens (index + 1) = (after tokens index).reach tokens token) ∨
      ∃ token state, Dispatches tokens index token state ∧
        after tokens (index + 1) = state.dispatch tokens index token := by
  rw [after_succ]
  cases found : tokens[index]? with
  | none => exact .inl (step_none found _)
  | some token =>
    rw [step_eq found]
    split
    · exact .inr (.inl ⟨token, rfl⟩)
    · rename_i fresh
      exact .inr (.inr ⟨token, _, ⟨found, rfl, by simpa using fresh⟩, rfl⟩)

/-! ### Records made ahead -/

/-- A token makes records ahead only when it is a file, and only inside its block. -/
theorem Sound.dispatch_prebuilt (sound : state.Sound) (found : tokens[index]? = some token)
    {entry : Nat × NodeId} (member : entry ∈ (state.dispatch tokens index token).prebuilt) :
    entry ∈ state.prebuilt ∨
      (token.kind = .structureWord ∧ token.reads "FILE" ∧ entry.1 < tokens.blockEnd index) ∧
      (state.dispatch tokens index token).arena.kind? entry.2 = some .structureDecl := by
  have acts := sound.acts found
  generalize state.dispatch tokens index token = after at acts member ⊢
  cases acts with
  | files neutral filed => exact .inl (filed.adds.prebuilt ▸ member)
  | block opens silent => exact .inl member
  | record opens word loud recorded => exact .inl (List.mem_filter.mp member).1
  | declares opens word loud fresh =>
    rw [openStructure_eq] at member ⊢
    rcases furnish_prebuilt _ _ _ _ _ member with old | ⟨reads, inside, kind⟩
    · exact .inl ((structureMade_files tokens index token state).adds.prebuilt ▸ old)
    · exact .inr ⟨⟨word, reads, inside⟩, kind⟩
  | globalBody word use => exact .inl (atRoot_prebuilt tokens state ▸ member)
  | enclosedBody word use => exact .inl member
  | @method className methodName word use =>
    rw [openMethod_eq] at member
    have kept := (atMethods_adds tokens index token className methodName state).prebuilt
    rw [shut_prebuilt] at kept
    exact .inl (kept ▸ member)
  | routine word =>
    rw [onRoutine_eq] at member
    dsimp only at member
    have kept : (state.atRoutine tokens).prebuilt = state.prebuilt := shut_prebuilt ..
    split at member
    · exact .inl (kept ▸ member)
    · exact .inl (kept ▸ member)
  | marker word =>
    obtain ⟨_, _, _, _, same⟩ := onMarker_frame token state
    rw [same] at member ⊢
    exact .inl member
  | loopStop stops =>
    obtain ⟨_, same⟩ := onLoopTerminator_frame tokens index state
    rw [same] at member ⊢
    exact .inl member
  | ends word =>
    obtain ⟨_, _, _, _, same⟩ := onEnd_frame token state
    rw [same] at member ⊢
    exact .inl member

/-- Every record made ahead is a structure inside the block of a file before. -/
theorem prebuilt_after (tokens : Tokens) (count : Nat) {entry : Nat × NodeId}
    (member : entry ∈ (after tokens count).prebuilt) :
    (after tokens count).arena.kind? entry.2 = some .structureDecl ∧
    ∃ file < count, ∃ token, tokens[file]? = some token ∧ token.kind = .structureWord ∧
      token.reads "FILE" ∧ entry.1 < tokens.blockEnd file := by
  induction count with
  | zero => simp at member
  | succ count ih =>
    have grows := grows_after tokens (Nat.le_succ count)
    have older (old : entry ∈ (after tokens count).prebuilt) :
        (after tokens (count + 1)).arena.kind? entry.2 = some .structureDecl ∧
        ∃ file < count + 1, ∃ token, tokens[file]? = some token ∧ token.kind = .structureWord ∧
          token.reads "FILE" ∧ entry.1 < tokens.blockEnd file := by
      obtain ⟨kind, file, order, rest⟩ := ih old
      exact ⟨grows.kind? kind, file, Nat.lt_succ_of_lt order, rest⟩
    rcases after_succ_cases tokens count with same | ⟨token, same⟩ | ⟨token, state, here, same⟩
    · exact older (same ▸ member)
    · rw [same, (reach_settles ..).prebuilt] at member
      exact older member
    · rw [same] at member older ⊢
      rcases here.sound.dispatch_prebuilt here.found member with
        old | ⟨⟨word, reads, inside⟩, kind⟩
      · rw [here.reached, (reach_settles ..).prebuilt] at old
        exact older old
      · exact ⟨kind, count, Nat.lt_succ_self _, token, here.found, word, reads, inside⟩

/-! ### Where a node comes from -/

/-- The node is created while the token at the index is processed. -/
def BornAt (tokens : Tokens) (index : Nat) (id : NodeId) : Prop :=
  (after tokens index).arena.nodes.size ≤ id ∧ id < (after tokens (index + 1)).arena.nodes.size

theorem exists_born {count : Nat} {id : NodeId} (held : (after tokens count).arena.Holds id) :
    ∃ index < count, BornAt tokens index id := by
  induction count with
  | zero => simp [Arena.Holds] at held
  | succ count ih =>
    by_cases earlier : (after tokens count).arena.Holds id
    · obtain ⟨index, bound, born⟩ := ih earlier
      exact ⟨index, Nat.lt_succ_of_lt bound, born⟩
    · exact ⟨count, Nat.lt_succ_self _, Nat.le_of_not_lt earlier, held⟩

/-- A node is only born at a token that is dispatched. -/
theorem BornAt.dispatches {id : NodeId} (born : BornAt tokens index id) :
    ∃ token state, Dispatches tokens index token state := by
  have grown : (after tokens index).arena.nodes.size <
      (after tokens (index + 1)).arena.nodes.size := Nat.lt_of_le_of_lt born.1 born.2
  rcases after_succ_cases tokens index with same | ⟨token, same⟩ | ⟨token, state, here, -⟩
  · rw [same] at grown
    exact absurd grown (Nat.lt_irrefl _)
  · rw [same, (reach_settles ..).size] at grown
    exact absurd grown (Nat.lt_irrefl _)
  · exact ⟨token, state, here⟩

theorem BornAt.size_le {id : NodeId} {first : Nat} (born : BornAt tokens index id)
    (order : first ≤ index) : (after tokens first).arena.nodes.size ≤ id :=
  Nat.le_trans (grows_after tokens order).size born.1

theorem BornAt.lt_size {id : NodeId} {first : Nat} (born : BornAt tokens index id)
    (order : index < first) : id < (after tokens first).arena.nodes.size :=
  Nat.lt_of_lt_of_le born.2 (grows_after tokens order).size

end Clarion.Outline.State
