import Clarion.Proofs.Checked.Procedures
import Clarion.Proofs.Pass

/-! The outline pass from end to end, with every access checked. Soundness of the state is what
carries the bounds from one token to the next. -/
namespace Clarion.Checked

open Outline

variable {state : State} {tokens : Tokens} {index : Nat} {token : Token}

/-! ### Data -/

/-- The prefix declared for the fields of a structure, by itself or by what encloses it. -/
def inheritedPrefix? (state : State) (owner : NodeId) : Checked (Option String) := do
  let found ← node state.arena owner
  match found.info.traits.fieldPrefix with
  | some own => return some own
  | none => do
    match ← ancestorWhere state.arena owner (·.info.traits.fieldPrefix.isSome) with
    | some above => do
      let upper ← node state.arena above
      return upper.info.traits.fieldPrefix
    | none => return none

theorem inheritedPrefix?_ok (grounded : state.Grounded) {owner : NodeId}
    (held : state.arena.Holds owner) :
    inheritedPrefix? state owner = .ok (state.inheritedPrefix? owner) := by
  obtain ⟨found, here⟩ := held.node?
  rw [inheritedPrefix?, node_ok here, ok_bind, State.inheritedPrefix?, here]
  simp only [Option.bind_some]
  cases found.info.traits.fieldPrefix with
  | some own => rfl
  | none =>
    dsimp only
    rw [ancestorWhere_ok grounded.arena held, ok_bind]
    cases reached : state.arena.ancestorWhere owner (·.info.traits.fieldPrefix.isSome) with
    | none => rfl
    | some above =>
      obtain ⟨upper, there⟩ := (ancestorWhere_holds reached).node?
      simp [node_ok there, there]

/-- The capital spellings `PREFIX:NAME` and `LABEL.NAME` of a field. -/
def possibleReferences (state : State) (owner : NodeId) (name : String)
    (tokenPrefix : Option String) : Checked (List String) := do
  let pre ← match tokenPrefix with
    | some pre => pure (some (dropEndColons pre))
    | none => inheritedPrefix? state owner
  let qualified :=
    if name.toList.contains ':' then []
    else pre.elim [] fun pre => [Text.uppercase (pre ++ ":" ++ name)]
  let found ← node state.arena owner
  return qualified ++ found.info.traits.label.elim [] fun label =>
    [Text.uppercase (label ++ "." ++ name)]

theorem possibleReferences_ok (grounded : state.Grounded) {owner : NodeId}
    (held : state.arena.Holds owner) (name : String) (tokenPrefix : Option String) :
    possibleReferences state owner name tokenPrefix =
      .ok (state.possibleReferences owner name tokenPrefix) := by
  obtain ⟨found, here⟩ := held.node?
  cases tokenPrefix with
  | some pre => simp [possibleReferences, State.possibleReferences, node_ok here, here]
  | none =>
    simp [possibleReferences, State.possibleReferences, node_ok here, here,
      inheritedPrefix?_ok grounded held]

/-- The home of a data declaration. -/
def dataHome (state : State) : Checked (State × Home) :=
  match state.scopes.innermost? (·.kind != .specialRoutine) with
  | some scope => do
    let found ← node state.arena scope.node
    match found.info.kind with
    | .classDecl => do
      let properties ← groupOf state scope.node .properties
      return (properties.1, ⟨some properties.2, .property, some scope.node⟩)
    | .procedure | .method | .routine => return (state, ⟨some scope.node, .variableDecl, none⟩)
    | _ => return (state, ⟨some scope.node, .field, some scope.node⟩)
  | none =>
    match (state.focus.body.or state.lastMethod).or state.focus.block with
    | some id => return (state, ⟨some id, .variableDecl, none⟩)
    | none => do
      let last ← lastGlobalProcedure? state.arena
      return (state, ⟨last, .variableDecl, none⟩)

theorem dataHome_ok (grounded : state.Grounded) : dataHome state = .ok state.dataHome := by
  unfold dataHome State.dataHome
  cases innermost : state.scopes.innermost? (·.kind != .specialRoutine) with
  | some scope =>
    have held := grounded.innermost_holds innermost
    obtain ⟨found, here⟩ := held.node?
    simp only [node_ok here, ok_bind, Arena.kind?, here, Option.map_some]
    cases found.info.kind with
    | classDecl =>
      dsimp only
      rw [groupOf_ok held, ok_bind]
      rfl
    | _ => rfl
  | none =>
    dsimp only
    cases (state.focus.body.or state.lastMethod).or state.focus.block with
    | some id => rfl
    | none =>
      dsimp only
      rw [lastGlobalProcedure?_ok grounded.arena, ok_bind]
      rfl

/-- The home of a declaration is a node of a sound state, and so is the structure it is part of. -/
theorem dataHome_ready (sound : state.Sound) :
    state.dataHome.1.Grounded ∧ state.dataHome.1.Ready state.dataHome.2.parent ∧
      state.dataHome.1.Ready state.dataHome.2.owner := by
  unfold State.dataHome
  split
  · rename_i scope innermost
    have held := sound.innermost_holds innermost
    have inside := State.ready_some held
    split
    · obtain ⟨grouped, there⟩ := sound.ensureGroup held .properties
      have grows := (State.ensureGroup_adds state scope.node .properties).grows
      exact ⟨grouped.toGrounded, State.ready_some there, State.ready_some (grows.holds held)⟩
    · exact ⟨sound.toGrounded, inside, State.ready_none⟩
    · exact ⟨sound.toGrounded, inside, State.ready_none⟩
    · exact ⟨sound.toGrounded, inside, State.ready_none⟩
    · exact ⟨sound.toGrounded, inside, inside⟩
  · refine ⟨sound.toGrounded, ?_, State.ready_none⟩
    intro id fallback
    exact sound.names_holds (sound.fallback_named fallback)

/-- A token that may be the type of a data declaration. -/
def onData (tokens : Tokens) (index : Nat) (state : State) : Checked State :=
  if state.pastCode then .ok state
  else do
    match ← dataLabel? tokens index with
    | none => return state
    | some label => do
      let token ← get tokens index
      let settled ← dataHome state
      let references ← match settled.2.owner with
        | some owner => possibleReferences settled.1 owner label.text token.fieldPrefix
        | none => pure []
      let info ← dataInfo tokens index label settled.2 references
      addLeaf settled.1 settled.2.parent info

theorem onData_ok (sound : state.Sound) (found : tokens[index]? = some token) :
    onData tokens index state = .ok (state.onData tokens index token) := by
  obtain ⟨grounded, ready, owned⟩ := dataHome_ready sound
  unfold onData State.onData
  split
  · rfl
  · rw [dataLabel?_ok found, ok_bind]
    cases labelled : Outline.dataLabel? tokens index token with
    | none => rfl
    | some label =>
      simp only [get_ok found, ok_bind, dataHome_ok sound.toGrounded]
      generalize state.dataHome = settled at grounded ready owned
      cases part : settled.2.owner with
      | none =>
        simp only [pure_eq, ok_bind, dataInfo_ok found labelled]
        exact addLeaf_ok ready _
      | some owner =>
        simp only [possibleReferences_ok grounded (owned owner part), ok_bind,
          dataInfo_ok found labelled]
        exact addLeaf_ok ready _

/-! ### The pass -/

/-- What a token does to the outline. -/
def dispatch (tokens : Tokens) (index : Nat) (state : State) : Checked State := do
  let token ← get tokens index
  match token.kind with
  | .structureWord => onStructure tokens index state
  | .windowElement => onControl tokens index state
  | .propertyFunction =>
    if token.reads "PROJECT" then onProject tokens index state else return state
  | .keyword =>
    if token.reads "KEY" || token.reads "INDEX" then onKey tokens index state
    else if token.reads "ROUTINE" then onRoutine tokens index state
    else if token.readsOneOf Tokens.compoundWords then
      return { state with openBlocks := token :: state.openBlocks }
    else do
      if ← isLoopTerminator tokens index then onLoopTerminator tokens index state
      else return state
  | .procedure => onProcedure tokens index state
  | .routine => onRoutine tokens index state
  | .executionMarker => onMarker tokens index state
  | .endStatement => onEnd tokens index state
  | .typeName | .annotatedType | .referenceVariable | .variableName | .argument =>
    onData tokens index state
  | _ => return state

theorem dispatch_ok (sound : state.Sound) (found : tokens[index]? = some token) :
    dispatch tokens index state = .ok (state.dispatch tokens index token) := by
  rw [dispatch, get_ok found, ok_bind, State.dispatch]
  cases token.kind with
  | structureWord => exact onStructure_ok sound found
  | windowElement => exact onControl_ok sound found
  | propertyFunction =>
    dsimp only
    split
    · exact onProject_ok sound found
    · rfl
  | keyword =>
    dsimp only
    split
    · exact onKey_ok sound found
    · split
      · exact onRoutine_ok sound found
      · split
        · rfl
        · rw [isLoopTerminator_ok, ok_bind]
          split
          · exact onLoopTerminator_ok tokens index state
          · rfl
  | procedure => exact onProcedure_ok sound found
  | routine => exact onRoutine_ok sound found
  | executionMarker => exact onMarker_ok sound found
  | endStatement => exact onEnd_ok sound found
  | typeName | annotatedType | referenceVariable | variableName | argument =>
    exact onData_ok sound found
  | _ => rfl

/-- The state when the scan comes to a token. -/
def reach (tokens : Tokens) (state : State) (token : Token) : Checked State :=
  if state.currentLine == some token.line then .ok state else advanceLine tokens state token.line

theorem reach_ok (grounded : state.Grounded) (tokens : Tokens) (token : Token) :
    reach tokens state token = .ok (state.reach tokens token) := by
  unfold reach State.reach
  split
  · rfl
  · exact advanceLine_ok grounded tokens token.line

/-- The state after one more token. -/
def step (tokens : Tokens) (state : State) (index : Nat) : Checked State := do
  let token ← get tokens index
  let reached ← reach tokens state token
  if reached.handled.contains index then return reached else dispatch tokens index reached

theorem step_ok (sound : state.Sound) (found : tokens[index]? = some token) :
    step tokens state index = .ok (state.step tokens index) := by
  rw [step, get_ok found, ok_bind, reach_ok sound.toGrounded, ok_bind, State.step_eq found]
  split
  · rfl
  · exact dispatch_ok (sound.reach tokens token) found

/-- The state after all tokens. -/
def pass (tokens : Tokens) : Checked State :=
  (List.range tokens.length).foldlM (step tokens) {}

theorem pass_ok (tokens : Tokens) : pass tokens = .ok (State.after tokens tokens.length) := by
  apply foldlM_ok State.Sound ?_ State.Sound.empty
  intro index member state sound
  have found := List.getElem?_eq_getElem (List.mem_range.mp member)
  exact ⟨step_ok sound found, (sound.step tokens index).1⟩

/-- The state when the document ends: every scope still open closes. -/
def finish (tokens : Tokens) (state : State) : Checked State :=
  close tokens { state with scopes := [] } state.scopes state.currentLine

theorem finish_ok (grounded : state.Grounded) (tokens : Tokens) :
    finish tokens state = .ok (state.finish tokens) :=
  close_ok tokens state.currentLine grounded.scopes

/-- The outline of a document. Whether it has methods is looked up only to be logged. -/
def outline (tokens : Tokens) : Checked (List Symbol) := do
  let state ← pass tokens
  let finished ← finish tokens state
  let _ ← hasMethodImplementations finished.arena
  toSymbols finished.arena

theorem outline_ok (tokens : Tokens) : outline tokens = .ok (Outline.ofTokens tokens) := by
  have sound := State.sound_after tokens tokens.length
  have shape := sound.finish tokens
  rw [outline, pass_ok, ok_bind, finish_ok sound.toGrounded, ok_bind,
    hasMethodImplementations_ok shape, ok_bind]
  exact toSymbols_ok shape

end Clarion.Checked
