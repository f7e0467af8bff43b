import Clarion.Proofs.Checked.State
import Clarion.Proofs.Checked.Symbols

/-! Structures, controls, keys and the look ahead through files and views, with every access
checked. A look ahead stays inside the document, since no block reaches past its end. -/
namespace Clarion.Checked

open Outline

variable {state : State} {tokens : Tokens} {index : Nat} {token : Token}

/-! ### The end of a block -/

theorem blockStopFrom_le (openers : List Token) (rest : Tokens) (here : tokens.drop index = rest) :
    tokens.blockStopFrom openers index rest ≤ tokens.length := by
  induction rest generalizing openers index with
  | nil => exact Nat.le_refl _
  | cons token rest ih =>
    have later : tokens.drop (index + 1) = rest := by rw [← List.tail_drop, here]; rfl
    have inside : index < tokens.length := by
      have length := congrArg List.length here
      rw [List.length_drop, List.length_cons] at length
      omega
    unfold Tokens.blockStopFrom
    split
    · exact ih _ later
    · split
      · exact ih _ later
      · split
        · split
          · split
            · exact inside
            · exact (logicalLineEnd_bounds inside).2
          · exact ih _ later
        · exact ih _ later

/-- A block that starts in the document ends in it. -/
theorem blockEnd_le (bound : index < tokens.length) : tokens.blockEnd index ≤ tokens.length := by
  unfold Tokens.blockEnd
  rw [List.drop_eq_getElem_cons bound]
  dsimp only
  split
  · rename_i last _
    rw [← List.drop_eq_getElem_cons bound]
    cases found : (tokens.drop index).findIdx? (last < ·.line) with
    | none => exact Nat.le_refl _
    | some place =>
      have := (List.findIdx?_eq_some_iff_getElem.mp found).1
      rw [List.length_drop] at this
      simp only [Option.elim_some]
      omega
  · exact blockStopFrom_le _ _ rfl

theorem token_of_blockIndex (bound : index < tokens.length) {inner : Nat}
    (member : inner ∈ State.blockIndices tokens index) : ∃ token, tokens[inner]? = some token := by
  have bounds := List.mem_range'_1.mp member
  have stop := blockEnd_le bound
  exact ⟨_, List.getElem?_eq_getElem (show inner < tokens.length by omega)⟩

/-! ### Files -/

/-- The word declares a member at the head of its line. -/
def declaresAt (tokens : Tokens) (index : Nat) (isWord : Bool) : Checked Bool :=
  if isWord then isLineHead tokens index else .ok false

theorem declaresAt_ok (tokens : Tokens) (index : Nat) (isWord : Bool) :
    declaresAt tokens index isWord = .ok (isWord && Outline.isLineHead tokens index) := by
  cases isWord with
  | false => rfl
  | true => exact isLineHead_ok tokens index

/-- One token inside a file. -/
def fileStep (tokens : Tokens) (file : NodeId) (state : State) (index : Nat) : Checked State := do
  let token ← get tokens index
  if token.kind == .structureWord && token.reads "RECORD" then do
    let info ← recordInfo tokens index
    let made ← add state (some file) info
    return { made.1 with prebuilt := (index, made.2) :: made.1.prebuilt }
  else if ← declaresAt tokens index (token.reads "KEY" || token.reads "INDEX") then do
    let info ← keyInfo tokens index
    let filed ← addLeaf state (some file) info
    return filed.markHandled index
  else if ← declaresAt tokens index (token.reads "MEMO" || token.reads "BLOB") then do
    let info ← memoInfo tokens index
    let filed ← addLeaf state (some file) info
    return filed.markHandled index
  else return state

theorem fileStep_ok {file : NodeId} (held : state.arena.Holds file)
    (found : tokens[index]? = some token) :
    fileStep tokens file state index = .ok (state.fileStep tokens file index) := by
  have ready := State.ready_some held
  rw [fileStep, State.fileStep, get_ok found, found, ok_bind]
  dsimp only
  split
  · simp only [recordInfo_ok found, add_ok ready, ok_bind, pure_eq]
  · rw [declaresAt_ok, ok_bind]
    split
    · simp only [keyInfo_ok found, addLeaf_ok ready, ok_bind, pure_eq]
    · rw [declaresAt_ok, ok_bind]
      split
      · simp only [memoInfo_ok found, addLeaf_ok ready, ok_bind, pure_eq]
      · rfl

/-- Looks through a file. -/
def lookThroughFile (tokens : Tokens) (index : Nat) (file : NodeId) (state : State) :
    Checked State := do
  let stop ← blockEnd tokens index
  (List.range' (index + 1) (stop - (index + 1))).foldlM (fileStep tokens file) state

theorem lookThroughFile_ok (bound : index < tokens.length) {file : NodeId}
    (held : state.arena.Holds file) :
    lookThroughFile tokens index file state = .ok (state.lookThroughFile tokens index file) := by
  rw [lookThroughFile, blockEnd_ok, ok_bind]
  refine foldlM_ok (fun state => state.arena.Holds file) (fun inner member state held => ?_) held
  obtain ⟨token, found⟩ := token_of_blockIndex bound member
  exact ⟨fileStep_ok held found, (State.fileStep_furnishes tokens file state inner).grows.holds held⟩

/-! ### Views -/

/-- One token inside a view, where `joins` are the open joins, innermost first. -/
def viewStep (tokens : Tokens) (view : NodeId) (step : State × List NodeId) (index : Nat) :
    Checked (State × List NodeId) := do
  let token ← get tokens index
  let parent := step.2.head?.getD view
  if token.kind == .structureWord && token.reads "JOIN" then do
    let info ← joinInfo tokens index
    let made ← add step.1 (some parent) info
    return (made.1.markHandled index, made.2 :: step.2)
  else if token.reads "PROJECT" then do
    let info ← projectInfo tokens index
    let filed ← addLeaf step.1 (some parent) info
    return (filed.markHandled index, step.2)
  else if token.kind == .endStatement && !step.2.isEmpty then
    return (step.1.markHandled index, step.2.tail)
  else return step

theorem viewStep_ok {view : NodeId} {joins : List NodeId} (held : state.arena.Holds view)
    (opened : ∀ join ∈ joins, state.arena.Holds join) (found : tokens[index]? = some token) :
    viewStep tokens view (state, joins) index =
      .ok (State.viewStep tokens view (state, joins) index) := by
  have ready : state.Ready (some (joins.head?.getD view)) := by
    refine State.ready_some ?_
    cases joins with
    | nil => exact held
    | cons join rest => exact opened join List.mem_cons_self
  simp only [viewStep, State.viewStep, get_ok found, found, ok_bind]
  split
  · simp only [joinInfo_ok found, add_ok ready, ok_bind, pure_eq]
  · split
    · simp only [projectInfo_ok found, addLeaf_ok ready, ok_bind, pure_eq]
    · split <;> rfl

/-- Looks through a view. -/
def lookThroughView (tokens : Tokens) (index : Nat) (view : NodeId) (state : State) :
    Checked State := do
  let stop ← blockEnd tokens index
  let looked ← (List.range' (index + 1) (stop - (index + 1))).foldlM (viewStep tokens view)
    (state, [])
  return looked.1

theorem lookThroughView_ok (sound : state.Sound) (bound : index < tokens.length) {view : NodeId}
    (held : state.arena.Holds view) :
    lookThroughView tokens index view state = .ok (state.lookThroughView tokens index view) := by
  have looked : (State.blockIndices tokens index).foldlM (viewStep tokens view) (state, []) =
      .ok ((State.blockIndices tokens index).foldl (State.viewStep tokens view) (state, [])) := by
    refine foldlM_ok (fun step => step.1.Sound ∧ step.1.arena.Holds view ∧
      ∀ join ∈ step.2, step.1.arena.Holds join) ?_ ⟨sound, held, by simp⟩
    rintro inner member ⟨state, joins⟩ ⟨sound, held, opened⟩
    obtain ⟨token, found⟩ := token_of_blockIndex bound member
    obtain ⟨stepped, stillOpen⟩ := sound.viewStep held opened tokens inner
    have grows := (State.viewStep_furnishes tokens view state joins inner).grows
    exact ⟨viewStep_ok held opened found, stepped, grows.holds held, stillOpen⟩
  rw [lookThroughView, blockEnd_ok, ok_bind]
  exact congrArg (· >>= fun looked => pure looked.1) looked

/-! ### Structures -/

/-- What a fresh structure brings with it. -/
def furnish (tokens : Tokens) (index : Nat) (id : NodeId) (state : State) : Checked State := do
  let token ← get tokens index
  let label ← labelOf tokens index
  if token.reads "CLASS" then do
    let first ← groupOf state id .properties
    let second ← groupOf first.1 id .methods
    return second.1.recordClass label id
  else if token.reads "INTERFACE" then return state.recordClass label id
  else if token.reads "MAP" || token.reads "MODULE" then do
    let grouped ← groupOf state id .functions
    return grouped.1
  else if token.reads "FILE" then lookThroughFile tokens index id state
  else if token.reads "VIEW" then lookThroughView tokens index id state
  else return state

theorem furnish_ok (sound : state.Sound) {id : NodeId} (held : state.arena.Holds id)
    (found : tokens[index]? = some token) :
    furnish tokens index id state = .ok (state.furnish tokens index token id) := by
  have bound := (List.getElem?_eq_some_iff.mp found).1
  have later := (State.ensureGroup_adds state id .properties).grows.holds held
  simp only [furnish, State.furnish, get_ok found, labelOf_ok found, ok_bind]
  split
  · simp only [groupOf_ok held, groupOf_ok later, ok_bind, pure_eq]
  · split
    · rfl
    · split
      · simp only [groupOf_ok held, ok_bind, pure_eq]
      · split
        · exact lookThroughFile_ok bound held
        · split
          · exact lookThroughView_ok sound bound held
          · rfl

/-- A structure token that declares something. -/
def openStructure (tokens : Tokens) (index : Nat) (state : State) : Checked State := do
  let token ← get tokens index
  let info ← structureInfo tokens index
  let target ← scopeTarget state
  let made ← add target.1 target.2 info
  let furnished ← furnish tokens index made.2 made.1
  openScope furnished made.2 token.finishesAt

theorem routeOption_ready (grounded : state.Grounded) {target : Option NodeId}
    (ready : state.Ready target) :
    (state.routeOption target).1.Ready (state.routeOption target).2 := by
  cases target with
  | none => exact State.ready_none
  | some id =>
    simp only [State.routeOption, State.routeInto]
    split
    · obtain ⟨shape, recorded⟩ := grounded.arena.ensureGroup (ready id rfl) .properties
      exact State.ready_some (shape.group_holds recorded)
    · exact ready

theorem scopeTarget_ready (grounded : state.Grounded) :
    state.scopeTarget.1.Ready state.scopeTarget.2 :=
  routeOption_ready grounded fun _ top => grounded.names_holds (State.top_named top)

theorem openStructure_ok (sound : state.Sound) (found : tokens[index]? = some token) :
    openStructure tokens index state = .ok (state.openStructure tokens index token) := by
  have grounded := sound.toGrounded
  have made := sound.files (State.structureMade_files tokens index token state)
  have held := State.structureMade_holds tokens index token state
  have furnishes := State.furnish_furnishes tokens index token
    (state.structureMade tokens index token).2 (state.structureMade tokens index token).1
  rw [openStructure, get_ok found, ok_bind, structureInfo_ok found, ok_bind, scopeTarget_ok grounded,
    ok_bind, add_ok (scopeTarget_ready grounded), ok_bind]
  refine (congrArg (· >>= _) (furnish_ok made held found)).trans ?_
  exact openScope_ok (made.furnish held).toGrounded (furnishes.grows.holds held) token.finishesAt

/-- A structure token. -/
def onStructure (tokens : Tokens) (index : Nat) (state : State) : Checked State := do
  let token ← get tokens index
  if token.readsOneOf Tokens.silentWords then
    return { state with openBlocks := token :: state.openBlocks }
  else if ← isModuleAttribute tokens index then return state
  else
    match state.prebuilt.lookup index with
    | some id =>
      openScope { state with prebuilt := state.prebuilt.filter (·.1 != index) } id token.finishesAt
    | none => openStructure tokens index state

theorem onStructure_ok (sound : state.Sound) (found : tokens[index]? = some token) :
    onStructure tokens index state = .ok (state.onStructure tokens index token) := by
  rw [onStructure, get_ok found, ok_bind, State.onStructure]
  split
  · rfl
  · rw [isModuleAttribute_ok, ok_bind]
    split
    · rfl
    · cases recorded : state.prebuilt.lookup index with
      | none => exact openStructure_ok sound found
      | some id =>
        have consumed := sound.toGrounded.consume index
        exact openScope_ok consumed (sound.prebuilt_holds recorded) token.finishesAt

/-! ### Controls, projected fields and keys -/

/-- A window control. -/
def onControl (tokens : Tokens) (index : Nat) (state : State) : Checked State := do
  let info ← controlInfo tokens index
  let target ← elementTarget state
  addLeaf target.1 target.2 info

/-- A projected field list outside any view. -/
def onProject (tokens : Tokens) (index : Nat) (state : State) : Checked State := do
  let info ← projectInfo tokens index
  let target ← elementTarget state
  addLeaf target.1 target.2 info

/-- A key or index. -/
def onKey (tokens : Tokens) (index : Nat) (state : State) : Checked State := do
  if ← isLineHead tokens index then do
    let info ← keyInfo tokens index
    let target ← keyTarget state
    addLeaf target.1 target.2 info
  else return state

theorem elementTarget_ready (sound : state.Sound) :
    state.elementTarget.1.Ready state.elementTarget.2 := by
  unfold State.elementTarget
  split
  · rename_i id focused
    refine routeOption_ready sound.toGrounded (State.ready_some (sound.names_holds ?_))
    rcases Option.or_eq_some_iff.mp focused with block | ⟨-, body⟩
    · exact sound.block_named block
    · exact sound.body_named body
  · exact scopeTarget_ready sound.toGrounded

theorem keyTarget_ready (sound : state.Sound) : state.keyTarget.1.Ready state.keyTarget.2 := by
  unfold State.keyTarget
  split
  · rename_i id focused
    exact routeOption_ready sound.toGrounded
      (State.ready_some (sound.names_holds (sound.block_named focused)))
  · exact scopeTarget_ready sound.toGrounded

theorem onControl_ok (sound : state.Sound) (found : tokens[index]? = some token) :
    onControl tokens index state = .ok (state.onControl tokens index token) := by
  rw [onControl, controlInfo_ok found, ok_bind, elementTarget_ok sound, ok_bind,
    addLeaf_ok (elementTarget_ready sound)]
  rfl

theorem onProject_ok (sound : state.Sound) (found : tokens[index]? = some token) :
    onProject tokens index state = .ok (state.onProject tokens index token) := by
  rw [onProject, projectInfo_ok found, ok_bind, elementTarget_ok sound, ok_bind,
    addLeaf_ok (elementTarget_ready sound)]
  rfl

theorem onKey_ok (sound : state.Sound) (found : tokens[index]? = some token) :
    onKey tokens index state = .ok (state.onKey tokens index token) := by
  rw [onKey, isLineHead_ok, ok_bind, State.onKey]
  split
  · rw [keyInfo_ok found, ok_bind, keyTarget_ok sound, ok_bind, addLeaf_ok (keyTarget_ready sound)]
  · rfl

end Clarion.Checked
