import Clarion.Proofs.Checked.Structures

/-! Procedures, methods, routines, markers, ends and data, with every access checked. -/
namespace Clarion.Checked

open Outline

variable {state : State} {tokens : Tokens} {index : Nat} {token : Token}

/-! ### Bodies -/

/-- Makes a node and opens its scope as that of a body. -/
def openBody (state : State) (parent : Option NodeId) (info : Info) (finishesAt : Option Nat) :
    Checked State := do
  let made ← add state parent info
  openScope made.1.startBody made.2 finishesAt

theorem openBody_ok (grounded : state.Grounded) {parent : Option NodeId}
    (ready : state.Ready parent) (info : Info) (finishesAt : Option Nat) :
    openBody state parent info finishesAt = .ok (state.openBody parent info finishesAt) := by
  rw [openBody, add_ok ready, ok_bind]
  exact openScope_ok (grounded.add ready info).startBody (State.add_holds state parent info) finishesAt

/-- Closes every scope for a global procedure. -/
def atRoot (tokens : Tokens) (state : State) : Checked State := do
  let closed ← close tokens { state with scopes := [] } state.scopes state.previousLine
  refocus { closed with lastMethod := none }

theorem atRoot_ok (grounded : state.Grounded) (tokens : Tokens) :
    atRoot tokens state = .ok (state.atRoot tokens) := by
  have closed := (grounded.keep (show ∀ scope ∈ [], scope ∈ state.scopes by simp)).close tokens
    state.scopes state.previousLine
  rw [atRoot, close_ok, ok_bind]
  · exact refocus_ok closed.scopes
  · exact grounded.scopes

/-- A procedure with a body. -/
def openProcedure (tokens : Tokens) (index : Nat) (name : String) (isExplicit : Bool)
    (state : State) : Checked State := do
  let token ← get tokens index
  if isExplicit || state.focus.block.isNone then do
    let ready ← atRoot tokens state
    let info ← procedureInfo tokens index name true
    openBody ready none info token.finishesAt
  else do
    let info ← procedureInfo tokens index name false
    openBody state state.focus.block info token.finishesAt

theorem openProcedure_ok (sound : state.Sound) (found : tokens[index]? = some token)
    (name : String) (isExplicit : Bool) :
    openProcedure tokens index name isExplicit state =
      .ok (state.openProcedure tokens index token name isExplicit) := by
  rw [openProcedure, get_ok found, ok_bind, State.openProcedure_eq]
  split
  · rw [atRoot_ok sound.toGrounded, ok_bind, procedureInfo_ok found, ok_bind]
    exact openBody_ok (sound.toGrounded.atRoot tokens).toGrounded State.ready_none ..
  · rw [procedureInfo_ok found, ok_bind]
    exact openBody_ok sound.toGrounded
      (fun _ focused => sound.names_holds (sound.block_named focused)) ..

/-- Closes a part of the scopes up to the line before. -/
def shut (tokens : Tokens) (state : State) (parts : Scopes × Scopes) : Checked State := do
  let closed ← close tokens { state with scopes := parts.1 } parts.2 state.previousLine
  refocus closed

theorem shut_ok (grounded : state.Grounded) (tokens : Tokens) (holds : Scope → Bool) :
    shut tokens state (state.scopes.splitFrom holds) =
      .ok (state.shut tokens (state.scopes.splitFrom holds)) := by
  have closed := (grounded.keep (State.splitFrom_kept state.scopes holds)).close tokens
    (state.scopes.splitFrom holds).2 state.previousLine
  rw [shut, close_ok, ok_bind]
  · exact refocus_ok closed.scopes
  · exact fun scope member => grounded.scopes scope ((splitAt_mem state.scopes _).2 scope member)

/-- The class known under a name: by its label, or found in the outline. -/
def knownClass? (state : State) (className : String) : Checked (Option NodeId) :=
  match state.classes.lookup (Text.foldUpper className) with
  | some owner => .ok (some owner)
  | none => findClass state.arena className

/-- The class that declares a method, when there is one. -/
def declaringClass? (state : State) (className methodName : String) : Checked (Option NodeId) := do
  match ← knownClass? state className with
  | none => return none
  | some owner => do
    let declared ← findMethodDeclaration state.arena owner methodName
    return if declared.isSome then some owner else none

theorem declaringClass?_ok (grounded : state.Grounded) (className methodName : String) :
    declaringClass? state className methodName =
      .ok (state.declaringClass? className methodName) := by
  have known : knownClass? state className =
      .ok ((state.classes.lookup (Text.foldUpper className)).or (state.arena.findClass className)) := by
    unfold knownClass?
    cases state.classes.lookup (Text.foldUpper className) with
    | some owner => rfl
    | none => exact findClass_ok grounded.arena className
  rw [declaringClass?, known, ok_bind, State.declaringClass?]
  cases (state.classes.lookup (Text.foldUpper className)).or (state.arena.findClass className) with
  | none => rfl
  | some owner =>
    dsimp only
    rw [findMethodDeclaration_ok grounded.arena, ok_bind]
    rfl

/-- The node that a method implementation goes under, with the detail it shows. -/
def methodOwner (tokens : Tokens) (index : Nat) (className methodName : String) (state : State) :
    Checked (State × NodeId × String) := do
  match ← declaringClass? state className methodName with
  | some owner => return (state, owner, "Implementation")
  | none => do
    let detail := className ++ "." ++ methodName
    match ← findImplementationRoot state.arena className with
    | some root => return (state, root, detail)
    | none => do
      let info ← undeclaredClassInfo tokens index className
      let made ← add state none info
      return (made.1, made.2, detail)

theorem methodOwner_ok (grounded : state.Grounded) (found : tokens[index]? = some token)
    (className methodName : String) :
    methodOwner tokens index className methodName state =
      .ok (state.methodOwner tokens index token className methodName) := by
  rw [methodOwner, declaringClass?_ok grounded, ok_bind, State.methodOwner]
  cases state.declaringClass? className methodName with
  | some owner => rfl
  | none =>
    dsimp only
    rw [findImplementationRoot_ok grounded.arena, ok_bind]
    cases state.arena.findImplementationRoot className with
    | some root => rfl
    | none =>
      dsimp only
      rw [undeclaredClassInfo_ok found, ok_bind, add_ok State.ready_none, ok_bind]
      rfl

/-- Closes the methods before a method, and makes its owner and the group of its methods ready. -/
def atMethods (tokens : Tokens) (index : Nat) (className methodName : String) (state : State) :
    Checked (State × NodeId × String) := do
  let parts ← splitFrom state.scopes fun scope => .ok (scope.kind == .methodImplementation)
  let closed ← shut tokens state parts
  let owned ← methodOwner tokens index className methodName closed
  let grouped ← groupOf owned.1 owned.2.1 .methods
  return (grouped.1, grouped.2, owned.2.2)

theorem atMethods_ok (sound : state.Sound) (found : tokens[index]? = some token)
    (className methodName : String) :
    atMethods tokens index className methodName state =
      .ok (state.atMethods tokens index token className methodName) := by
  have closed : (state.shut tokens state.scopes.splitMethods).Sound :=
    sound.toGrounded.shut tokens (State.splitFrom_kept state.scopes _)
  obtain ⟨-, held⟩ := closed.methodOwner tokens index token className methodName
  have split : splitFrom state.scopes (fun scope => .ok (scope.kind == .methodImplementation)) =
      .ok state.scopes.splitMethods := splitFrom_ok fun _ _ => rfl
  have shutDown : shut tokens state state.scopes.splitMethods =
      .ok (state.shut tokens state.scopes.splitMethods) := shut_ok sound.toGrounded tokens _
  rw [atMethods, split, ok_bind, shutDown, ok_bind, methodOwner_ok closed.toGrounded found, ok_bind,
    groupOf_ok held, ok_bind]
  rfl

/-- A method with a body. -/
def openMethod (tokens : Tokens) (index : Nat) (className methodName : String) (state : State) :
    Checked State := do
  let token ← get tokens index
  let ready ← atMethods tokens index className methodName state
  let info ← methodInfo tokens index className methodName ready.2.2
  let made ← add ready.1 (some ready.2.1) info
  openScope { made.1 with hasMethods := true, lastMethod := some made.2 }.startBody made.2
    token.finishesAt

theorem openMethod_ok (sound : state.Sound) (found : tokens[index]? = some token)
    (className methodName : String) :
    openMethod tokens index className methodName state =
      .ok (state.openMethod tokens index token className methodName) := by
  obtain ⟨grouped, held⟩ := sound.atMethods tokens index token className methodName
  rw [openMethod, get_ok found, ok_bind, atMethods_ok sound found, ok_bind, methodInfo_ok found,
    ok_bind, add_ok (State.ready_some held), ok_bind, State.openMethod_eq]
  dsimp only
  generalize state.atMethods tokens index token className methodName = ready at grouped held
  generalize Outline.methodInfo tokens index token className methodName ready.2.2 = info
  have there := State.add_holds ready.1 (some ready.2.1) info
  have made := (grouped.add (State.ready_some held) info).rememberMethod there
  exact openScope_ok made.toGrounded.startBody there token.finishesAt

/-- A prototype goes into the innermost open class, interface, map or module. -/
def declarePrototype (tokens : Tokens) (index : Nat) (name : String) (state : State) :
    Checked State := do
  let token ← get tokens index
  match ← innermost? state.scopes (scopeKindIs state Kind.isDefinition) with
  | some scope => do
    let owner ← node state.arena scope.node
    match owner.info.kind with
    | .classDecl => do
      let methods ← groupOf state scope.node .methods
      let info ← prototypeInfo tokens index name .method true false
      addLeaf methods.1 (some methods.2) info
    | .interfaceDecl => do
      let info ← prototypeInfo tokens index name .method true false
      addLeaf state (some scope.node) info
    | _ => do
      let functions ← groupOf state scope.node .functions
      let info ← prototypeInfo tokens index name .procedure false true
      addLeaf functions.1 (some functions.2) info
  | none => do
    let isMap := token.role == some .mapProcedure
    let isMethod := token.role == some .methodDeclaration || token.role == some .interfaceMethod
    let info ← prototypeInfo tokens index name .procedure isMethod isMap
    addLeaf state state.focus.block info

theorem declarePrototype_ok (sound : state.Sound) (found : tokens[index]? = some token)
    (name : String) :
    declarePrototype tokens index name state =
      .ok (state.declarePrototype tokens index token name) := by
  rw [declarePrototype, get_ok found, ok_bind,
    innermost?_ok (scopeKindIs_ok sound.toGrounded Kind.isDefinition), ok_bind,
    State.declarePrototype]
  cases innermost : state.scopes.innermost? (state.scopeKindIs Kind.isDefinition) with
  | none =>
    simp only [prototypeInfo_ok found, ok_bind]
    exact addLeaf_ok (fun _ focused => sound.names_holds (sound.block_named focused)) _
  | some scope =>
    have held := sound.innermost_holds innermost
    obtain ⟨owner, here⟩ := held.node?
    have methods := (sound.ensureGroup held .methods).2
    have functions := (sound.ensureGroup held .functions).2
    simp only [node_ok here, ok_bind, Option.map_some, Option.bind_some, Arena.kind?, here,
      groupOf_ok held, prototypeInfo_ok found]
    cases owner.info.kind with
    | classDecl => exact addLeaf_ok (State.ready_some methods) _
    | interfaceDecl => exact addLeaf_ok (State.ready_some held) _
    | _ => exact addLeaf_ok (State.ready_some functions) _

/-- A procedure token. -/
def onProcedure (tokens : Tokens) (index : Nat) (state : State) : Checked State := do
  let token ← get tokens index
  let name ← procedureName tokens index
  if state.hasBody token then
    let isExplicit := token.role == some .globalProcedure
    match Text.cut '.' name with
    | some (className, methodName) =>
      if isExplicit then openProcedure tokens index name isExplicit state
      else openMethod tokens index className methodName state
    | none => openProcedure tokens index name isExplicit state
  else declarePrototype tokens index name state

theorem onProcedure_ok (sound : state.Sound) (found : tokens[index]? = some token) :
    onProcedure tokens index state = .ok (state.onProcedure tokens index token) := by
  rw [onProcedure, get_ok found, ok_bind, procedureName_ok found, ok_bind, State.onProcedure]
  dsimp only
  split
  · cases Text.cut '.' (Outline.procedureName tokens index token) with
    | none => exact openProcedure_ok sound found ..
    | some parts =>
      dsimp only
      split
      · exact openProcedure_ok sound found ..
      · exact openMethod_ok sound found ..
  · exact declarePrototype_ok sound found _

/-! ### Routines, markers and ends -/

/-- The method implementation that the procedure token before a routine introduced. -/
def methodBefore? (tokens : Tokens) (index : Nat) (state : State) : Checked (Option NodeId) := do
  let before ← slice tokens 0 index
  let named := do
    let procedure ← before.reverse.find? fun token =>
      token.kind == .procedure && !token.isDeclaration
    let label ← procedure.label
    Text.cut '.' label
  match named with
  | some (className, methodName) => findMethodImplementation state.arena className methodName
  | none => return none

theorem methodBefore?_ok (grounded : state.Grounded) (bound : index < tokens.length) :
    methodBefore? tokens index state = .ok (state.methodBefore? tokens index) := by
  rw [methodBefore?, slice_ok (Nat.zero_le index) (Nat.le_of_lt bound), ok_bind, State.methodBefore?]
  simp only [List.drop_zero, Option.bind_eq_bind]
  cases (tokens.take index).reverse.find? fun token =>
      token.kind == .procedure && !token.isDeclaration with
  | none => rfl
  | some procedure =>
    simp only [Option.bind_some]
    cases procedure.label with
    | none => rfl
    | some label =>
      simp only [Option.bind_some]
      cases Text.cut '.' label with
      | none => rfl
      | some parts => exact findMethodImplementation_ok grounded.arena parts.1 parts.2

/-- The node that a routine goes under. -/
def routineParent? (tokens : Tokens) (index : Nat) (state : State) : Checked (Option NodeId) := do
  match ← innermost? state.scopes (scopeKindIs state Kind.isCallable) with
  | some scope => return some scope.node
  | none => do
    match ← methodBefore? tokens index state with
    | some id => return some id
    | none => lastGlobalProcedure? state.arena

theorem routineParent?_ok (grounded : state.Grounded) (bound : index < tokens.length) :
    routineParent? tokens index state = .ok (state.routineParent? tokens index) := by
  rw [routineParent?, innermost?_ok (scopeKindIs_ok grounded Kind.isCallable), ok_bind,
    State.routineParent?]
  cases state.scopes.innermost? (state.scopeKindIs Kind.isCallable) with
  | some scope => rfl
  | none =>
    dsimp only
    rw [methodBefore?_ok grounded bound, ok_bind]
    cases state.methodBefore? tokens index with
    | some id => rfl
    | none => exact lastGlobalProcedure?_ok grounded.arena

/-- A routine: it ends the routine before it, and belongs to the body it stands in. -/
def onRoutine (tokens : Tokens) (index : Nat) (state : State) : Checked State := do
  let token ← get tokens index
  let name ← routineName tokens index
  let parts ← splitFrom state.scopes (scopeKindIs state (· == .routine))
  let closed ← shut tokens state parts
  let parent ← routineParent? tokens index closed
  let info ← routineInfo tokens index name
  let made ← add closed parent info
  let noted := { made.1 with pastCode := true }
  if info.traits.isSpecialRoutine || token.finishesAt.isSome then
    openScope noted made.2 token.finishesAt
  else return noted

theorem onRoutine_ok (sound : state.Sound) (found : tokens[index]? = some token) :
    onRoutine tokens index state = .ok (state.onRoutine tokens index token) := by
  have bound := (List.getElem?_eq_some_iff.mp found).1
  have split := splitFrom_ok (scopeKindIs_ok sound.toGrounded (· == .routine))
  have closed : (state.atRoutine tokens).Sound :=
    sound.toGrounded.shut tokens (State.splitFrom_kept state.scopes _)
  have ready := closed.toGrounded.routineParent_ready tokens index
  have shutDown : shut tokens state
      (state.scopes.splitFrom (state.scopeKindIs (· == .routine))) = .ok (state.atRoutine tokens) :=
    shut_ok sound.toGrounded tokens _
  rw [onRoutine, get_ok found, ok_bind, routineName_ok found, ok_bind, split, ok_bind, shutDown,
    ok_bind, routineParent?_ok closed.toGrounded bound, ok_bind, routineInfo_ok found, ok_bind,
    add_ok ready, ok_bind, State.onRoutine_eq]
  dsimp only
  generalize Outline.routineInfo tokens index token (State.routineName tokens index token) = info
  generalize (state.atRoutine tokens).routineParent? tokens index = parent at ready
  have there := State.add_holds (state.atRoutine tokens) parent info
  have made := closed.add ready info
  have noted : { ((state.atRoutine tokens).add parent info).1 with pastCode := true }.Grounded :=
    (made.note true _).toGrounded
  split
  · exact openScope_ok noted there token.finishesAt
  · rfl

/-- The code of a body: its marker goes under the body, and in a method it clears the focus. -/
def markCode (token : Token) (state : State) : Checked State := do
  match ← innermost? state.scopes
      (scopeKindIs state fun kind => kind.isCallable || kind == .routine) with
  | none => return state
  | some scope => do
    let filed ← addLeaf state (some scope.node) (codeInfo token)
    let owner ← node filed.arena scope.node
    if owner.info.kind == .method then refocus { filed with codeReached := some scope.node }
    else return filed

theorem markCode_ok (sound : state.Sound) :
    markCode token state = .ok
      (match state.scopes.innermost?
          (state.scopeKindIs fun kind => kind.isCallable || kind == .routine) with
      | none => state
      | some scope =>
        let filed := state.addLeaf (some scope.node) (codeInfo token)
        if filed.arena.kind? scope.node == some .method then
          { filed with codeReached := some scope.node }.refocus
        else filed) := by
  rw [markCode, innermost?_ok (scopeKindIs_ok sound.toGrounded _), ok_bind]
  split
  · rfl
  · rename_i scope innermost
    have held := sound.innermost_holds innermost
    have made := sound.addLeaf (State.ready_some held) (codeInfo token)
    have grows := (State.addLeaf_adds state (some scope.node) (codeInfo token)).grows
    obtain ⟨owner, here⟩ := (grows.holds held).node?
    dsimp only
    rw [addLeaf_ok (State.ready_some held), ok_bind, node_ok here, ok_bind, Arena.kind?, here]
    cases isMethod : owner.info.kind == .method with
    | true =>
      rw [if_pos rfl, if_pos (by simpa using isMethod)]
      exact refocus_ok made.scopes
    | false =>
      rw [if_neg (by simp), if_neg (by simpa using isMethod)]
      rfl

/-- A section marker. -/
def onMarker (tokens : Tokens) (index : Nat) (state : State) : Checked State := do
  let token ← get tokens index
  if token.reads "DATA" then return { state with pastCode := false }
  else if token.reads "CODE" then markCode token { state with pastCode := true }
  else return state

theorem onMarker_ok (sound : state.Sound) (found : tokens[index]? = some token) :
    onMarker tokens index state = .ok (state.onMarker token) := by
  have noted : { state with pastCode := true }.Sound := sound.note true _
  rw [onMarker, get_ok found, ok_bind, State.onMarker]
  split
  · rfl
  · split
    · exact markCode_ok noted
    · rfl

/-- `UNTIL` or `WHILE` closes the innermost block if that is a loop. -/
def onLoopTerminator (tokens : Tokens) (index : Nat) (state : State) : Checked State :=
  match state.openBlocks with
  | [] => .ok state
  | opener :: outer => do
    if ← closesBlock tokens index opener then return { state with openBlocks := outer }
    else return state

theorem onLoopTerminator_ok (tokens : Tokens) (index : Nat) (state : State) :
    onLoopTerminator tokens index state = .ok (state.onLoopTerminator tokens index) := by
  unfold onLoopTerminator State.onLoopTerminator
  cases state.openBlocks with
  | nil => rfl
  | cons opener outer =>
    dsimp only
    rw [closesBlock_ok, ok_bind]
    split <;> rfl

/-- An end closes the innermost executable block, or else the innermost structure that has no
closing line. -/
def onEnd (tokens : Tokens) (index : Nat) (state : State) : Checked State :=
  match state.openBlocks with
  | _ :: outer => .ok { state with openBlocks := outer }
  | [] => do
    let token ← get tokens index
    let parts ← popOpenEnded state.scopes
      (scopeKindIs state fun kind => !kind.isCallable && kind != .routine)
    match parts.2 with
    | none => return state
    | some scope => do
      let arena ← extendTo state.arena scope.node ⟨token.line, token.stop⟩
      refocus { state with scopes := parts.1, arena }

theorem onEnd_ok (sound : state.Sound) (found : tokens[index]? = some token) :
    onEnd tokens index state = .ok (state.onEnd token) := by
  unfold onEnd State.onEnd
  cases state.openBlocks with
  | cons _ outer => rfl
  | nil =>
    have kept := State.popOpenEnded_kept state.scopes
      (state.scopeKindIs fun kind => !kind.isCallable && kind != .routine)
    dsimp only
    rw [get_ok found, ok_bind, popOpenEnded_ok (scopeKindIs_ok sound.toGrounded _), ok_bind]
    cases popped : (state.scopes.popOpenEnded
        (state.scopeKindIs fun kind => !kind.isCallable && kind != .routine)).2 with
    | none => rfl
    | some scope =>
      have held := sound.scopes scope (popOpenEnded_popped popped)
      have grows := Arena.extendTo_grows state.arena scope.node ⟨token.line, token.stop⟩
      dsimp only
      rw [extendTo_ok held, ok_bind]
      refine refocus_ok ?_
      exact fun other member => grows.holds (sound.scopes other (kept other member))

end Clarion.Checked
