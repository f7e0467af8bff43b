import Clarion.Proofs.LookAhead

/-! Procedures, methods, routines, markers and ends. Each handler is brought into the form in which
later arguments use it: the state it works from, the node it makes, the scope it opens; and each
keeps the state sound while the arena grows. -/
namespace Clarion.Outline.State

variable {state : State} {tokens : Tokens} {index : Nat} {token : Token}

/-! ### Bodies -/

/-- Forgetting the body before leaves the indices alone. -/
theorem Grounded.startBody (grounded : state.Grounded) : state.startBody.Grounded :=
  ⟨grounded.arena, grounded.scopes, grounded.lastMethod, grounded.classes, grounded.prebuilt⟩

/-- A node is made below a parent, what belonged to the body before is forgotten, and the node
opens its scope. -/
def openBody (state : State) (parent : Option NodeId) (info : Info) (finishesAt : Option Nat) :
    State :=
  (state.add parent info).1.startBody.openScope (state.add parent info).2 finishesAt

theorem Grounded.openBody (grounded : state.Grounded) {parent : Option NodeId}
    (ready : state.Ready parent) (info : Info) (finishesAt : Option Nat) :
    (state.openBody parent info finishesAt).Sound :=
  (grounded.add ready info).startBody.openScope (add_holds _ parent info) finishesAt

theorem openBody_grows (state : State) (parent : Option NodeId) (info : Info)
    (finishesAt : Option Nat) :
    state.arena.Grows (state.openBody parent info finishesAt).arena :=
  (add_adds state parent info).grows

/-- The state in which a global procedure opens: nothing is open, and no method is remembered. -/
def atRoot (tokens : Tokens) (state : State) : State :=
  { { state with scopes := [] }.close tokens state.scopes state.previousLine with
    lastMethod := none }.refocus

theorem Grounded.atRoot (grounded : state.Grounded) (tokens : Tokens) :
    (state.atRoot tokens).Sound := by
  have closed : ({ state with scopes := [] }.close tokens state.scopes state.previousLine).Grounded :=
    (grounded.keep (by simp)).close ..
  exact Grounded.refocus ⟨closed.arena, closed.scopes, by simp, closed.classes, closed.prebuilt⟩

@[simp] theorem atRoot_scopes (tokens : Tokens) (state : State) :
    (state.atRoot tokens).scopes = [] :=
  (close_adds tokens { state with scopes := [] } state.scopes state.previousLine).scopes

@[simp] theorem atRoot_lastMethod (tokens : Tokens) (state : State) :
    (state.atRoot tokens).lastMethod = none :=
  rfl

@[simp] theorem atRoot_size (tokens : Tokens) (state : State) :
    (state.atRoot tokens).arena.nodes.size = state.arena.nodes.size :=
  close_size tokens { state with scopes := [] } state.scopes state.previousLine

@[simp] theorem atRoot_prebuilt (tokens : Tokens) (state : State) :
    (state.atRoot tokens).prebuilt = state.prebuilt :=
  (close_adds tokens { state with scopes := [] } state.scopes state.previousLine).prebuilt

@[simp] theorem atRoot_classes (tokens : Tokens) (state : State) :
    (state.atRoot tokens).classes = state.classes :=
  (close_adds tokens { state with scopes := [] } state.scopes state.previousLine).classes

@[simp] theorem atRoot_handled (tokens : Tokens) (state : State) :
    (state.atRoot tokens).handled = state.handled :=
  (close_adds tokens { state with scopes := [] } state.scopes state.previousLine).handled

theorem atRoot_grows (tokens : Tokens) (state : State) :
    state.arena.Grows (state.atRoot tokens).arena := by
  have adds : State.Adds { state with scopes := [] }
    ({ state with scopes := [] }.close tokens state.scopes state.previousLine) := close_adds ..
  exact adds.grows

/-- A procedure with a body opens below the block in focus, or at the root with nothing open. -/
theorem openProcedure_eq (tokens : Tokens) (index : Nat) (token : Token) (name : String)
    (isExplicit : Bool) (state : State) :
    state.openProcedure tokens index token name isExplicit =
      if isExplicit || state.focus.block.isNone then
        (state.atRoot tokens).openBody none (procedureInfo tokens index token name true)
          token.finishesAt
      else
        state.openBody state.focus.block (procedureInfo tokens index token name false)
          token.finishesAt := by
  unfold openProcedure
  cases isExplicit || state.focus.block.isNone <;> rfl

/-- The scopes after a number of them are closed up to a line, with the focus read off again. -/
def shut (tokens : Tokens) (state : State) (parts : Scopes × Scopes) : State :=
  ({ state with scopes := parts.1 }.close tokens parts.2 state.previousLine).refocus

@[simp] theorem shut_scopes (tokens : Tokens) (state : State) (parts : Scopes × Scopes) :
    (state.shut tokens parts).scopes = parts.1 :=
  (close_adds tokens { state with scopes := parts.1 } parts.2 state.previousLine).scopes

@[simp] theorem shut_lastMethod (tokens : Tokens) (state : State) (parts : Scopes × Scopes) :
    (state.shut tokens parts).lastMethod = state.lastMethod :=
  (close_adds tokens { state with scopes := parts.1 } parts.2 state.previousLine).lastMethod

@[simp] theorem shut_prebuilt (tokens : Tokens) (state : State) (parts : Scopes × Scopes) :
    (state.shut tokens parts).prebuilt = state.prebuilt :=
  (close_adds tokens { state with scopes := parts.1 } parts.2 state.previousLine).prebuilt

@[simp] theorem shut_classes (tokens : Tokens) (state : State) (parts : Scopes × Scopes) :
    (state.shut tokens parts).classes = state.classes :=
  (close_adds tokens { state with scopes := parts.1 } parts.2 state.previousLine).classes

@[simp] theorem shut_handled (tokens : Tokens) (state : State) (parts : Scopes × Scopes) :
    (state.shut tokens parts).handled = state.handled :=
  (close_adds tokens { state with scopes := parts.1 } parts.2 state.previousLine).handled

theorem shut_grows (tokens : Tokens) (state : State) (parts : Scopes × Scopes) :
    state.arena.Grows (state.shut tokens parts).arena := by
  have adds : State.Adds { state with scopes := parts.1 }
    ({ state with scopes := parts.1 }.close tokens parts.2 state.previousLine) := close_adds ..
  exact adds.grows

theorem Grounded.shut (grounded : state.Grounded) (tokens : Tokens) {parts : Scopes × Scopes}
    (included : ∀ scope ∈ parts.1, scope ∈ state.scopes) : (state.shut tokens parts).Sound :=
  ((grounded.keep included).close tokens parts.2 state.previousLine).refocus

theorem splitFrom_kept (scopes : Scopes) (holds : Scope → Bool) :
    ∀ scope ∈ (scopes.splitFrom holds).1, scope ∈ scopes := by
  intro scope member
  rw [Scopes.splitFrom, List.splitAt_eq] at member
  exact List.mem_of_mem_take member

/-- A class that declares the method is a node. -/
theorem Grounded.declaringClass_holds (grounded : state.Grounded) {className methodName : String}
    {owner : NodeId} (found : state.declaringClass? className methodName = some owner) :
    state.arena.Holds owner := by
  obtain ⟨-, declares⟩ := Option.filter_eq_some_iff.mp found
  obtain ⟨method, declared⟩ := Option.isSome_iff_exists.mp declares
  obtain ⟨methods, recorded, -⟩ := Option.bind_eq_some_iff.mp declared
  obtain ⟨node, held, parent, -⟩ := grounded.arena.group recorded
  obtain ⟨-, upper, above, -⟩ := grounded.arena.parent held parent
  exact Arena.holds_of_node? above

theorem methodOwner_adds (tokens : Tokens) (index : Nat) (token : Token)
    (className methodName : String) (state : State) :
    state.Adds (state.methodOwner tokens index token className methodName).1 := by
  unfold methodOwner
  split
  · exact .refl _
  · dsimp only
    split
    · exact .refl _
    · exact add_adds state none _

/-- The owner of a method implementation is a node. -/
theorem Sound.methodOwner (sound : state.Sound) (tokens : Tokens) (index : Nat) (token : Token)
    (className methodName : String) :
    (state.methodOwner tokens index token className methodName).1.Sound ∧
      (state.methodOwner tokens index token className methodName).1.arena.Holds
        (state.methodOwner tokens index token className methodName).2.1 := by
  unfold State.methodOwner
  split
  · rename_i owner found
    exact ⟨sound, sound.declaringClass_holds found⟩
  · dsimp only
    split
    · rename_i root found
      exact ⟨sound, sound.arena.root_holds (List.mem_of_find?_eq_some found)⟩
    · exact ⟨sound.add ready_none _, add_holds state none _⟩

/-- The state in which a method opens: its owner is there, with a group for its methods. -/
def atMethods (tokens : Tokens) (index : Nat) (token : Token) (className methodName : String)
    (state : State) : State × NodeId × String :=
  let owned := (state.shut tokens state.scopes.splitMethods).methodOwner tokens index token
    className methodName
  let grouped := owned.1.ensureGroup owned.2.1 .methods
  (grouped.1, grouped.2, owned.2.2)

theorem openMethod_eq (tokens : Tokens) (index : Nat) (token : Token)
    (className methodName : String) (state : State) :
    state.openMethod tokens index token className methodName =
      let ready := state.atMethods tokens index token className methodName
      let info := methodInfo tokens index token className methodName ready.2.2
      { ready.1.openBody (some ready.2.1) info token.finishesAt with
        hasMethods := true
        lastMethod := some ready.1.arena.nodes.size } := rfl

/-- Making the owner and its group ready only adds nodes to the state with its methods closed. -/
theorem atMethods_adds (tokens : Tokens) (index : Nat) (token : Token)
    (className methodName : String) (state : State) :
    (state.shut tokens state.scopes.splitMethods).Adds
      (state.atMethods tokens index token className methodName).1 :=
  (methodOwner_adds ..).trans (ensureGroup_adds ..)

theorem atMethods_grows (tokens : Tokens) (index : Nat) (token : Token)
    (className methodName : String) (state : State) :
    state.arena.Grows (state.atMethods tokens index token className methodName).1.arena :=
  (shut_grows tokens state state.scopes.splitMethods).trans (atMethods_adds ..).grows

theorem Sound.atMethods (sound : state.Sound) (tokens : Tokens) (index : Nat) (token : Token)
    (className methodName : String) :
    (state.atMethods tokens index token className methodName).1.Sound ∧
      (state.atMethods tokens index token className methodName).1.arena.Holds
        (state.atMethods tokens index token className methodName).2.1 := by
  have closed : (state.shut tokens state.scopes.splitMethods).Sound :=
    sound.toGrounded.shut tokens (splitFrom_kept state.scopes _)
  obtain ⟨owned, held⟩ := closed.methodOwner tokens index token className methodName
  exact owned.ensureGroup held .methods

/-- The node that opens a body is there afterwards. -/
theorem openBody_holds (state : State) (parent : Option NodeId) (info : Info)
    (finishesAt : Option Nat) :
    (state.openBody parent info finishesAt).arena.Holds state.arena.nodes.size :=
  add_id state parent info ▸ add_holds state parent info

theorem Sound.rememberMethod (sound : state.Sound) {node : NodeId}
    (held : state.arena.Holds node) :
    { state with hasMethods := true, lastMethod := some node }.Sound := by
  refine ⟨⟨sound.arena, sound.scopes, ?_, sound.classes, sound.prebuilt⟩, sound.focus⟩
  rintro _ ⟨⟩
  exact held

theorem Sound.openMethod (sound : state.Sound) (className methodName : String) :
    (state.openMethod tokens index token className methodName).Sound ∧
      state.arena.Grows (state.openMethod tokens index token className methodName).arena := by
  obtain ⟨ready, held⟩ := sound.atMethods tokens index token className methodName
  have grows := atMethods_grows tokens index token className methodName state
  rw [openMethod_eq]
  dsimp only
  generalize state.atMethods tokens index token className methodName = parts at ready grows held
  generalize methodInfo tokens index token className methodName parts.2.2 = info
  have opened := ready.toGrounded.openBody (ready_some held) info token.finishesAt
  exact ⟨opened.rememberMethod (openBody_holds ..), grows.trans (openBody_grows ..)⟩

/-! ### Routines, markers and ends -/

/-- What is found again by the procedure token before a routine is a method implementation. -/
theorem methodBefore_implements {id : NodeId}
    (found : state.methodBefore? tokens index = some id) :
    ∃ node, state.arena.node? id = some node ∧ node.info.traits.isMethodImplementation := by
  simp only [methodBefore?, Option.bind_eq_bind, Option.bind_eq_some_iff] at found
  obtain ⟨procedure, -, label, -, ⟨className, methodName⟩, -, found⟩ := found
  have tested := List.find?_some found
  obtain ⟨node, held, passed⟩ := (Option.any_eq_true ..).mp tested
  exact ⟨node, held, ((Bool.and_eq_true _ _).mp passed).1⟩

/-- The node that a routine goes under: the innermost open body, the method before it in the text,
or the last global procedure. -/
def routineParent? (tokens : Tokens) (index : Nat) (state : State) : Option NodeId :=
  (((state.scopes.innermost? (state.scopeKindIs Kind.isCallable)).map Scope.node).or
    (state.methodBefore? tokens index)).or state.arena.lastGlobalProcedure?

/-- The state in which a routine is filed: the routine before it is closed. -/
def atRoutine (tokens : Tokens) (state : State) : State :=
  state.shut tokens (state.scopes.splitFrom (state.scopeKindIs (· == .routine)))

theorem onRoutine_eq (tokens : Tokens) (index : Nat) (token : Token) (state : State) :
    state.onRoutine tokens index token =
      let ready := state.atRoutine tokens
      let info := routineInfo tokens index token (routineName tokens index token)
      let made := ready.add (ready.routineParent? tokens index) info
      if info.traits.isSpecialRoutine || token.finishesAt.isSome then
        { made.1 with pastCode := true }.openScope made.2 token.finishesAt
      else { made.1 with pastCode := true } := rfl

theorem Grounded.routineParent_ready (grounded : state.Grounded) (tokens : Tokens) (index : Nat) :
    state.Ready (state.routineParent? tokens index) := by
  intro id named
  rcases Option.or_eq_some_iff.mp named with named | ⟨-, named⟩
  · rcases Option.or_eq_some_iff.mp named with named | ⟨-, named⟩
    · obtain ⟨scope, found, rfl⟩ := Option.map_eq_some_iff.mp named
      exact grounded.innermost_holds found
    · obtain ⟨node, held, -⟩ := methodBefore_implements named
      exact Arena.holds_of_node? held
  · exact grounded.lastGlobal_holds named

theorem Sound.onRoutine (sound : state.Sound) :
    (state.onRoutine tokens index token).Sound ∧
      state.arena.Grows (state.onRoutine tokens index token).arena := by
  have closed : (state.atRoutine tokens).Sound :=
    sound.toGrounded.shut tokens (splitFrom_kept state.scopes _)
  have grows : state.arena.Grows (state.atRoutine tokens).arena := shut_grows ..
  have ready := closed.toGrounded.routineParent_ready tokens index
  rw [onRoutine_eq]
  dsimp only
  generalize routineInfo tokens index token (routineName tokens index token) = info
  generalize (state.atRoutine tokens).routineParent? tokens index = parent at ready
  have made := closed.add ready info
  have noted : { ((state.atRoutine tokens).add parent info).1 with pastCode := true }.Sound :=
    made.note true _
  have later :
      (state.atRoutine tokens).arena.Grows ((state.atRoutine tokens).add parent info).1.arena :=
    (add_adds ..).grows
  split
  · exact ⟨noted.toGrounded.openScope (add_holds _ parent info) _, grows.trans later⟩
  · exact ⟨noted, grows.trans later⟩

theorem onMarker_frame (token : Token) (state : State) :
    ∃ arena focus pastCode codeReached,
      state.onMarker token = { state with arena, focus, pastCode, codeReached } := by
  unfold onMarker
  split
  · exact ⟨_, _, _, _, rfl⟩
  · split
    · dsimp only
      split
      · exact ⟨_, _, _, _, rfl⟩
      · split <;> exact ⟨_, _, _, _, rfl⟩
    · exact ⟨_, _, _, _, rfl⟩

theorem Sound.onMarker (sound : state.Sound) :
    (state.onMarker token).Sound ∧ state.arena.Grows (state.onMarker token).arena := by
  have noted (pastCode : Bool) : { state with pastCode }.Sound := sound.note pastCode _
  unfold State.onMarker
  split
  · exact ⟨noted false, .refl _⟩
  · split
    · dsimp only
      split
      · exact ⟨noted true, .refl _⟩
      · rename_i scope found
        have held : { state with pastCode := true }.arena.Holds scope.node :=
          (noted true).innermost_holds found
        have made := (noted true).addLeaf (ready_some held) (codeInfo token)
        have grows : state.arena.Grows
            ({ state with pastCode := true }.addLeaf (some scope.node) (codeInfo token)).arena :=
          (addLeaf_adds { state with pastCode := true } (some scope.node) (codeInfo token)).grows
        split
        · exact ⟨Grounded.refocus ⟨made.arena, made.scopes, made.lastMethod, made.classes,
            made.prebuilt⟩, grows⟩
        · exact ⟨made, grows⟩
    · exact ⟨sound, .refl _⟩

theorem onLoopTerminator_frame (tokens : Tokens) (index : Nat) (state : State) :
    ∃ openBlocks, state.onLoopTerminator tokens index = { state with openBlocks } := by
  unfold onLoopTerminator
  split
  · exact ⟨_, rfl⟩
  · split <;> exact ⟨_, rfl⟩

theorem Sound.onLoopTerminator (sound : state.Sound) :
    (state.onLoopTerminator tokens index).Sound ∧
      (state.onLoopTerminator tokens index).arena = state.arena := by
  unfold State.onLoopTerminator
  split
  · exact ⟨sound, rfl⟩
  · split
    · exact ⟨sound.note state.pastCode _, rfl⟩
    · exact ⟨sound, rfl⟩

theorem popOpenEnded_kept (scopes : Scopes) (closes : Scope → Bool) :
    ∀ scope ∈ (scopes.popOpenEnded closes).1, scope ∈ scopes := by
  intro scope member
  unfold Scopes.popOpenEnded at member
  split at member
  · split at member
    · exact List.dropLast_subset _ member
    · exact member
  · exact member

theorem onEnd_frame (token : Token) (state : State) :
    ∃ arena scopes focus openBlocks,
      state.onEnd token = { state with arena, scopes, focus, openBlocks } := by
  unfold onEnd
  split
  · exact ⟨_, _, _, _, rfl⟩
  · dsimp only
    split <;> exact ⟨_, _, _, _, rfl⟩

theorem Sound.onEnd (sound : state.Sound) :
    (state.onEnd token).Sound ∧ state.arena.Grows (state.onEnd token).arena := by
  unfold State.onEnd
  split
  · exact ⟨sound.note state.pastCode _, .refl _⟩
  · have included := popOpenEnded_kept state.scopes
      (state.scopeKindIs fun kind => !kind.isCallable && kind != .routine)
    dsimp only
    split
    · exact ⟨sound, .refl _⟩
    · rename_i scope _
      have grows := Arena.extendTo_grows state.arena scope.node ⟨token.line, token.stop⟩
      refine ⟨Grounded.refocus ⟨sound.arena.extendTo .., ?_, ?_, ?_, ?_⟩, grows⟩
      · exact fun other member => grows.holds (sound.scopes other (included other member))
      · exact fun id named => grows.holds (sound.lastMethod id named)
      · exact fun entry member => grows.holds (sound.classes entry member)
      · exact fun entry member => grows.holds (sound.prebuilt entry member)

/-- What a procedure token turns out to be. -/
inductive ProcedureUse where
  | prototype
  | body (isGlobal : Bool)
  | method (className methodName : String)
deriving Repr, DecidableEq

/-- What a procedure token turns out to be, in the state in which it is dispatched. -/
def procedureUse (tokens : Tokens) (index : Nat) (token : Token) (state : State) : ProcedureUse :=
  if state.hasBody token then
    match Text.cut '.' (procedureName tokens index token) with
    | some (className, methodName) =>
      if token.role == some .globalProcedure then .body true else .method className methodName
    | none => .body (token.role == some .globalProcedure || state.focus.block.isNone)
  else .prototype

/-- A procedure token by its use: a prototype, a global or enclosed body, or a method. -/
theorem onProcedure_eq (tokens : Tokens) (index : Nat) (token : Token) (state : State) :
    state.onProcedure tokens index token =
      match state.procedureUse tokens index token with
      | .prototype =>
        state.declarePrototype tokens index token (procedureName tokens index token)
      | .body true => (state.atRoot tokens).openBody none
          (procedureInfo tokens index token (procedureName tokens index token) true)
          token.finishesAt
      | .body false => state.openBody state.focus.block
          (procedureInfo tokens index token (procedureName tokens index token) false)
          token.finishesAt
      | .method className methodName =>
        state.openMethod tokens index token className methodName := by
  unfold onProcedure procedureUse
  dsimp only
  generalize procedureName tokens index token = name
  cases state.hasBody token with
  | false => rfl
  | true =>
    cases Text.cut '.' name with
    | none =>
      simp only [↓reduceIte, openProcedure_eq]
      cases (token.role == some .globalProcedure || state.focus.block.isNone) <;> rfl
    | some parts =>
      cases explicit : token.role == some .globalProcedure with
      | false => rfl
      | true => simp [openProcedure_eq]

end Clarion.Outline.State
