import Clarion.Proofs.Handles

/-! What the pass keeps although it could be read off the rest: the focus, the note that there are
method implementations, and the class table. After every token each of them is what the open scopes
and the arena say, so no handler ever works from an outdated answer. -/
namespace Clarion.Outline

/-! ### Method implementations of an arena -/

namespace Arena

variable {arena : Arena} {top id : NodeId} {node : Node}

/-- Some node is a method implementation, wherever it stands. -/
def Implemented (arena : Arena) : Prop :=
  ∃ id node, arena.node? id = some node ∧ node.info.traits.isMethodImplementation

/-- The walk down from a node comes to every node of its tree, as long as the fuel covers the ids
in between: a child has a greater id than its parent. -/
theorem treeHasMethod_of_under (shape : arena.WellFormed) (under : arena.Under top id)
    (found : arena.node? id = some node) (implements : node.info.traits.isMethodImplementation)
    {fuel : Nat} (enough : id < top + fuel) : arena.treeHasMethod fuel top := by
  induction fuel generalizing top with
  | zero => exact absurd (under.le shape) (Nat.not_le_of_lt enough)
  | succ fuel ih =>
    have held : arena.Holds top := Nat.lt_of_le_of_lt (under.le shape) (holds_of_node? found)
    obtain ⟨upper, foundUpper⟩ := held.node?
    simp only [treeHasMethod, foundUpper, Bool.or_eq_true, List.any_eq_true]
    rcases (under_iff shape foundUpper).mp under with rfl | ⟨child, member, below⟩
    · cases foundUpper.symm.trans found
      exact .inl implements
    · obtain ⟨lower, foundLower, parent⟩ := shape.child foundUpper member
      have older : top + 1 ≤ child := (shape.parent foundLower parent).1
      refine .inr ⟨child, member, ih below (Nat.lt_of_lt_of_le enough ?_)⟩
      calc top + (fuel + 1) = top + 1 + fuel := by rw [Nat.add_assoc, Nat.add_comm 1]
        _ ≤ child + fuel := Nat.add_le_add_right older fuel

theorem implemented_of_treeHasMethod {fuel : Nat} (has : arena.treeHasMethod fuel id) :
    arena.Implemented := by
  induction fuel generalizing id with
  | zero => cases has
  | succ fuel ih =>
    unfold treeHasMethod at has
    split at has
    · cases has
    · rename_i node found
      rcases (Bool.or_eq_true _ _).mp has with implements | below
      · exact ⟨id, node, found, implements⟩
      · obtain ⟨child, -, deeper⟩ := List.any_eq_true.mp below
        exact ih deeper

/-- The walk over the whole outline finds a method implementation exactly when there is one. -/
theorem hasMethodImplementations_iff (shape : arena.WellFormed) :
    arena.hasMethodImplementations ↔ arena.Implemented := by
  rw [hasMethodImplementations, List.any_eq_true]
  constructor
  · rintro ⟨root, -, has⟩
    exact implemented_of_treeHasMethod has
  · rintro ⟨id, node, found, implements⟩
    have held := holds_of_node? found
    obtain ⟨root, member, -, under⟩ := climb_root shape held (Nat.lt_succ_self id)
    refine ⟨root, member, treeHasMethod_of_under shape under found implements ?_⟩
    exact Nat.lt_of_lt_of_le held (Nat.le_add_left ..)

end Arena

namespace State

variable {state : State} {tokens : Tokens} {index : Nat} {token : Token}

/-! ### The note that there are method implementations -/

theorem Adds.hasMethods {before after : State} (adds : before.Adds after) :
    after.hasMethods = before.hasMethods := by
  rw [adds.frame]

theorem Furnishes.hasMethods {before after : State} (furnishes : before.Furnishes after) :
    after.hasMethods = before.hasMethods := by
  rw [furnishes.frame]

theorem Settles.hasMethods {before after : State} (settles : before.Settles after) :
    after.hasMethods = before.hasMethods := by
  rw [settles.frame]

theorem shut_hasMethods (tokens : Tokens) (state : State) (parts : Scopes × Scopes) :
    (state.shut tokens parts).hasMethods = state.hasMethods :=
  (close_adds tokens { state with scopes := parts.1 } parts.2 state.previousLine).hasMethods

/-- Only a token that opens a method touches the note. -/
theorem Sound.dispatch_hasMethods (sound : state.Sound) (found : tokens[index]? = some token)
    (plain : token.kind = .procedure → ∀ className methodName,
      state.procedureUse tokens index token ≠ .method className methodName) :
    (state.dispatch tokens index token).hasMethods = state.hasMethods := by
  have acts := sound.acts found
  generalize state.dispatch tokens index token = after at acts ⊢
  cases acts with
  | files neutral filed => exact filed.adds.hasMethods
  | block opens silent => rfl
  | record opens word loud recorded => rfl
  | declares opens word loud fresh =>
    have files := (structureMade_files tokens index token state).adds
    rw [openStructure_eq]
    exact (furnish_furnishes ..).hasMethods.trans files.hasMethods
  | globalBody word use =>
    exact (close_adds tokens { state with scopes := [] } state.scopes state.previousLine).hasMethods
  | enclosedBody word use => rfl
  | method word use => exact absurd use (plain word _ _)
  | routine word =>
    rw [onRoutine_eq]
    dsimp only
    split <;> exact shut_hasMethods ..
  | marker word =>
    obtain ⟨_, _, _, _, same⟩ := onMarker_frame token state
    rw [same]
  | loopStop stops =>
    obtain ⟨_, same⟩ := onLoopTerminator_frame tokens index state
    rw [same]
  | ends word =>
    obtain ⟨_, _, _, _, same⟩ := onEnd_frame token state
    rw [same]

/-- A token that opens no method leaves the note as it is. -/
theorem plain_hasMethods (plain : methodAt? tokens index = none) :
    (after tokens (index + 1)).hasMethods = (after tokens index).hasMethods := by
  rcases after_succ_cases tokens index with same | ⟨token, same⟩ | ⟨token, state, here, same⟩
  · rw [same]
  · rw [same, (reach_settles ..).hasMethods]
  · have kept := (reach_settles tokens (after tokens index) token).hasMethods
    rw [← here.reached] at kept
    rw [same, ← kept]
    refine here.sound.dispatch_hasMethods here.found fun word className methodName use => ?_
    have opens := methodAt?_eq_some_iff.mpr ⟨token, state, here, word, use⟩
    rw [plain] at opens
    cases opens

/-- A token that opens no method makes no method implementation. -/
theorem plain_implemented (plain : methodAt? tokens index = none) :
    (after tokens (index + 1)).arena.Implemented ↔ (after tokens index).arena.Implemented := by
  have grows := grows_after tokens (Nat.le_succ index)
  constructor
  · rintro ⟨id, node, found, implements⟩
    by_cases held : (after tokens index).arena.Holds id
    · obtain ⟨old, foundOld⟩ := held.node?
      obtain ⟨later, foundLater, keeps⟩ := grows.kept foundOld
      cases foundLater.symm.trans found
      exact ⟨id, old, foundOld, keeps.traits ▸ implements⟩
    · cases here : tokens[index]? with
      | none =>
        rw [after_succ, step_none here] at found
        exact ⟨id, node, found, implements⟩
      | some token =>
        have widens := reach_widens tokens (after tokens index) token
        have fresh : ¬((after tokens index).reach tokens token).arena.Holds id := by
          rwa [Arena.Holds, widens.size]
        rcases (plain_step here plain).new (widens.arranged (arranged_after ..)) found fresh with
          made | grouped
        · obtain ⟨info, makes, same⟩ := made.info
          rw [same, makes.noMethod] at implements
          cases implements
        · rw [grouped.traits] at implements
          cases implements
  · rintro ⟨id, node, found, implements⟩
    obtain ⟨later, foundLater, keeps⟩ := grows.kept found
    exact ⟨id, later, foundLater, keeps.traits ▸ implements⟩

/-- A token that opens a method makes an implementation, and notes it. -/
theorem method_implemented {className methodName : String}
    (opens : methodAt? tokens index = some (className, methodName)) :
    (after tokens (index + 1)).hasMethods ∧ (after tokens (index + 1)).arena.Implemented := by
  obtain ⟨token, state, dispatches, word, use⟩ := methodAt?_eq_some_iff.mp opens
  have acted : after tokens (index + 1) =
      state.openMethod tokens index token className methodName := by
    rw [dispatches.after_succ]
    simp only [State.dispatch, word, onProcedure_eq, use]
  refine ⟨by rw [acted]; rfl, ?_⟩
  obtain ⟨again, moved, ready, owner, detail, -, -, -, made⟩ := method_step opens
  obtain ⟨children, stands⟩ := Arena.push_made (ready.ensureGroup owner .methods).1
    (some (ready.ensureGroup owner .methods).2)
    (methodInfo tokens index again className methodName detail) none
  rw [made]
  exact ⟨_, _, stands, rfl⟩

/-- The note says whether the arena has a method implementation. -/
theorem hasMethods_after (tokens : Tokens) (count : Nat) :
    (after tokens count).hasMethods ↔ (after tokens count).arena.Implemented := by
  induction count with
  | zero =>
    refine ⟨nofun, ?_⟩
    rintro ⟨id, node, found, -⟩
    exact absurd (Arena.holds_of_node? found) (Nat.not_lt_zero _)
  | succ count ih =>
    cases opens : methodAt? tokens count with
    | none => rw [plain_hasMethods opens, plain_implemented opens, ih]
    | some parts =>
      obtain ⟨noted, implemented⟩ := method_implemented opens
      exact ⟨fun _ => implemented, fun _ => noted⟩

/-- Derived state is never out of date. After every token the focus is the one that the open scopes
determine, the note on method implementations agrees with a walk over the whole outline, and the
class table points to classes and interfaces by their labels. -/
theorem derived_state_is_current (tokens : Tokens) (count : Nat) :
    let state := after tokens count
    state.focus = Focus.ofScopes state.arena state.codeReached state.scopes ∧
      state.hasMethods = state.arena.hasMethodImplementations ∧
      ∀ entry ∈ state.classes, Defines state.arena entry := by
  have sound := sound_after tokens count
  refine ⟨sound.focus, ?_, fun entry member => classes_define member⟩
  rw [Bool.eq_iff_iff, hasMethods_after, Arena.hasMethodImplementations_iff sound.arena]

end State
end Clarion.Outline
