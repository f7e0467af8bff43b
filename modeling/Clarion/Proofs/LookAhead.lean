import Clarion.Proofs.Soundness

/-! Structures and the looks ahead that files and views take. What one token inside a file or a
view can do is said once, with its guards; everything about a look ahead follows from that. -/
namespace Clarion.Outline.State

variable {state : State} {tokens : Tokens} {index : Nat} {token : Token}

/-- The second state may know more nodes, classes, records made ahead and tokens dealt with; in every
other respect it is the first. -/
structure Furnishes (before after : State) : Prop where
  frame : after = { before with
    arena := after.arena, classes := after.classes, handled := after.handled,
    prebuilt := after.prebuilt }
  grows : before.arena.Grows after.arena

namespace Furnishes

variable {before middle after : State}

theorem refl (state : State) : state.Furnishes state :=
  ⟨rfl, .refl _⟩

theorem trans (first : before.Furnishes middle) (second : middle.Furnishes after) :
    before.Furnishes after :=
  ⟨by rw [second.frame, first.frame], first.grows.trans second.grows⟩

theorem scopes (furnishes : before.Furnishes after) : after.scopes = before.scopes := by
  rw [furnishes.frame]

theorem openBlocks (furnishes : before.Furnishes after) : after.openBlocks = before.openBlocks := by
  rw [furnishes.frame]

theorem lastMethod (furnishes : before.Furnishes after) : after.lastMethod = before.lastMethod := by
  rw [furnishes.frame]

end Furnishes

theorem Adds.furnishes {before after : State} (adds : before.Adds after) : before.Furnishes after :=
  ⟨by rw [adds.frame], adds.grows⟩

theorem Sound.markHandled (sound : state.Sound) (index : Nat) : (state.markHandled index).Sound :=
  ⟨⟨sound.arena, sound.scopes, sound.lastMethod, sound.classes, sound.prebuilt⟩, sound.focus⟩

/-- The word for a record of a file. -/
def declaresRecord (token : Token) : Bool :=
  token.kind == .structureWord && token.reads "RECORD"

/-- A word that a file declares a member by, other than a record. -/
def declaresMember (token : Token) : Bool :=
  token.reads "KEY" || token.reads "INDEX" || token.reads "MEMO" || token.reads "BLOB"

/-- A record is made ahead, a key, memo or blob becomes a member and is dealt with, and every other
token inside a file does nothing. -/
theorem fileStep_cases (tokens : Tokens) (file : NodeId) (state : State) (index : Nat) :
    state.fileStep tokens file index = state ∨
    (∃ token info, tokens[index]? = some token ∧ token.kind = .structureWord ∧
      token.reads "RECORD" ∧ info.kind = .structureDecl ∧ info.traits.isMethodImplementation = false ∧
      state.fileStep tokens file index =
        { (state.add (some file) info).1 with
          prebuilt := (index, state.arena.nodes.size) :: state.prebuilt }) ∨
    (∃ token info, tokens[index]? = some token ∧ declaresMember token ∧
      info.traits.isMethodImplementation = false ∧ (info.kind = .key ∨ info.kind = .field) ∧
      state.fileStep tokens file index = (state.addLeaf (some file) info).markHandled index) := by
  unfold fileStep
  split
  · exact .inl rfl
  · rename_i token found
    split
    · rename_i isRecord
      obtain ⟨kind, word⟩ := (Bool.and_eq_true _ _).mp isRecord
      exact .inr (.inl ⟨token, recordInfo tokens index token, found, by simpa using kind, word, rfl,
        rfl, by rw [← add_id state (some file) (recordInfo tokens index token)]; rfl⟩)
    · split
      · rename_i isKey
        have word : declaresMember token := by
          simp only [declaresMember, Bool.or_eq_true]
          simp only [Bool.and_eq_true, Bool.or_eq_true] at isKey
          exact .inl (.inl isKey.1)
        exact .inr (.inr ⟨token, _, found, word, rfl, .inl rfl, rfl⟩)
      · split
        · rename_i isMemo
          have word : declaresMember token := by
            simp only [declaresMember, Bool.or_eq_true]
            simp only [Bool.and_eq_true, Bool.or_eq_true] at isMemo
            rcases isMemo.1 with memo | blob
            · exact .inl (.inr memo)
            · exact .inr blob
          exact .inr (.inr ⟨token, _, found, word, rfl, .inr rfl, rfl⟩)
        · exact .inl rfl

theorem fileStep_furnishes (tokens : Tokens) (file : NodeId) (state : State) (index : Nat) :
    state.Furnishes (state.fileStep tokens file index) := by
  rcases fileStep_cases tokens file state index with same | ⟨_, info, _, _, _, _, _, same⟩ |
    ⟨_, info, _, _, _, _, same⟩
  · rw [same]
    exact .refl _
  · rw [same]
    exact ⟨rfl, (add_adds state (some file) info).grows⟩
  · rw [same]
    exact ⟨rfl, (addLeaf_adds state (some file) info).grows⟩

theorem Sound.fileStep (sound : state.Sound) {file : NodeId} (held : state.arena.Holds file)
    (tokens : Tokens) (index : Nat) : (state.fileStep tokens file index).Sound := by
  have ready := ready_some held
  rcases fileStep_cases tokens file state index with same | ⟨_, info, _, _, _, _, _, same⟩ |
    ⟨_, info, _, _, _, _, same⟩
  · rw [same]
    exact sound
  · rw [same]
    have added := sound.add ready info
    refine ⟨⟨added.arena, added.scopes, added.lastMethod, added.classes, ?_⟩, added.focus⟩
    intro entry member
    rcases List.mem_cons.mp member with rfl | member
    · exact add_id state (some file) info ▸ add_holds state (some file) info
    · exact added.prebuilt entry member
  · rw [same]
    exact (sound.addLeaf ready info).markHandled index

private theorem fileSteps_furnishes (tokens : Tokens) (file : NodeId) (indices : List Nat)
    (state : State) : state.Furnishes (indices.foldl (fileStep tokens file) state) := by
  induction indices generalizing state with
  | nil => exact .refl _
  | cons inner rest ih => exact (fileStep_furnishes tokens file state inner).trans (ih _)

theorem lookThroughFile_furnishes (tokens : Tokens) (index : Nat) (file : NodeId) (state : State) :
    state.Furnishes (state.lookThroughFile tokens index file) :=
  fileSteps_furnishes tokens file (blockIndices tokens index) state

theorem Sound.lookThroughFile (sound : state.Sound) {file : NodeId}
    (held : state.arena.Holds file) (tokens : Tokens) (index : Nat) :
    (state.lookThroughFile tokens index file).Sound := by
  unfold State.lookThroughFile
  generalize blockIndices tokens index = indices
  induction indices generalizing state with
  | nil => exact sound
  | cons inner rest ih =>
    exact ih (sound.fileStep held tokens inner)
      ((fileStep_furnishes tokens file state inner).grows.holds held)

/-- A record that is made ahead inside a file stands at an index of the file's block, and its node
is that of a structure. -/
theorem lookThroughFile_prebuilt (tokens : Tokens) (index : Nat) (file : NodeId) (state : State)
    {entry : Nat × NodeId} (member : entry ∈ (state.lookThroughFile tokens index file).prebuilt) :
    entry ∈ state.prebuilt ∨ entry.1 ∈ blockIndices tokens index ∧
      (state.lookThroughFile tokens index file).arena.kind? entry.2 = some .structureDecl := by
  unfold lookThroughFile at member ⊢
  generalize blockIndices tokens index = indices at member ⊢
  induction indices generalizing state with
  | nil => exact .inl member
  | cons inner rest ih =>
    rcases ih _ member with before | ⟨later, kind⟩
    · have grows := (fileSteps_furnishes tokens file rest (state.fileStep tokens file inner)).grows
      rcases fileStep_cases tokens file state inner with same | ⟨_, info, _, _, _, kind, _, same⟩ |
        ⟨_, _, _, _, _, _, same⟩
      · exact .inl (same ▸ before)
      · rw [same] at before
        rcases List.mem_cons.mp before with rfl | before
        · refine .inr ⟨List.mem_cons_self, grows.kind? ?_⟩
          rw [same, ← kind]
          exact add_kind? state (some file) info
        · exact .inl before
      · rw [same] at before
        exact .inl before
    · exact .inr ⟨List.mem_cons_of_mem _ later, kind⟩

/-- Inside a view a join opens below the innermost one, a projected field list goes under it, and
an end closes it; each of these is dealt with. Every other token does nothing. -/
theorem viewStep_cases (tokens : Tokens) (view : NodeId) (state : State) (joins : List NodeId)
    (index : Nat) :
    viewStep tokens view (state, joins) index = (state, joins) ∨
    (∃ token info, tokens[index]? = some token ∧ token.kind = .structureWord ∧ token.reads "JOIN" ∧
      info.kind = .structureDecl ∧ info.traits.isMethodImplementation = false ∧
      viewStep tokens view (state, joins) index =
        ((state.addLeaf (some (joins.head?.getD view)) info).markHandled index,
          state.arena.nodes.size :: joins)) ∨
    (∃ token info, tokens[index]? = some token ∧ token.reads "PROJECT" ∧ info.kind = .field ∧
      info.traits.isMethodImplementation = false ∧
      viewStep tokens view (state, joins) index =
        ((state.addLeaf (some (joins.head?.getD view)) info).markHandled index, joins)) ∨
    (∃ token, tokens[index]? = some token ∧ token.kind = .endStatement ∧
      viewStep tokens view (state, joins) index = (state.markHandled index, joins.tail)) := by
  unfold viewStep
  dsimp only
  split
  · exact .inl rfl
  · rename_i token found
    split
    · rename_i isJoin
      obtain ⟨kind, word⟩ := (Bool.and_eq_true _ _).mp isJoin
      refine .inr (.inl ⟨token, joinInfo tokens index token, found, by simpa using kind, word, rfl,
        rfl, ?_⟩)
      rw [← add_id state (some (joins.head?.getD view)) (joinInfo tokens index token)]
      rfl
    · split
      · rename_i word
        exact .inr (.inr (.inl ⟨token, projectInfo tokens index token, found, word, rfl, rfl, rfl⟩))
      · split
        · rename_i isEnd
          have kind := ((Bool.and_eq_true _ _).mp isEnd).1
          exact .inr (.inr (.inr ⟨token, found, by simpa using kind, rfl⟩))
        · exact .inl rfl

theorem viewStep_furnishes (tokens : Tokens) (view : NodeId) (state : State) (joins : List NodeId)
    (index : Nat) : state.Furnishes (viewStep tokens view (state, joins) index).1 := by
  rcases viewStep_cases tokens view state joins index with same | ⟨_, info, _, _, _, _, _, same⟩ |
    ⟨_, info, _, _, _, _, same⟩ | ⟨_, _, _, same⟩
  · rw [same]
    exact .refl _
  · rw [same]
    exact ⟨rfl, (addLeaf_adds state (some (joins.head?.getD view)) info).grows⟩
  · rw [same]
    exact ⟨rfl, (addLeaf_adds state (some (joins.head?.getD view)) info).grows⟩
  · rw [same]
    exact ⟨rfl, .refl _⟩

/-- One token inside a view keeps the state sound and the open joins nodes. -/
theorem Sound.viewStep (sound : state.Sound) {view : NodeId} {joins : List NodeId}
    (held : state.arena.Holds view) (opened : ∀ join ∈ joins, state.arena.Holds join)
    (tokens : Tokens) (index : Nat) :
    (State.viewStep tokens view (state, joins) index).1.Sound ∧
      ∀ join ∈ (State.viewStep tokens view (state, joins) index).2,
        (State.viewStep tokens view (state, joins) index).1.arena.Holds join := by
  have ready : state.Ready (some (joins.head?.getD view)) := by
    refine ready_some ?_
    cases joins with
    | nil => exact held
    | cons join rest => exact opened join List.mem_cons_self
  have grows := (viewStep_furnishes tokens view state joins index).grows
  rcases viewStep_cases tokens view state joins index with same | ⟨_, info, _, _, _, _, _, same⟩ |
    ⟨_, info, _, _, _, _, same⟩ | ⟨_, _, _, same⟩
  · rw [same]
    exact ⟨sound, opened⟩
  · rw [same] at grows ⊢
    refine ⟨(sound.addLeaf ready info).markHandled index, ?_⟩
    intro join member
    rcases List.mem_cons.mp member with rfl | member
    · exact add_id state (some (joins.head?.getD view)) info ▸ add_holds _ _ info
    · exact grows.holds (opened join member)
  · rw [same] at grows ⊢
    exact ⟨(sound.addLeaf ready info).markHandled index,
      fun join member => grows.holds (opened join member)⟩
  · rw [same]
    exact ⟨sound.markHandled index, fun join member => opened join (List.mem_of_mem_tail member)⟩

theorem lookThroughView_furnishes (tokens : Tokens) (index : Nat) (view : NodeId) (state : State) :
    state.Furnishes (state.lookThroughView tokens index view) := by
  unfold lookThroughView
  generalize blockIndices tokens index = indices
  generalize ([] : List NodeId) = joins
  induction indices generalizing state joins with
  | nil => exact .refl _
  | cons inner rest ih =>
    exact (viewStep_furnishes tokens view state joins inner).trans
      (ih (viewStep tokens view (state, joins) inner).1 (viewStep tokens view (state, joins) inner).2)

theorem Sound.lookThroughView (sound : state.Sound) {view : NodeId}
    (held : state.arena.Holds view) (tokens : Tokens) (index : Nat) :
    (state.lookThroughView tokens index view).Sound := by
  unfold State.lookThroughView
  generalize blockIndices tokens index = indices
  have opened : ∀ join ∈ ([] : List NodeId), state.arena.Holds join := by simp
  generalize ([] : List NodeId) = joins at opened
  induction indices generalizing state joins with
  | nil => exact sound
  | cons inner rest ih =>
    obtain ⟨stepped, stillOpen⟩ := sound.viewStep held opened tokens inner
    exact ih stepped ((viewStep_furnishes tokens view state joins inner).grows.holds held) _ stillOpen

/-- A token inside a view enters no class and makes no record ahead. -/
theorem viewStep_tables (tokens : Tokens) (view : NodeId) (state : State) (joins : List NodeId)
    (index : Nat) :
    (viewStep tokens view (state, joins) index).1.classes = state.classes ∧
      (viewStep tokens view (state, joins) index).1.prebuilt = state.prebuilt := by
  rcases viewStep_cases tokens view state joins index with same | ⟨_, _, _, _, _, _, _, same⟩ |
    ⟨_, _, _, _, _, _, same⟩ | ⟨_, _, _, same⟩ <;> rw [same] <;> exact ⟨rfl, rfl⟩

/-- A view enters no class and makes no record ahead. -/
theorem lookThroughView_tables (tokens : Tokens) (index : Nat) (view : NodeId) (state : State) :
    (state.lookThroughView tokens index view).classes = state.classes ∧
      (state.lookThroughView tokens index view).prebuilt = state.prebuilt := by
  unfold lookThroughView
  generalize blockIndices tokens index = indices
  generalize ([] : List NodeId) = joins
  induction indices generalizing state joins with
  | nil => exact ⟨rfl, rfl⟩
  | cons inner rest ih =>
    obtain ⟨classes, prebuilt⟩ := viewStep_tables tokens view state joins inner
    obtain ⟨laterClasses, laterPrebuilt⟩ := ih (viewStep tokens view (state, joins) inner).1
      (viewStep tokens view (state, joins) inner).2
    exact ⟨laterClasses.trans classes, laterPrebuilt.trans prebuilt⟩

theorem Sound.recordClass (sound : state.Sound) {node : NodeId} (held : state.arena.Holds node)
    (label : Option String) : (state.recordClass label node).Sound := by
  cases label with
  | none => exact sound
  | some label =>
    refine ⟨⟨sound.arena, sound.scopes, sound.lastMethod, ?_, sound.prebuilt⟩, sound.focus⟩
    intro entry member
    rcases List.mem_cons.mp member with rfl | member
    · exact held
    · exact sound.classes entry member

theorem recordClass_furnishes (label : Option String) (node : NodeId) (state : State) :
    state.Furnishes (state.recordClass label node) := by
  cases label with
  | none => exact .refl _
  | some label => exact ⟨rfl, .refl _⟩

theorem furnish_furnishes (tokens : Tokens) (index : Nat) (token : Token) (node : NodeId)
    (state : State) : state.Furnishes (state.furnish tokens index token node) := by
  have grouped (group : Group) (state : State) : state.Furnishes (state.ensureGroup node group).1 :=
    (ensureGroup_adds state node group).furnishes
  unfold furnish
  dsimp only
  split
  · exact ((grouped .properties state).trans (grouped .methods _)).trans (recordClass_furnishes ..)
  · split
    · exact recordClass_furnishes ..
    · split
      · exact grouped .functions state
      · split
        · exact lookThroughFile_furnishes ..
        · split
          · exact lookThroughView_furnishes ..
          · exact .refl _

/-- A fresh structure makes records ahead only when it is a file, and only inside its block. -/
theorem furnish_prebuilt (tokens : Tokens) (index : Nat) (token : Token) (node : NodeId)
    (state : State) {entry : Nat × NodeId}
    (member : entry ∈ (state.furnish tokens index token node).prebuilt) :
    entry ∈ state.prebuilt ∨ token.reads "FILE" ∧ entry.1 < tokens.blockEnd index ∧
      (state.furnish tokens index token node).arena.kind? entry.2 = some .structureDecl := by
  have recorded (label : Option String) (state : State) :
      (state.recordClass label node).prebuilt = state.prebuilt := by
    cases label <;> rfl
  unfold furnish at member ⊢
  dsimp only at member ⊢
  split at member
  · rw [recorded] at member
    exact .inl member
  · split at member
    · rw [recorded] at member
      exact .inl member
    · split at member
      · exact .inl member
      · split at member
        · rename_i noClass noInterface noMap isFile
          rw [if_neg noClass, if_neg noInterface, if_neg noMap, if_pos isFile]
          rcases lookThroughFile_prebuilt tokens index node state member with old | ⟨inside, kind⟩
          · exact .inl old
          · have bounds := List.mem_range'_1.mp inside
            exact .inr ⟨isFile, by omega, kind⟩
        · split at member
          · rw [(lookThroughView_tables ..).2] at member
            exact .inl member
          · exact .inl member

/-- What a fresh structure brings with it keeps the state sound. -/
theorem Sound.furnish (sound : state.Sound) {node : NodeId} (held : state.arena.Holds node) :
    (state.furnish tokens index token node).Sound := by
  unfold State.furnish
  dsimp only
  split
  · have first := ensureGroup_adds state node .properties
    have second := ensureGroup_adds (state.ensureGroup node .properties).1 node .methods
    have properties := (sound.ensureGroup held .properties).1
    have methods := (properties.ensureGroup (first.grows.holds held) .methods).1
    exact methods.recordClass (second.grows.holds (first.grows.holds held)) _
  · split
    · exact sound.recordClass held _
    · split
      · exact (sound.ensureGroup held .functions).1
      · split
        · exact sound.lookThroughFile held tokens index
        · split
          · exact sound.lookThroughView held tokens index
          · exact sound

/-- A structure is made below the target of the innermost scope, furnished, and opened. -/
def structureMade (tokens : Tokens) (index : Nat) (token : Token) (state : State) : State × NodeId :=
  state.scopeTarget.1.add state.scopeTarget.2 (structureInfo tokens index token)

theorem openStructure_eq (tokens : Tokens) (index : Nat) (token : Token) (state : State) :
    state.openStructure tokens index token =
      let made := state.structureMade tokens index token
      (made.1.furnish tokens index token made.2).openScope made.2 token.finishesAt := rfl

theorem structureMade_files (tokens : Tokens) (index : Nat) (token : Token) (state : State) :
    state.Files (state.structureMade tokens index token).1 :=
  scopeTarget_files (structureInfo tokens index token)

theorem structureMade_holds (tokens : Tokens) (index : Nat) (token : Token) (state : State) :
    (state.structureMade tokens index token).1.arena.Holds
      (state.structureMade tokens index token).2 :=
  add_holds ..

/-- The node of a structure is new, and has the symbol of the structure. -/
theorem structureMade_node (tokens : Tokens) (index : Nat) (token : Token) (state : State) :
    state.arena.nodes.size ≤ (state.structureMade tokens index token).2 ∧
    ∃ parent children, (state.structureMade tokens index token).1.arena.node?
      (state.structureMade tokens index token).2 =
        some { info := structureInfo tokens index token, parent, children } := by
  obtain ⟨children, made⟩ := Arena.push_made state.scopeTarget.1.arena state.scopeTarget.2
    (structureInfo tokens index token) none
  have routed : state.Adds state.scopeTarget.1 := routeOption_adds state.scopes.top?
  simp only [structureMade, add_id]
  exact ⟨routed.grows.size, _, children, made⟩

theorem Sound.openStructure (sound : state.Sound) :
    (state.openStructure tokens index token).Sound ∧
      state.arena.Grows (state.openStructure tokens index token).arena := by
  have files := structureMade_files tokens index token state
  have held := structureMade_holds tokens index token state
  have later := furnish_furnishes tokens index token (state.structureMade tokens index token).2
    (state.structureMade tokens index token).1
  rw [openStructure_eq]
  exact ⟨((sound.files files).furnish held).toGrounded.openScope (later.grows.holds held) _,
    files.adds.grows.trans later.grows⟩

/-- What a table has under a key is one of its entries. -/
theorem mem_of_lookup {α : Type} [BEq α] [LawfulBEq α] {table : List (α × NodeId)} {key : α}
    {node : NodeId} (listed : table.lookup key = some node) : (key, node) ∈ table := by
  obtain ⟨front, back, rfl, -⟩ := List.lookup_eq_some_iff.mp listed
  exact List.mem_append_right _ List.mem_cons_self

/-- A record that a look ahead made is a node. -/
theorem Grounded.prebuilt_holds (grounded : state.Grounded) {node : NodeId}
    (recorded : state.prebuilt.lookup index = some node) : state.arena.Holds node :=
  grounded.prebuilt (index, node) (mem_of_lookup recorded)

end Clarion.Outline.State
