import Clarion.Proofs.Ancestry
import Clarion.Proofs.Pass

/-! A global procedure seals what stands before it. From its token on, every way in which the pass
finds a parent (an open scope, the last method, a search for a method or for the last global
procedure, a record made ahead) leads to a tree that starts no earlier, or into a method. -/
namespace Clarion.Outline

namespace Arena

variable {arena before after : Arena} {top id above : NodeId} {node : Node} {first : Nat}

/-- The node is a method implementation, or stands below one. -/
def InMethod (arena : Arena) (id : NodeId) : Prop :=
  ∃ method node, arena.node? method = some node ∧ node.info.traits.isMethodImplementation ∧
    arena.Under method id

theorem InMethod.mono (inside : before.InMethod id) (grows : before.Grows after) :
    after.InMethod id := by
  obtain ⟨method, node, found, implements, under⟩ := inside
  obtain ⟨later, foundLater, keeps⟩ := grows.kept found
  exact ⟨method, later, foundLater, keeps.traits ▸ implements, under.mono grows⟩

/-- The node lies in a tree whose root is no older than `first`, or in a method. -/
def SealedFrom (first : Nat) (arena : Arena) (id : NodeId) : Prop :=
  (∃ root ∈ arena.roots, first ≤ root ∧ arena.Under root id) ∨ arena.InMethod id

namespace SealedFrom

theorem mono (sealed : before.SealedFrom first id) (grows : before.Grows after) :
    after.SealedFrom first id := by
  rcases sealed with ⟨root, member, later, under⟩ | inside
  · exact .inl ⟨root, grows.root member, later, under.mono grows⟩
  · exact .inr (inside.mono grows)

theorem child (sealed : arena.SealedFrom first above) (found : arena.node? id = some node)
    (parent : node.parent = some above) : arena.SealedFrom first id := by
  rcases sealed with ⟨root, member, later, under⟩ | ⟨method, methodNode, held, implements, under⟩
  · exact .inl ⟨root, member, later, .deeper found parent under⟩
  · exact .inr ⟨method, methodNode, held, implements, .deeper found parent under⟩

theorem root (member : id ∈ arena.roots) (later : first ≤ id) : arena.SealedFrom first id :=
  .inl ⟨id, member, later, .here⟩

theorem method (found : arena.node? id = some node)
    (implements : node.info.traits.isMethodImplementation) : arena.SealedFrom first id :=
  .inr ⟨id, node, found, implements, .here⟩

end SealedFrom
end Arena

namespace State

variable {state : State} {tokens : Tokens} {index first next : Nat} {token : Token}

/-- Every node from `first` on that is no group is sealed, and so is every node that the pass may
still choose as a parent. Records made ahead count from the token `next` on. -/
structure Sealed (first next : Nat) (state : State) : Prop where
  size : first ≤ state.arena.nodes.size
  nodes : ∀ {id node}, first ≤ id → state.arena.node? id = some node → node.group = none →
    state.arena.SealedFrom first id
  scopes : ∀ scope ∈ state.scopes, state.arena.SealedFrom first scope.node
  lastMethod : ∀ id, state.lastMethod = some id → state.arena.SealedFrom first id
  lastGlobal : ∀ id, state.arena.lastGlobalProcedure? = some id → first ≤ id
  prebuilt : ∀ entry ∈ state.prebuilt, next ≤ entry.1 → state.arena.SealedFrom first entry.2

namespace Sealed

/-- The pass goes on to a state whose new nodes, scopes and pointers are sealed. -/
theorem carry {before after : State} (sealed : before.Sealed first next)
    (shape : before.arena.WellFormed) (grows : before.arena.Grows after.arena)
    (nodes : ∀ {id node}, ¬before.arena.Holds id → after.arena.node? id = some node →
      node.group = none → after.arena.SealedFrom first id)
    (scopes : ∀ scope ∈ after.scopes,
      scope ∈ before.scopes ∨ after.arena.SealedFrom first scope.node)
    (lastMethod : ∀ id, after.lastMethod = some id →
      before.lastMethod = some id ∨ after.arena.SealedFrom first id)
    (prebuilt : ∀ entry ∈ after.prebuilt,
      entry ∈ before.prebuilt ∨ after.arena.SealedFrom first entry.2) :
    after.Sealed first next where
  size := Nat.le_trans sealed.size grows.size
  nodes {id node} later found plain := by
    by_cases held : before.arena.Holds id
    · obtain ⟨old, foundOld⟩ := held.node?
      obtain ⟨again, foundAgain, keeps⟩ := grows.kept foundOld
      cases foundAgain.symm.trans found
      exact (sealed.nodes later foundOld (keeps.group ▸ plain)).mono grows
    · exact nodes held found plain
  scopes scope member := by
    rcases scopes scope member with old | fresh
    · exact (sealed.scopes scope old).mono grows
    · exact fresh
  lastMethod id last := by
    rcases lastMethod id last with old | fresh
    · exact (sealed.lastMethod id old).mono grows
    · exact fresh
  lastGlobal id last := by
    rcases grows.lastGlobal shape last with fresh | old
    · exact Nat.le_trans sealed.size fresh
    · exact sealed.lastGlobal id old
  prebuilt entry member later := by
    rcases prebuilt entry member with old | fresh
    · exact (sealed.prebuilt entry old later).mono grows
    · exact fresh

/-- Spans may move, scopes may close and pointers may be dropped. -/
theorem relax {before after : State} (sealed : before.Sealed first next)
    (shape : before.arena.WellFormed) (grows : before.arena.Grows after.arena)
    (same : after.arena.nodes.size = before.arena.nodes.size)
    (scopes : ∀ scope ∈ after.scopes, scope ∈ before.scopes)
    (lastMethod : ∀ id, after.lastMethod = some id → before.lastMethod = some id)
    (prebuilt : ∀ entry ∈ after.prebuilt, entry ∈ before.prebuilt) : after.Sealed first next := by
  refine sealed.carry shape grows ?_ (fun scope member => .inl (scopes scope member))
    (fun id last => .inl (lastMethod id last)) (fun entry member => .inl (prebuilt entry member))
  intro id node missing found _
  exact absurd (Nat.lt_of_lt_of_eq (Arena.holds_of_node? found) same) missing

/-- A node is added at the root, below a sealed one, or as a method implementation. -/
theorem add (sealed : state.Sealed first next) (sound : state.Sound) {parent : Option NodeId}
    (ready : state.Ready parent) (info : Info)
    (allowed : info.traits.isMethodImplementation ∨
      ∀ above, parent = some above → state.arena.SealedFrom first above) :
    (state.add parent info).1.Sealed first next ∧
      (state.add parent info).1.arena.SealedFrom first state.arena.nodes.size := by
  have grows : state.arena.Grows (state.add parent info).1.arena := (add_adds ..).grows
  have made : (state.add parent info).1.arena.node? state.arena.nodes.size =
    some { info, parent, group := none } := Arena.push_node?_new ready
  have fresh : (state.add parent info).1.arena.SealedFrom first state.arena.nodes.size := by
    rcases allowed with implements | below
    · exact .method made implements
    · cases parent with
      | none => exact .root ((sound.arena.add ready).top made rfl) sealed.size
      | some above => exact ((below above rfl).mono grows).child made rfl
  refine ⟨sealed.carry sound.arena grows ?_ (fun _ => .inl) (fun _ => .inl) (fun _ => .inl), fresh⟩
  intro id node missing found _
  rcases Arena.WellFormed.push_cases ready found with ⟨rfl, -⟩ | ⟨old, foundOld, -⟩
  · exact fresh
  · exact absurd (Arena.holds_of_node? foundOld) missing

theorem ensureGroup (sealed : state.Sealed first next) (sound : state.Sound) {owner : NodeId}
    (held : state.arena.Holds owner) (group : Group) :
    (state.ensureGroup owner group).1.Sealed first next := by
  refine sealed.carry sound.arena (ensureGroup_adds ..).grows ?_ (fun _ => .inl) (fun _ => .inl)
    (fun _ => .inl)
  intro id node missing found plain
  rcases Arena.ensureGroup_cases held found with old | ⟨-, above, rfl⟩
  · exact absurd old missing
  · cases plain

/-- The group of a sealed node is sealed. -/
theorem group_sealed (sound : state.Sound) {owner : NodeId} (held : state.arena.Holds owner)
    (above : state.arena.SealedFrom first owner) (group : Group) :
    (state.ensureGroup owner group).1.arena.SealedFrom first (state.ensureGroup owner group).2 := by
  obtain ⟨shape, recorded⟩ := sound.arena.ensureGroup held group
  obtain ⟨node, found, parent, -⟩ := shape.group recorded
  exact (above.mono (ensureGroup_adds state owner group).grows).child found parent

theorem openScope (sealed : state.Sealed first next) (shape : state.arena.WellFormed)
    {node : NodeId} (inside : state.arena.SealedFrom first node) (finishesAt : Option Nat) :
    (state.openScope node finishesAt).Sealed first next := by
  refine sealed.carry shape (.refl _) ?_ ?_ (fun _ => .inl) (fun _ => .inl)
  · intro id node missing found _
    exact absurd (Arena.holds_of_node? found) missing
  · intro scope member
    rcases List.mem_append.mp member with old | fresh
    · exact .inl old
    · rw [List.mem_singleton.mp fresh]
      exact .inr inside

/-- Every node that the state names is sealed. -/
theorem names (sealed : state.Sealed first next) {id : NodeId} (named : state.Names id) :
    state.arena.SealedFrom first id := by
  cases named with
  | scope isOpen => exact sealed.scopes _ isOpen
  | lastMethod last => exact sealed.lastMethod id last
  | lastGlobal last =>
    exact .root (List.mem_reverse.mp (List.mem_of_find?_eq_some last)) (sealed.lastGlobal id last)

theorem files (sealed : state.Sealed first next) (sound : state.Sound) {after : State}
    (files : state.Files after) : after.Sealed first next := by
  cases files with
  | nothing => exact sealed
  | atRoot info => exact (sealed.add sound ready_none info (.inr (by rintro _ ⟨⟩))).1
  | @below id named info =>
    refine (sealed.add sound (ready_some (sound.names_holds named)) info (.inr ?_)).1
    rintro _ ⟨⟩
    exact sealed.names named
  | @inGroup id named group info =>
    have held := sound.names_holds named
    obtain ⟨grouped, groupHeld⟩ := sound.ensureGroup held group
    refine ((sealed.ensureGroup sound held group).add grouped (ready_some groupHeld) info
      (.inr ?_)).1
    rintro _ ⟨⟩
    exact group_sealed sound held (sealed.names named) group

/-! ### Looks ahead -/

theorem fileStep (sealed : state.Sealed first next) (sound : state.Sound) {file : NodeId}
    (held : state.arena.Holds file) (inside : state.arena.SealedFrom first file)
    (tokens : Tokens) (index : Nat) : (state.fileStep tokens file index).Sealed first next := by
  have made (info : Info) := sealed.add sound (ready_some held) info
    (.inr (by rintro _ ⟨⟩; exact inside))
  rcases fileStep_cases tokens file state index with same | ⟨_, info, _, _, _, _, _, same⟩ |
    ⟨_, info, _, _, _, _, same⟩
  · rw [same]
    exact sealed
  · rw [same]
    obtain ⟨added, fresh⟩ := made info
    refine added.carry (sound.add (ready_some held) info).arena (.refl _) ?_ (fun _ => .inl)
      (fun _ => .inl) ?_
    · intro id node missing found _
      exact absurd (Arena.holds_of_node? found) missing
    · intro entry member
      rcases List.mem_cons.mp member with rfl | old
      · exact .inr fresh
      · exact .inl old
  · rw [same]
    exact (made info).1.relax (sound.add (ready_some held) info).arena (.refl _) rfl (fun _ => id)
      (fun _ => id) (fun _ => id)

theorem lookThroughFile (sealed : state.Sealed first next) (sound : state.Sound) {file : NodeId}
    (held : state.arena.Holds file) (inside : state.arena.SealedFrom first file)
    (tokens : Tokens) (index : Nat) :
    (state.lookThroughFile tokens index file).Sealed first next := by
  unfold State.lookThroughFile
  generalize blockIndices tokens index = indices
  induction indices generalizing state with
  | nil => exact sealed
  | cons inner rest ih =>
    have grows := (fileStep_furnishes tokens file state inner).grows
    exact ih (sealed.fileStep sound held inside tokens inner) (sound.fileStep held tokens inner)
      (grows.holds held) (inside.mono grows)

/-- The innermost open join, or the view when none is open. -/
private theorem innermost_mem (view : NodeId) (joins : List NodeId) :
    joins.head?.getD view ∈ view :: joins := by
  cases joins <;> simp

theorem viewStep (sealed : state.Sealed first next) (sound : state.Sound) {view : NodeId}
    {joins : List NodeId} (held : ∀ id ∈ view :: joins, state.arena.Holds id)
    (inside : ∀ id ∈ view :: joins, state.arena.SealedFrom first id) (tokens : Tokens)
    (index : Nat) :
    (State.viewStep tokens view (state, joins) index).1.Sealed first next ∧
      ∀ join ∈ (State.viewStep tokens view (state, joins) index).2,
        (State.viewStep tokens view (state, joins) index).1.arena.SealedFrom first join := by
  have ready := ready_some (held _ (innermost_mem view joins))
  have made (info : Info) := sealed.add sound ready info
    (.inr (by rintro _ ⟨⟩; exact inside _ (innermost_mem view joins)))
  have noted (info : Info) (index : Nat) : ((state.addLeaf (some (joins.head?.getD view))
      info).markHandled index).Sealed first next :=
    (made info).1.relax (sound.add ready info).arena (.refl _) rfl (fun _ => id) (fun _ => id)
      (fun _ => id)
  have grows := (viewStep_furnishes tokens view state joins index).grows
  have kept := fun join member => (inside join (List.mem_cons_of_mem _ member)).mono grows
  rcases viewStep_cases tokens view state joins index with same | ⟨_, info, _, _, _, _, _, same⟩ |
    ⟨_, info, _, _, _, _, same⟩ | ⟨_, _, _, same⟩
  · rw [same] at kept ⊢
    exact ⟨sealed, kept⟩
  · rw [same] at kept ⊢
    refine ⟨noted info index, fun join member => ?_⟩
    rcases List.mem_cons.mp member with rfl | old
    · exact (made info).2
    · exact kept join old
  · rw [same] at kept ⊢
    exact ⟨noted info index, kept⟩
  · rw [same] at kept ⊢
    exact ⟨sealed.relax sound.arena (.refl _) rfl (fun _ => id) (fun _ => id) (fun _ => id),
      fun join member => kept join (List.mem_of_mem_tail member)⟩

theorem lookThroughView (sealed : state.Sealed first next) (sound : state.Sound) {view : NodeId}
    (held : state.arena.Holds view) (inside : state.arena.SealedFrom first view)
    (tokens : Tokens) (index : Nat) :
    (state.lookThroughView tokens index view).Sealed first next := by
  unfold State.lookThroughView
  generalize blockIndices tokens index = indices
  have opened : ∀ join ∈ ([] : List NodeId),
      state.arena.Holds join ∧ state.arena.SealedFrom first join := by simp
  generalize ([] : List NodeId) = joins at opened
  induction indices generalizing state joins with
  | nil => exact sealed
  | cons inner rest ih =>
    have grows := (viewStep_furnishes tokens view state joins inner).grows
    obtain ⟨stepped, stillHeld⟩ := sound.viewStep held (fun join member => (opened join member).1)
      tokens inner
    obtain ⟨stillSealed, joinsSealed⟩ := sealed.viewStep sound
      (List.forall_mem_cons.mpr ⟨held, fun join member => (opened join member).1⟩)
      (List.forall_mem_cons.mpr ⟨inside, fun join member => (opened join member).2⟩) tokens inner
    exact ih stillSealed stepped (grows.holds held) (inside.mono grows) _
      fun join member => ⟨stillHeld join member, joinsSealed join member⟩

/-! ### Handlers -/

theorem furnish (sealed : state.Sealed first next) (sound : state.Sound) {node : NodeId}
    (held : state.arena.Holds node) (inside : state.arena.SealedFrom first node) :
    (state.furnish tokens index token node).Sealed first next := by
  have recorded {state : State} (sealed : state.Sealed first next) (sound : state.Sound)
      (label : Option String) : (state.recordClass label node).Sealed first next := by
    cases label with
    | none => exact sealed
    | some label =>
      exact sealed.relax sound.arena (.refl _) rfl (fun _ => id) (fun _ => id) (fun _ => id)
  unfold State.furnish
  dsimp only
  split
  · have properties := sealed.ensureGroup sound held .properties
    have stillSound := (sound.ensureGroup held .properties).1
    have stillHeld := (ensureGroup_adds state node .properties).grows.holds held
    exact recorded (properties.ensureGroup stillSound stillHeld .methods)
      (stillSound.ensureGroup stillHeld .methods).1 _
  · split
    · exact recorded sealed sound _
    · split
      · exact sealed.ensureGroup sound held .functions
      · split
        · exact sealed.lookThroughFile sound held inside tokens index
        · split
          · exact sealed.lookThroughView sound held inside tokens index
          · exact sealed

theorem openStructure (sealed : state.Sealed first next) (sound : state.Sound) :
    (state.openStructure tokens index token).Sealed first next := by
  have files := structureMade_files tokens index token state
  have held := structureMade_holds tokens index token state
  obtain ⟨later, parent, children, node⟩ := structureMade_node tokens index token state
  have made := sealed.files sound files
  have inside := made.nodes (Nat.le_trans sealed.size later) node rfl
  rw [openStructure_eq]
  exact (made.furnish (sound.files files) held inside).openScope
    ((sound.files files).furnish held).arena (inside.mono (furnish_furnishes ..).grows) _

theorem openBody (sealed : state.Sealed first next) (sound : state.Sound) {parent : Option NodeId}
    (ready : state.Ready parent) {info : Info} (finishesAt : Option Nat)
    (allowed : info.traits.isMethodImplementation ∨
      ∀ above, parent = some above → state.arena.SealedFrom first above) :
    (state.openBody parent info finishesAt).Sealed first next := by
  obtain ⟨made, inside⟩ := sealed.add sound ready info allowed
  have forgotten : (state.add parent info).1.startBody.Sealed first next :=
    made.relax (sound.add ready info).arena (.refl _) rfl (fun _ => id) (fun _ => id) (fun _ => id)
  exact forgotten.openScope (sound.add ready info).arena
    (add_id state parent info ▸ inside) finishesAt

theorem shut (sealed : state.Sealed first next) (sound : state.Sound) (tokens : Tokens)
    {parts : Scopes × Scopes} (included : ∀ scope ∈ parts.1, scope ∈ state.scopes) :
    (state.shut tokens parts).Sealed first next :=
  sealed.relax sound.arena (shut_grows tokens state parts) (close_size ..) (by simpa using included)
    (by simp) (by simp)

theorem atMethods (sealed : state.Sealed first next) (sound : state.Sound)
    (className methodName : String) :
    (state.atMethods tokens index token className methodName).1.Sealed first next := by
  have included := splitFrom_kept state.scopes (·.kind == .methodImplementation)
  have closed := sealed.shut sound tokens included
  have closedSound := sound.toGrounded.shut tokens included
  obtain ⟨owned, held⟩ := closedSound.methodOwner tokens index token className methodName
  refine Sealed.ensureGroup ?_ owned held .methods
  unfold State.methodOwner
  split
  · exact closed
  · dsimp only
    split
    · exact closed
    · exact (closed.add closedSound ready_none _ (.inr (by rintro _ ⟨⟩))).1

theorem openMethod (sealed : state.Sealed first next) (sound : state.Sound)
    (className methodName : String) :
    (state.openMethod tokens index token className methodName).Sealed first next := by
  have ready : (state.atMethods tokens index token className methodName).1.Sealed first next :=
    sealed.atMethods sound className methodName
  obtain ⟨readySound, held⟩ := sound.atMethods tokens index token className methodName
  rw [openMethod_eq]
  dsimp only
  generalize state.atMethods tokens index token className methodName = parts at ready readySound held
  have implements : (methodInfo tokens index token className methodName
    parts.2.2).traits.isMethodImplementation := rfl
  have opened := ready.openBody readySound (ready_some held) token.finishesAt (.inl implements)
  obtain ⟨-, inside⟩ := ready.add readySound (ready_some held)
    (methodInfo tokens index token className methodName parts.2.2) (.inl implements)
  have openedSound := readySound.toGrounded.openBody (ready_some held)
    (methodInfo tokens index token className methodName parts.2.2) token.finishesAt
  refine opened.carry openedSound.arena (.refl _) ?_ (fun _ => .inl) ?_ (fun _ => .inl)
  · intro id node missing found _
    exact absurd (Arena.holds_of_node? found) missing
  · rintro _ ⟨⟩
    exact .inr inside

/-- The node that a routine goes under is sealed. -/
theorem routineParent (sealed : state.Sealed first next) {id : NodeId}
    (named : state.routineParent? tokens index = some id) : state.arena.SealedFrom first id := by
  rcases Option.or_eq_some_iff.mp named with named | ⟨-, last⟩
  · rcases Option.or_eq_some_iff.mp named with innermost | ⟨-, before⟩
    · obtain ⟨scope, found, rfl⟩ := Option.map_eq_some_iff.mp innermost
      exact sealed.names (innermost_named found)
    · obtain ⟨node, found, implements⟩ := methodBefore_implements before
      exact .method found implements
  · exact sealed.names (.lastGlobal last)

theorem onRoutine (sealed : state.Sealed first next) (sound : state.Sound) :
    (state.onRoutine tokens index token).Sealed first next := by
  have included := splitFrom_kept state.scopes (state.scopeKindIs (· == .routine))
  have closed : (state.atRoutine tokens).Sealed first next := sealed.shut sound tokens included
  have closedSound : (state.atRoutine tokens).Sound := sound.toGrounded.shut tokens included
  have ready := closedSound.toGrounded.routineParent_ready tokens index
  have above := fun id (named : (state.atRoutine tokens).routineParent? tokens index = some id) =>
    closed.routineParent named
  rw [onRoutine_eq]
  dsimp only
  generalize routineInfo tokens index token (routineName tokens index token) = info
  generalize (state.atRoutine tokens).routineParent? tokens index = parent at ready above
  obtain ⟨made, inside⟩ := closed.add closedSound ready info (.inr above)
  have shape := (closedSound.add ready info).arena
  have noted : { ((state.atRoutine tokens).add parent info).1 with pastCode := true }.Sealed
    first next := made.relax shape (.refl _) rfl (fun _ => id) (fun _ => id) (fun _ => id)
  split
  · exact noted.openScope shape (add_id _ parent info ▸ inside) _
  · exact noted

theorem onMarker (sealed : state.Sealed first next) (sound : state.Sound) :
    (state.onMarker token).Sealed first next := by
  have noted (pastCode : Bool) : { state with pastCode }.Sealed first next :=
    sealed.relax sound.arena (.refl _) rfl (fun _ => id) (fun _ => id) (fun _ => id)
  unfold State.onMarker
  split
  · exact noted false
  · split
    · dsimp only
      split
      · exact noted true
      · rename_i scope found
        have named : state.Names scope.node := innermost_named found
        have leaf : state.Files (state.addLeaf (some scope.node) (codeInfo token)) :=
          .below named _
        have made := sealed.files sound leaf
        have shape := (sound.files leaf).arena
        split
        · exact made.relax shape (.refl _) rfl (fun _ => id) (fun _ => id) (fun _ => id)
        · exact made.relax shape (.refl _) rfl (fun _ => id) (fun _ => id) (fun _ => id)
    · exact sealed

theorem onLoopTerminator (sealed : state.Sealed first next) (sound : state.Sound) :
    (state.onLoopTerminator tokens index).Sealed first next := by
  unfold State.onLoopTerminator
  split
  · exact sealed
  · split
    · exact sealed.relax sound.arena (.refl _) rfl (fun _ => id) (fun _ => id) (fun _ => id)
    · exact sealed

theorem onEnd (sealed : state.Sealed first next) (sound : state.Sound) :
    (state.onEnd token).Sealed first next := by
  unfold State.onEnd
  split
  · exact sealed.relax sound.arena (.refl _) rfl (fun _ => id) (fun _ => id) (fun _ => id)
  · dsimp only
    split
    · exact sealed
    · exact sealed.relax sound.arena (Arena.extendTo_grows ..) Array.size_modify
        (popOpenEnded_kept state.scopes _) (fun _ => id) (fun _ => id)

/-- Every token from `next` on keeps the seal. -/
theorem dispatch (sealed : state.Sealed first next) (sound : state.Sound) (order : next ≤ index)
    (found : tokens[index]? = some token) :
    (state.dispatch tokens index token).Sealed first next := by
  have acts := sound.acts found
  generalize state.dispatch tokens index token = after at acts
  cases acts with
  | files neutral filed => exact sealed.files sound filed
  | block opens silent =>
    exact sealed.relax sound.arena (.refl _) rfl (fun _ => id) (fun _ => id) (fun _ => id)
  | @record node opens word loud recorded =>
    have inside : state.arena.SealedFrom first node :=
      sealed.prebuilt (index, node) (mem_of_lookup recorded) order
    have consumed : { state with prebuilt := state.prebuilt.filter (·.1 != index) }.Sealed
        first next :=
      sealed.relax sound.arena (.refl _) rfl (fun _ => id) (fun _ => id)
        fun entry member => (List.mem_filter.mp member).1
    exact consumed.openScope sound.arena inside _
  | declares opens word loud fresh => exact sealed.openStructure sound
  | globalBody word use =>
    have root : (state.atRoot tokens).Sealed first next :=
      sealed.relax sound.arena (atRoot_grows tokens state) (close_size ..) (by simp) (by simp)
        (by simp)
    exact root.openBody (sound.atRoot tokens) ready_none _ (.inr (by rintro _ ⟨⟩))
  | enclosedBody word use =>
    refine sealed.openBody sound (fun _ focused => sound.names_holds (sound.block_named focused)) _
      (.inr fun above focused => sealed.names (sound.block_named focused))
  | method word use => exact sealed.openMethod sound ..
  | routine word => exact sealed.onRoutine sound
  | marker word => exact sealed.onMarker sound
  | loopStop stops => exact sealed.onLoopTerminator sound
  | ends word => exact sealed.onEnd sound

theorem step (sealed : state.Sealed first next) (sound : state.Sound) (tokens : Tokens)
    (order : next ≤ index) : (state.step tokens index).Sealed first next := by
  cases found : tokens[index]? with
  | none =>
    rw [step_none found]
    exact sealed
  | some token =>
    have settles := reach_settles tokens state token
    have reached : (state.reach tokens token).Sealed first next :=
      sealed.relax sound.arena settles.grows settles.size settles.scopes settles.lastMethod
        fun entry member => settles.prebuilt ▸ member
    rw [step_eq found]
    split
    · exact reached
    · exact reached.dispatch (sound.reach tokens token) order found

end Sealed

/-! ### The seal -/

/-- The token at the index opens the body of a global procedure. -/
def OpensGlobal (tokens : Tokens) (index : Nat) : Prop :=
  ∃ token state, Dispatches tokens index token state ∧ token.kind = .procedure ∧
    state.procedureUse tokens index token = .body true

/-- A global procedure opens with the seal in place: it is the only open scope and the last global
procedure, no method is remembered, and no record made ahead is left for later. -/
theorem Sound.openBody_sealed (sound : state.Sound) (bare : state.scopes = [])
    (forgotten : state.lastMethod = none) (spent : ∀ entry ∈ state.prebuilt, entry.1 < next)
    {info : Info} (kind : info.kind = .procedure) (isGlobal : info.traits.isGlobalProcedure)
    (finishesAt : Option Nat) :
    (state.openBody none info finishesAt).Sealed state.arena.nodes.size next := by
  have made : (state.openBody none info finishesAt).arena.node? state.arena.nodes.size =
    some { info, parent := none } := Arena.push_node?_new ready_none
  have opened := sound.toGrounded.openBody ready_none info finishesAt
  have inside : (state.openBody none info finishesAt).arena.SealedFrom state.arena.nodes.size
    state.arena.nodes.size := .root (opened.arena.top made rfl) (Nat.le_refl _)
  constructor
  · exact Nat.le_of_lt (Arena.holds_of_node? made)
  · intro id node later found _
    rcases Arena.WellFormed.push_cases ready_none found with ⟨rfl, -⟩ | ⟨old, foundOld, -⟩
    · exact inside
    · exact absurd (Arena.holds_of_node? foundOld) (Nat.not_lt_of_le later)
  · intro scope member
    have only : scope.node = (state.add none info).2 := by
      simp only [State.openBody, openScope, refocus, startBody, State.add, bare, List.nil_append,
        List.mem_singleton] at member
      rw [member]
      rfl
    rw [only, add_id]
    exact inside
  · intro id last
    have none : state.lastMethod = some id := last
    rw [forgotten] at none
    cases none
  · intro id last
    have passes : (state.openBody none info finishesAt).arena.test state.arena.nodes.size
        (fun node => node.info.kind == .procedure && node.info.traits.isGlobalProcedure) := by
      simp [Arena.test, made, kind, isGlobal]
    have roots : (state.openBody none info finishesAt).arena.roots =
      state.arena.roots ++ [state.arena.nodes.size] := rfl
    rw [Arena.lastGlobalProcedure?, roots, List.reverse_append, List.reverse_singleton,
      List.singleton_append, List.find?_cons, passes] at last
    exact Nat.le_of_eq (Option.some.inj last)
  · intro entry member later
    exact absurd (spent entry member) (Nat.not_lt_of_le later)

/-- From a global procedure on the seal holds, if no file before it reaches past it. -/
theorem OpensGlobal.sealed {opening count : Nat} (opens : OpensGlobal tokens opening)
    (files : ∀ file < opening, ∀ token, tokens[file]? = some token → token.kind = .structureWord →
      token.reads "FILE" → tokens.blockEnd file ≤ opening + 1) (order : opening < count) :
    (after tokens count).Sealed (after tokens opening).arena.nodes.size (opening + 1) := by
  obtain ⟨token, state, dispatches, word, use⟩ := opens
  induction order with
  | refl =>
    have settles := reach_settles tokens (after tokens opening) token
    rw [← dispatches.reached] at settles
    have root := dispatches.sound.atRoot tokens
    have spent : ∀ entry ∈ (state.atRoot tokens).prebuilt, entry.1 < opening + 1 := by
      intro entry member
      rw [atRoot_prebuilt, settles.prebuilt] at member
      obtain ⟨-, file, before, fileToken, found, structural, reads, inside⟩ :=
        prebuilt_after tokens opening member
      exact Nat.lt_of_lt_of_le inside (files file before fileToken found structural reads)
    have acted : state.dispatch tokens opening token = (state.atRoot tokens).openBody none
        (procedureInfo tokens opening token (procedureName tokens opening token) true)
        token.finishesAt := by
      simp only [State.dispatch, word, onProcedure_eq, use]
    rw [dispatches.after_succ, acted, ← settles.size, ← atRoot_size tokens state]
    exact root.openBody_sealed (atRoot_scopes ..) (atRoot_lastMethod ..) spent rfl rfl _
  | step earlier ih =>
    rw [State.after_succ]
    exact ih.step (sound_after ..) tokens earlier

theorem Sealed.finish (sealed : state.Sealed first next) (sound : state.Sound) (tokens : Tokens) :
    (state.finish tokens).Sealed first next := by
  have adds := close_adds tokens { state with scopes := [] } state.scopes state.currentLine
  refine sealed.relax sound.arena adds.grows (finish_size ..) ?_ ?_ ?_
  · intro scope member
    rw [State.finish, adds.scopes] at member
    cases member
  · exact fun id last => adds.lastMethod ▸ last
  · exact fun entry member => adds.prebuilt ▸ member

/-- A root no older than a token is created by that token or a later one. -/
theorem born_from {opening : Nat} {root : NodeId} (member : root ∈ (finished tokens).roots)
    (later : (after tokens opening).arena.nodes.size ≤ root) :
    ∃ start, opening ≤ start ∧ BornAt tokens start root := by
  obtain ⟨node, found, -⟩ := ((sound_after tokens tokens.length).finish tokens).root member
  have held : (after tokens tokens.length).arena.Holds root :=
    Nat.lt_of_lt_of_eq (Arena.holds_of_node? found) (finish_size ..)
  obtain ⟨start, -, born⟩ := exists_born held
  refine ⟨start, Nat.le_of_not_lt fun earlier => ?_, born⟩
  exact Nat.not_lt_of_le later (born.lt_size earlier)

/-- A global procedure seals everything before it. Once it has opened, every symbol that is no
group of a class or map lies in a tree that starts no earlier, or in a method implementation;
so it stands below an older symbol only inside a method. Files whose block reaches past the
procedure are excluded, because their records are made ahead. -/
theorem global_procedure_seals {opening index : Nat} {id : NodeId} {node : Node}
    (opens : OpensGlobal tokens opening)
    (files : ∀ file < opening, ∀ token, tokens[file]? = some token → token.kind = .structureWord →
      token.reads "FILE" → tokens.blockEnd file ≤ opening + 1)
    (later : opening ≤ index) (born : BornAt tokens index id)
    (found : (finished tokens).node? id = some node) (plain : node.group = none) :
    ((∃ start root, opening ≤ start ∧ BornAt tokens start root ∧ root ∈ (finished tokens).roots ∧
        (finished tokens).Under root id) ∨ (finished tokens).InMethod id) ∧
    ∀ {start earlier}, start < opening → BornAt tokens start earlier →
      (finished tokens).Under earlier id → (finished tokens).InMethod id := by
  have bound : opening < tokens.length := by
    obtain ⟨token, state, dispatches, -⟩ := opens
    exact (List.getElem?_eq_some_iff.mp dispatches.found).1
  have sound := sound_after tokens tokens.length
  have sealed := (opens.sealed files bound).finish sound tokens
  rcases sealed.nodes (born.size_le later) found plain with ⟨root, member, fresh, under⟩ | inside
  · obtain ⟨start, order, bornRoot⟩ := born_from member fresh
    refine ⟨.inl ⟨start, root, order, bornRoot, member, under⟩, ?_⟩
    intro earlierStart earlier before bornEarlier underEarlier
    have older : earlier < root := Nat.lt_of_lt_of_le (bornEarlier.lt_size before) fresh
    have shape := sound.finish tokens
    rcases under.comparable underEarlier with below | above
    · exact absurd (below.le shape) (Nat.not_le_of_lt older)
    · exact absurd (above.of_root shape member) (Nat.ne_of_lt older)
  · exact ⟨.inr inside, fun _ _ _ => inside⟩

/-- A procedure that declares a file, and a second one with a local variable. -/
def twoProcedures : Tokens :=
  [{ kind := .procedure, value := "PROCEDURE", line := 0, start := 6, label := some "First" },
    { kind := .structureWord, value := "FILE", line := 1, start := 6, label := some "Stock" },
    { kind := .endStatement, value := "END", line := 2, start := 0 },
    { kind := .procedure, value := "PROCEDURE", line := 3, start := 7, label := some "Second" },
    { kind := .label, value := "Count", line := 4, start := 0 },
    { kind := .typeName, value := "LONG", line := 4, start := 6 }]

theorem second_procedure_seals_its_local :
    OpensGlobal twoProcedures 3 ∧ BornAt twoProcedures 5 3 ∧
    (((∃ start root, 3 ≤ start ∧ BornAt twoProcedures start root ∧
        root ∈ (finished twoProcedures).roots ∧ (finished twoProcedures).Under root 3) ∨
      (finished twoProcedures).InMethod 3) ∧
    ∀ {start earlier}, start < 3 → BornAt twoProcedures start earlier →
      (finished twoProcedures).Under earlier 3 → (finished twoProcedures).InMethod 3) := by
  have opens : OpensGlobal twoProcedures 3 :=
    ⟨_, _, ⟨rfl, rfl, by decide +kernel⟩, rfl, by decide +kernel⟩
  have files : ∀ file < 3, ∀ token, twoProcedures[file]? = some token →
      token.kind = .structureWord → token.reads "FILE" → twoProcedures.blockEnd file ≤ 3 + 1 := by
    intro file bound token found word reads
    match file, bound with
    | 0, _ => cases found; cases word
    | 1, _ => decide +kernel
    | 2, _ => cases found; cases word
  have born : BornAt twoProcedures 5 3 := ⟨by decide +kernel, by decide +kernel⟩
  have plain : ((finished twoProcedures).node? 3).map Node.group = some none := by decide +kernel
  obtain ⟨node, found, noGroup⟩ := Option.map_eq_some_iff.mp plain
  exact ⟨opens, born, global_procedure_seals opens files (by decide) born found noGroup⟩

end State
end Clarion.Outline
