import Clarion.Outline.Builder
import Clarion.Proofs.ArenaGrowth

/-! Every index that the pass keeps between two tokens belongs to a node: open scopes, the last
method, the class table, the records made ahead. And the focus is always the one that the open
scopes determine. Both are carried through every handler; the arena only grows on the way. -/
namespace Clarion.Outline

/-! ### The focus -/

namespace Focus

variable {before after : Arena}

/-- The focus read off some scopes does not change while the arena grows. -/
theorem scan_grows (grows : before.Grows after) (reached : Option NodeId) (focus : Focus)
    (scopes : List Scope) (held : ∀ scope ∈ scopes, before.Holds scope.node) :
    scan after reached focus scopes = scan before reached focus scopes := by
  induction scopes generalizing focus with
  | nil => rfl
  | cons scope outer ih =>
    have later := fun focus => ih focus fun other member => held other (List.mem_cons_of_mem _ member)
    simp only [scan, grows.kind?_eq (held scope List.mem_cons_self), later]

theorem ofScopes_grows (grows : before.Grows after) (reached : Option NodeId) {scopes : Scopes}
    (held : ∀ scope ∈ scopes, before.Holds scope.node) :
    ofScopes after reached scopes = ofScopes before reached scopes :=
  scan_grows grows reached {} _ fun scope member => held scope (List.mem_reverse.mp member)

/-- The block and the body in focus are nodes of open scopes, unless they were in focus before. -/
private theorem scan_named (arena : Arena) (reached : Option NodeId) (focus : Focus)
    (scopes : List Scope) {id : NodeId}
    (named : (scan arena reached focus scopes).block = some id ∨
      (scan arena reached focus scopes).body = some id) :
    (focus.block = some id ∨ focus.body = some id) ∨ ∃ scope ∈ scopes, scope.node = id := by
  induction scopes generalizing focus with
  | nil => exact .inl named
  | cons scope outer ih =>
    unfold scan at named
    split at named
    · rcases ih _ named with before | ⟨other, member, same⟩
      · exact .inl before
      · exact .inr ⟨other, List.mem_cons_of_mem _ member, same⟩
    · split at named
      · rcases ih _ named with before | ⟨other, member, same⟩
        · exact .inl before
        · exact .inr ⟨other, List.mem_cons_of_mem _ member, same⟩
      · split at named
        · split at named
          · exact .inl named
          · rcases named with block | body
            · exact .inl (.inl block)
            · exact .inr ⟨scope, List.mem_cons_self, Option.some.inj body⟩
        · rcases ih _ named with before | ⟨other, member, same⟩
          · rcases before with block | body
            · rcases Option.or_eq_some_iff.mp block with block | ⟨-, here⟩
              · exact .inl (.inl block)
              · exact .inr ⟨scope, List.mem_cons_self, Option.some.inj here⟩
            · exact .inl (.inr body)
          · exact .inr ⟨other, List.mem_cons_of_mem _ member, same⟩

/-- The block and the body in focus are nodes of open scopes. -/
theorem ofScopes_named {arena : Arena} {reached : Option NodeId} {scopes : Scopes} {id : NodeId}
    (named : (ofScopes arena reached scopes).block = some id ∨
      (ofScopes arena reached scopes).body = some id) :
    ∃ scope ∈ scopes, scope.node = id := by
  rcases scan_named arena reached {} _ named with fresh | ⟨scope, member, same⟩
  · rcases fresh with block | body
    · cases block
    · cases body
  · exact ⟨scope, List.mem_reverse.mp member, same⟩

end Focus

namespace State

/-! ### Steps that only add nodes -/

/-- The second state is the first with nodes added, and the same in every other respect. -/
structure Adds (before after : State) : Prop where
  frame : after = { before with arena := after.arena }
  grows : before.arena.Grows after.arena

namespace Adds

variable {before middle after : State}

theorem refl (state : State) : state.Adds state :=
  ⟨rfl, .refl _⟩

theorem trans (first : before.Adds middle) (second : middle.Adds after) : before.Adds after :=
  ⟨by rw [second.frame, first.frame], first.grows.trans second.grows⟩

theorem scopes (adds : before.Adds after) : after.scopes = before.scopes := by
  rw [adds.frame]

theorem openBlocks (adds : before.Adds after) : after.openBlocks = before.openBlocks := by
  rw [adds.frame]

theorem lastMethod (adds : before.Adds after) : after.lastMethod = before.lastMethod := by
  rw [adds.frame]

theorem handled (adds : before.Adds after) : after.handled = before.handled := by
  rw [adds.frame]

theorem prebuilt (adds : before.Adds after) : after.prebuilt = before.prebuilt := by
  rw [adds.frame]

theorem classes (adds : before.Adds after) : after.classes = before.classes := by
  rw [adds.frame]

end Adds

variable {state : State} {tokens : Tokens} {index : Nat} {token : Token}

theorem add_adds (state : State) (parent : Option NodeId) (info : Info) :
    state.Adds (state.add parent info).1 :=
  ⟨rfl, Arena.add_grows⟩

theorem addLeaf_adds (state : State) (parent : Option NodeId) (info : Info) :
    state.Adds (state.addLeaf parent info) :=
  add_adds state parent info

theorem ensureGroup_adds (state : State) (owner : NodeId) (group : Group) :
    state.Adds (state.ensureGroup owner group).1 :=
  ⟨rfl, Arena.ensureGroup_grows ..⟩

theorem routeOption_adds (target : Option NodeId) : state.Adds (state.routeOption target).1 := by
  cases target with
  | none => exact .refl _
  | some node =>
    simp only [routeOption, routeInto]
    split
    · exact ensureGroup_adds ..
    · exact .refl _

/-! ### What the pass keeps -/

/-- Every index that the state keeps belongs to a node of a well-formed arena. -/
structure Grounded (state : State) : Prop where
  arena : state.arena.WellFormed
  scopes : ∀ scope ∈ state.scopes, state.arena.Holds scope.node
  lastMethod : ∀ id, state.lastMethod = some id → state.arena.Holds id
  classes : ∀ entry ∈ state.classes, state.arena.Holds entry.2
  prebuilt : ∀ entry ∈ state.prebuilt, state.arena.Holds entry.2

/-- A grounded state whose focus is the one that its open scopes determine. -/
structure Sound (state : State) : Prop extends Grounded state where
  focus : state.focus = Focus.ofScopes state.arena state.codeReached state.scopes

theorem Adds.grounded {before after : State} (adds : before.Adds after)
    (grounded : before.Grounded) (shape : after.arena.WellFormed) : after.Grounded := by
  have grows := adds.grows
  rw [adds.frame]
  exact ⟨shape, fun scope member => grows.holds (grounded.scopes scope member),
    fun id named => grows.holds (grounded.lastMethod id named),
    fun entry member => grows.holds (grounded.classes entry member),
    fun entry member => grows.holds (grounded.prebuilt entry member)⟩

theorem Adds.sound {before after : State} (adds : before.Adds after) (sound : before.Sound)
    (shape : after.arena.WellFormed) : after.Sound := by
  refine ⟨adds.grounded sound.toGrounded shape, ?_⟩
  have grows := adds.grows
  rw [adds.frame]
  exact sound.focus.trans (Focus.ofScopes_grows grows _ sound.scopes).symm

theorem Sound.empty : Sound {} where
  arena := Arena.WellFormed.empty
  scopes scope member := by simp at member
  lastMethod id named := by simp at named
  classes entry member := by simp at member
  prebuilt entry member := by simp at member
  focus := rfl

theorem Grounded.innermost_holds (grounded : state.Grounded) {holds : Scope → Bool} {scope : Scope}
    (found : state.scopes.innermost? holds = some scope) : state.arena.Holds scope.node :=
  grounded.scopes scope (List.mem_reverse.mp (List.mem_of_find?_eq_some found))

/-! ### Operations on the state -/

/-- A parent is ready when it is a node, or there is none. -/
def Ready (state : State) (parent : Option NodeId) : Prop :=
  ∀ above, parent = some above → state.arena.Holds above

theorem ready_none : state.Ready none := by
  rintro _ ⟨⟩

theorem ready_some {id : NodeId} (held : state.arena.Holds id) : state.Ready (some id) :=
  held.ready

theorem Grounded.add (grounded : state.Grounded) {parent : Option NodeId} (ready : state.Ready parent)
    (info : Info) : (state.add parent info).1.Grounded :=
  (add_adds state parent info).grounded grounded (grounded.arena.add ready)

theorem Sound.add (sound : state.Sound) {parent : Option NodeId} (ready : state.Ready parent)
    (info : Info) : (state.add parent info).1.Sound :=
  (add_adds state parent info).sound sound (sound.arena.add ready)

theorem Sound.addLeaf (sound : state.Sound) {parent : Option NodeId} (ready : state.Ready parent)
    (info : Info) : (state.addLeaf parent info).Sound :=
  sound.add ready info

@[simp] theorem add_id (state : State) (parent : Option NodeId) (info : Info) :
    (state.add parent info).2 = state.arena.nodes.size :=
  Arena.add_id ..

theorem add_kind? (state : State) (parent : Option NodeId) (info : Info) :
    (state.add parent info).1.arena.kind? state.arena.nodes.size = some info.kind := by
  obtain ⟨children, made⟩ := Arena.push_made state.arena parent info none
  have found : (state.add parent info).1.arena.node? state.arena.nodes.size =
    some { info, parent, children } := made
  simp [Arena.kind?, found]

theorem add_holds (state : State) (parent : Option NodeId) (info : Info) :
    (state.add parent info).1.arena.Holds (state.add parent info).2 := by
  rw [add_id, Arena.Holds]
  exact Nat.lt_of_lt_of_eq (Nat.lt_succ_self _) (Arena.add_size ..).symm

theorem Sound.ensureGroup (sound : state.Sound) {owner : NodeId} (held : state.arena.Holds owner)
    (group : Group) :
    (state.ensureGroup owner group).1.Sound ∧
      (state.ensureGroup owner group).1.arena.Holds (state.ensureGroup owner group).2 := by
  obtain ⟨shape, recorded⟩ := sound.arena.ensureGroup held group
  exact ⟨(ensureGroup_adds state owner group).sound sound shape, shape.group_holds recorded⟩

theorem close_adds (tokens : Tokens) (state : State) (closed : Scopes) (line : Option Nat) :
    state.Adds (state.close tokens closed line) := by
  cases line with
  | none => exact .refl _
  | some line =>
    refine ⟨rfl, ?_⟩
    simp only [close]
    generalize state.arena = arena
    induction closed generalizing arena with
    | nil => exact .refl _
    | cons scope rest ih =>
      rw [List.foldl_cons]
      refine Arena.Grows.trans ?_ (ih _)
      split
      · exact Arena.extendTo_grows ..
      · exact .refl _

@[simp] theorem close_size (tokens : Tokens) (state : State) (closed : Scopes)
    (line : Option Nat) :
    (state.close tokens closed line).arena.nodes.size = state.arena.nodes.size := by
  cases line with
  | none => rfl
  | some line =>
    simp only [close]
    generalize state.arena = arena
    induction closed generalizing arena with
    | nil => rfl
    | cons scope rest ih =>
      rw [List.foldl_cons, ih]
      split
      · exact Array.size_modify
      · rfl

theorem Grounded.close (grounded : state.Grounded) (tokens : Tokens) (closed : Scopes)
    (line : Option Nat) :
    (state.close tokens closed line).Grounded := by
  refine (close_adds tokens state closed line).grounded grounded ?_
  cases line with
  | none => exact grounded.arena
  | some line =>
    have shape := grounded.arena
    simp only [State.close]
    generalize state.arena = arena at shape
    induction closed generalizing arena with
    | nil => exact shape
    | cons scope rest ih =>
      rw [List.foldl_cons]
      apply ih
      split
      · exact shape.extendTo ..
      · exact shape

theorem Grounded.refocus (grounded : state.Grounded) : state.refocus.Sound :=
  ⟨⟨grounded.arena, grounded.scopes, grounded.lastMethod, grounded.classes, grounded.prebuilt⟩, rfl⟩

/-- What the pass notes about the code it is in has no part in soundness. -/
theorem Sound.note (sound : state.Sound) (pastCode : Bool) (openBlocks : List Token) :
    { state with pastCode, openBlocks }.Sound :=
  ⟨⟨sound.arena, sound.scopes, sound.lastMethod, sound.classes, sound.prebuilt⟩, sound.focus⟩

theorem Grounded.consume (grounded : state.Grounded) (index : Nat) :
    { state with prebuilt := state.prebuilt.filter (·.1 != index) }.Grounded where
  arena := grounded.arena
  scopes := grounded.scopes
  lastMethod := grounded.lastMethod
  classes := grounded.classes
  prebuilt entry member := grounded.prebuilt entry (List.mem_filter.mp member).1

/-- Some of the open scopes close: the rest is still grounded. -/
theorem Grounded.keep (grounded : state.Grounded) {kept : Scopes}
    (included : ∀ scope ∈ kept, scope ∈ state.scopes) : { state with scopes := kept }.Grounded :=
  ⟨grounded.arena, fun scope member => grounded.scopes scope (included scope member),
    grounded.lastMethod, grounded.classes, grounded.prebuilt⟩

theorem Grounded.openScope (grounded : state.Grounded) {node : NodeId}
    (held : state.arena.Holds node) (finishesAt : Option Nat) :
    (state.openScope node finishesAt).Sound := by
  refine Grounded.refocus ⟨grounded.arena, ?_, grounded.lastMethod, grounded.classes,
    grounded.prebuilt⟩
  intro scope member
  rcases List.mem_append.mp member with member | member
  · exact grounded.scopes scope member
  · rw [List.mem_singleton.mp member]
    exact held

/-! ### Where declarations go -/

/-- A node that the state can name as the home of a declaration. -/
inductive Names (state : State) : NodeId → Prop where
  | scope {scope : Scope} (isOpen : scope ∈ state.scopes) : Names state scope.node
  | lastMethod {id : NodeId} (last : state.lastMethod = some id) : Names state id
  | lastGlobal {id : NodeId} (last : state.arena.lastGlobalProcedure? = some id) : Names state id

/-- A declaration goes to the root, below a node that the state names, or into a group of such a
node. Or there is nothing to declare. -/
inductive Files (state : State) : State → Prop where
  | nothing : Files state state
  | atRoot (info : Info) : Files state (state.addLeaf none info)
  | below {id : NodeId} (named : state.Names id) (info : Info) :
    Files state (state.addLeaf (some id) info)
  | inGroup {id : NodeId} (named : state.Names id) (group : Group) (info : Info) :
    Files state
      ((state.ensureGroup id group).1.addLeaf (some (state.ensureGroup id group).2) info)

theorem Files.adds {after : State} (files : state.Files after) : state.Adds after := by
  cases files with
  | nothing => exact .refl _
  | atRoot info => exact addLeaf_adds ..
  | below named info => exact addLeaf_adds ..
  | inGroup named group info => exact (ensureGroup_adds ..).trans (addLeaf_adds ..)

theorem Grounded.lastGlobal_holds (grounded : state.Grounded) {id : NodeId}
    (found : state.arena.lastGlobalProcedure? = some id) : state.arena.Holds id :=
  grounded.arena.root_holds (List.mem_reverse.mp (List.mem_of_find?_eq_some found))

theorem Grounded.names_holds (grounded : state.Grounded) {id : NodeId} (named : state.Names id) :
    state.arena.Holds id := by
  cases named with
  | scope isOpen => exact grounded.scopes _ isOpen
  | lastMethod last => exact grounded.lastMethod id last
  | lastGlobal last => exact grounded.lastGlobal_holds last

theorem Sound.files (sound : state.Sound) {after : State} (files : state.Files after) :
    after.Sound := by
  cases files with
  | nothing => exact sound
  | atRoot info => exact sound.addLeaf ready_none info
  | below named info => exact sound.addLeaf (ready_some (sound.names_holds named)) info
  | inGroup named group info =>
    obtain ⟨grouped, held⟩ := sound.ensureGroup (sound.names_holds named) group
    exact grouped.addLeaf (ready_some held) info

theorem Sound.block_named (sound : state.Sound) {id : NodeId}
    (named : state.focus.block = some id) : state.Names id := by
  obtain ⟨scope, member, rfl⟩ := Focus.ofScopes_named (.inl (sound.focus ▸ named))
  exact .scope member

theorem Sound.body_named (sound : state.Sound) {id : NodeId}
    (named : state.focus.body = some id) : state.Names id := by
  obtain ⟨scope, member, rfl⟩ := Focus.ofScopes_named (.inr (sound.focus ▸ named))
  exact .scope member

theorem innermost_named {holds : Scope → Bool} {scope : Scope}
    (found : state.scopes.innermost? holds = some scope) : state.Names scope.node :=
  .scope (List.mem_reverse.mp (List.mem_of_find?_eq_some found))

theorem top_named {id : NodeId} (named : state.scopes.top? = some id) : state.Names id := by
  obtain ⟨scope, last, rfl⟩ := Option.map_eq_some_iff.mp named
  exact .scope (List.mem_of_getLast? last)

/-- A declaration in a node goes into the properties of a class, else right below. -/
theorem routeOption_files {target : Option NodeId} (named : ∀ id, target = some id → state.Names id)
    (info : Info) :
    state.Files ((state.routeOption target).1.addLeaf (state.routeOption target).2 info) := by
  cases target with
  | none => exact .atRoot info
  | some id =>
    simp only [routeOption, routeInto]
    split
    · exact .inGroup (named id rfl) .properties info
    · exact .below (named id rfl) info

theorem scopeTarget_files (info : Info) :
    state.Files (state.scopeTarget.1.addLeaf state.scopeTarget.2 info) :=
  routeOption_files (fun _ named => top_named named) info

theorem Sound.elementTarget_files (sound : state.Sound) (info : Info) :
    state.Files (state.elementTarget.1.addLeaf state.elementTarget.2 info) := by
  unfold State.elementTarget
  split
  · rename_i node focused
    refine routeOption_files ?_ info
    rintro _ ⟨⟩
    rcases Option.or_eq_some_iff.mp focused with block | ⟨-, body⟩
    · exact sound.block_named block
    · exact sound.body_named body
  · exact scopeTarget_files info

theorem Sound.keyTarget_files (sound : state.Sound) (info : Info) :
    state.Files (state.keyTarget.1.addLeaf state.keyTarget.2 info) := by
  unfold State.keyTarget
  split
  · rename_i node focused
    refine routeOption_files ?_ info
    rintro _ ⟨⟩
    exact sound.block_named focused
  · exact scopeTarget_files info

/-- Filing below a node that the state may or may not name. -/
theorem addLeaf_files {parent : Option NodeId} (named : ∀ id, parent = some id → state.Names id)
    (info : Info) : state.Files (state.addLeaf parent info) := by
  cases parent with
  | none => exact .atRoot info
  | some id => exact .below (named id rfl) info

/-- Where data goes when no scope is open for it is a node that the state names. -/
theorem Sound.fallback_named (sound : state.Sound) {id : NodeId}
    (fallback : ((state.focus.body.or state.lastMethod).or state.focus.block).or
      state.arena.lastGlobalProcedure? = some id) : state.Names id := by
  rcases Option.or_eq_some_iff.mp fallback with focused | ⟨-, global⟩
  · rcases Option.or_eq_some_iff.mp focused with remembered | ⟨-, block⟩
    · rcases Option.or_eq_some_iff.mp remembered with body | ⟨-, method⟩
      · exact sound.body_named body
      · exact .lastMethod method
    · exact sound.block_named block
  · exact .lastGlobal global

theorem Sound.dataHome_files (sound : state.Sound) (info : Info) :
    state.Files (state.dataHome.1.addLeaf state.dataHome.2.parent info) := by
  unfold State.dataHome
  split
  · rename_i scope found
    have named := innermost_named found
    split
    · exact .inGroup named .properties info
    · exact .below named info
    · exact .below named info
    · exact .below named info
    · exact .below named info
  · exact addLeaf_files (fun _ fallback => sound.fallback_named fallback) info

/-! ### Handlers that only file a declaration -/

theorem Sound.onControl_files (sound : state.Sound) :
    state.Files (state.onControl tokens index token) :=
  sound.elementTarget_files _

theorem Sound.onProject_files (sound : state.Sound) :
    state.Files (state.onProject tokens index token) :=
  sound.elementTarget_files _

theorem Sound.onKey_files (sound : state.Sound) : state.Files (state.onKey tokens index token) := by
  unfold State.onKey
  split
  · exact sound.keyTarget_files _
  · exact .nothing

theorem Sound.onData_files (sound : state.Sound) :
    state.Files (state.onData tokens index token) := by
  unfold State.onData
  split
  · exact .nothing
  · split
    · exact .nothing
    · exact sound.dataHome_files _

/-- The class, interface, map or module that a prototype stands in is an open scope. -/
theorem definition_named {id : NodeId} {kind : Kind}
    (found : (((state.scopes.innermost? (state.scopeKindIs Kind.isDefinition)).map
      Scope.node).bind fun node => (state.arena.kind? node).map (node, ·)) = some (id, kind)) :
    state.Names id := by
  obtain ⟨node, isOpen, paired⟩ := Option.bind_eq_some_iff.mp found
  obtain ⟨scope, innermost, rfl⟩ := Option.map_eq_some_iff.mp isOpen
  obtain ⟨_, _, same⟩ := Option.map_eq_some_iff.mp paired
  cases same
  exact innermost_named innermost

/-- Its kind is one whose block holds prototypes. -/
theorem definition_kind {id : NodeId} {kind : Kind}
    (found : (((state.scopes.innermost? (state.scopeKindIs Kind.isDefinition)).map
      Scope.node).bind fun node => (state.arena.kind? node).map (node, ·)) = some (id, kind)) :
    state.arena.kind? id = some kind ∧ kind.isDefinition := by
  obtain ⟨node, isOpen, paired⟩ := Option.bind_eq_some_iff.mp found
  obtain ⟨scope, innermost, rfl⟩ := Option.map_eq_some_iff.mp isOpen
  obtain ⟨_, here, same⟩ := Option.map_eq_some_iff.mp paired
  cases same
  have tested := List.find?_some innermost
  rw [scopeKindIs, here] at tested
  exact ⟨here, tested⟩

theorem Sound.declarePrototype_files (sound : state.Sound) (name : String) :
    state.Files (state.declarePrototype tokens index token name) := by
  unfold State.declarePrototype
  dsimp only
  split
  · rename_i owner found
    exact .inGroup (definition_named found) .methods _
  · rename_i owner found
    exact .below (definition_named found) _
  · rename_i owner _ _ _ found
    exact .inGroup (definition_named found) .functions _
  · exact addLeaf_files (fun _ focused => sound.block_named focused) _

end State
end Clarion.Outline
