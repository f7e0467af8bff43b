import Clarion.Proofs.Checked.Arena
import Clarion.Proofs.Checked.Display
import Clarion.Proofs.ScopeStack

/-! The stack of scopes and the focus, with every part of the stack and every node of a scope looked
up with a check. The nodes that a grounded state refers to are all there. -/
namespace Clarion.Checked

open Outline

variable {state : State} {tokens : Tokens} {scopes : Scopes}

/-! ### The stack -/

/-- Takes the scopes from an index on off the stack. -/
def splitOff (scopes : Scopes) (count : Nat) : Checked (Scopes × Scopes) :=
  if count ≤ scopes.length then .ok (scopes.splitAt count) else .error .slice

theorem splitOff_ok {count : Nat} (bound : count ≤ scopes.length) :
    splitOff scopes count = .ok (scopes.splitAt count) :=
  if_pos bound

/-- The index just above the innermost global procedure below a bound, when there are methods. -/
def floorBelow (scopes : Scopes) (bound : Nat) (hasMethods : Bool) : Checked Nat :=
  if hasMethods then do
    let below ← slice scopes 0 bound
    return (Scopes.lastIndex? below Scopes.isGlobal).elim 0 (· + 1)
  else .ok 0

/-- How many scopes stay open when the scan reaches a line. -/
def keepCount (scopes : Scopes) (line : Nat) (startsGlobal hasMethods : Bool) : Checked Nat := do
  let bound := if startsGlobal then (scopes.lastIndex? Scopes.isGlobal).getD scopes.length
    else scopes.length
  let floor ← floorBelow scopes bound hasMethods
  let part ← slice scopes floor bound
  return (part.findIdx? (Scopes.isPast line)).elim bound (floor + ·)

theorem floorBelow_ok {bound : Nat} (inside : bound ≤ scopes.length) (hasMethods : Bool) :
    ∃ floor, floorBelow scopes bound hasMethods = .ok floor ∧ floor ≤ bound ∧
      floor = if hasMethods then
        (Scopes.lastIndex? (scopes.take bound) Scopes.isGlobal).elim 0 (· + 1) else 0 := by
  cases hasMethods with
  | false => exact ⟨0, rfl, Nat.zero_le _, rfl⟩
  | true =>
    refine ⟨_, ?_, ?_, rfl⟩
    · simp [floorBelow, slice_ok (Nat.zero_le bound) inside]
    · simp only [↓reduceIte]
      cases found : Scopes.lastIndex? (scopes.take bound) Scopes.isGlobal with
      | none => exact Nat.zero_le _
      | some place =>
        have := Scopes.lastIndex?_lt found
        rw [List.length_take] at this
        simp only [Option.elim_some]
        omega

theorem keepCount_ok (scopes : Scopes) (line : Nat) (startsGlobal hasMethods : Bool) :
    keepCount scopes line startsGlobal hasMethods =
        .ok (scopes.keepCount line startsGlobal hasMethods) ∧
      scopes.keepCount line startsGlobal hasMethods ≤ scopes.length := by
  unfold keepCount Scopes.keepCount
  dsimp only
  have inside : (if startsGlobal then (scopes.lastIndex? Scopes.isGlobal).getD scopes.length
      else scopes.length) ≤ scopes.length := by
    split
    · cases found : scopes.lastIndex? Scopes.isGlobal with
      | none => simp
      | some place => exact Nat.le_of_lt (Scopes.lastIndex?_lt found)
    · exact Nat.le_refl _
  generalize (if startsGlobal then (scopes.lastIndex? Scopes.isGlobal).getD scopes.length
    else scopes.length) = bound at inside ⊢
  obtain ⟨floor, shown, order, same⟩ := floorBelow_ok inside hasMethods
  rw [shown, ok_bind, slice_ok order inside, ok_bind, ← same]
  refine ⟨rfl, ?_⟩
  cases found : ((scopes.take bound).drop floor).findIdx? (Scopes.isPast line) with
  | none => exact inside
  | some place =>
    have := (List.findIdx?_eq_some_iff_getElem.mp found).1
    simp only [List.length_drop, List.length_take] at this
    simp only [Option.elim_some]
    omega

/-- The scopes that stay open and those that close when the scan reaches a line. -/
def closeAtLine (scopes : Scopes) (line : Nat) (lineTokens : List Token) (hasMethods : Bool) :
    Checked (Scopes × Scopes) := do
  let count ← keepCount scopes line (Scopes.startsGlobal lineTokens) hasMethods
  splitOff scopes count

theorem closeAtLine_ok (scopes : Scopes) (line : Nat) (lineTokens : List Token)
    (hasMethods : Bool) : closeAtLine scopes line lineTokens hasMethods =
      .ok (scopes.closeAtLine line lineTokens hasMethods) := by
  obtain ⟨shown, bound⟩ := keepCount_ok scopes line (Scopes.startsGlobal lineTokens) hasMethods
  rw [closeAtLine, shown, ok_bind]
  exact splitOff_ok bound

/-- The index of the outermost scope that satisfies a test. -/
def position (test : Scope → Checked Bool) : Scopes → Checked (Option Nat)
  | [] => .ok none
  | scope :: rest => do
    if ← test scope then return some 0
    else do
      let later ← position test rest
      return later.map (· + 1)

theorem position_ok {test : Scope → Checked Bool} {holds : Scope → Bool}
    (tests : ∀ scope ∈ scopes, test scope = .ok (holds scope)) :
    position test scopes = .ok (scopes.findIdx? holds) := by
  induction scopes with
  | nil => rfl
  | cons scope rest ih =>
    obtain ⟨here, later⟩ := List.forall_mem_cons.mp tests
    rw [position, here, ok_bind, List.findIdx?_cons]
    cases holds scope with
    | true => rfl
    | false => simp [ih later]

/-- Closes the outermost scope that satisfies the test, with all above it. -/
def splitFrom (scopes : Scopes) (test : Scope → Checked Bool) : Checked (Scopes × Scopes) := do
  match ← position test scopes with
  | some first => splitOff scopes first
  | none => return (scopes, [])

theorem splitFrom_ok {test : Scope → Checked Bool} {holds : Scope → Bool}
    (tests : ∀ scope ∈ scopes, test scope = .ok (holds scope)) :
    splitFrom scopes test = .ok (scopes.splitFrom holds) := by
  rw [splitFrom, position_ok tests, ok_bind, Scopes.splitFrom]
  cases found : scopes.findIdx? holds with
  | none => simp
  | some first =>
    exact splitOff_ok (Nat.le_of_lt (List.findIdx?_eq_some_iff_getElem.mp found).1)

/-- The first of the scopes that satisfies the test. -/
def findScope (test : Scope → Checked Bool) : Scopes → Checked (Option Scope)
  | [] => .ok none
  | scope :: rest => do
    if ← test scope then return some scope else findScope test rest

/-- The innermost scope that satisfies the test. -/
def innermost? (scopes : Scopes) (test : Scope → Checked Bool) : Checked (Option Scope) :=
  findScope test scopes.reverse

theorem findScope_ok {test : Scope → Checked Bool} {holds : Scope → Bool}
    (tests : ∀ scope ∈ scopes, test scope = .ok (holds scope)) :
    findScope test scopes = .ok (scopes.find? holds) := by
  induction scopes with
  | nil => rfl
  | cons scope rest ih =>
    obtain ⟨here, later⟩ := List.forall_mem_cons.mp tests
    rw [findScope, here, ok_bind, List.find?_cons]
    cases holds scope with
    | true => rfl
    | false => exact ih later

theorem innermost?_ok {test : Scope → Checked Bool} {holds : Scope → Bool}
    (tests : ∀ scope ∈ scopes, test scope = .ok (holds scope)) :
    innermost? scopes test = .ok (scopes.innermost? holds) :=
  findScope_ok fun scope member => tests scope (List.mem_reverse.mp member)

/-- Closes the innermost scope if it has no closing line and satisfies the test. -/
def popOpenEnded (scopes : Scopes) (test : Scope → Checked Bool) :
    Checked (Scopes × Option Scope) :=
  match scopes.getLast? with
  | some top =>
    if top.finishesAt.isNone then do
      if ← test top then return (scopes.dropLast, some top) else return (scopes, none)
    else .ok (scopes, none)
  | none => .ok (scopes, none)

theorem popOpenEnded_ok {test : Scope → Checked Bool} {holds : Scope → Bool}
    (tests : ∀ scope ∈ scopes, test scope = .ok (holds scope)) :
    popOpenEnded scopes test = .ok (scopes.popOpenEnded holds) := by
  unfold popOpenEnded Scopes.popOpenEnded
  cases last : scopes.getLast? with
  | none => rfl
  | some top =>
    dsimp only
    rw [tests top (List.mem_of_getLast? last), ok_bind]
    cases top.finishesAt.isNone <;> cases holds top <;> rfl

theorem popOpenEnded_popped {holds : Scope → Bool} {scope : Scope}
    (popped : (scopes.popOpenEnded holds).2 = some scope) : scope ∈ scopes := by
  unfold Scopes.popOpenEnded at popped
  split at popped
  · rename_i top last
    split at popped
    · cases popped
      exact List.mem_of_getLast? last
    · cases popped
  · cases popped

/-! ### Nodes of scopes -/

/-- The kind of the node of a scope satisfies the test. -/
def scopeKindIs (state : State) (holds : Outline.Kind → Bool) (scope : Scope) : Checked Bool := do
  let found ← node state.arena scope.node
  return holds found.info.kind

theorem scopeKindIs_ok (grounded : state.Grounded) (holds : Outline.Kind → Bool) :
    ∀ scope ∈ state.scopes, scopeKindIs state holds scope = .ok (state.scopeKindIs holds scope) := by
  intro scope isOpen
  obtain ⟨found, here⟩ := (grounded.scopes scope isOpen).node?
  simp [scopeKindIs, node_ok here, State.scopeKindIs, Arena.kind?, here]

/-- Reads the focus off the scopes from the innermost outward, up to the first body. -/
def scan (arena : Arena) (codeReached : Option NodeId) (focus : Focus) : List Scope → Checked Focus
  | [] => .ok focus
  | scope :: outer => do
    let found ← node arena scope.node
    let kind := found.info.kind
    if kind == .routine then scan arena codeReached focus outer
    else if kind.isCallable then
      return if codeReached == some scope.node then focus
        else { focus with body := some scope.node }
    else
      scan arena codeReached
        { focus with
          block := focus.block.or (some scope.node)
          inDefinition := focus.inDefinition || kind.isDefinition } outer

theorem scan_ok {arena : Arena} (codeReached : Option NodeId) (focus : Focus)
    (held : ∀ scope ∈ scopes, arena.Holds scope.node) :
    scan arena codeReached focus scopes = .ok (Focus.scan arena codeReached focus scopes) := by
  induction scopes generalizing focus with
  | nil => rfl
  | cons scope outer ih =>
    obtain ⟨here, later⟩ := List.forall_mem_cons.mp held
    obtain ⟨found, there⟩ := here.node?
    simp only [scan, Focus.scan, node_ok there, ok_bind, Arena.kind?, there, Option.map_some]
    split
    · exact ih focus later
    · split
      · rw [pure_eq]
      · exact ih _ later

/-- The state with its focus read off the scopes again. -/
def refocus (state : State) : Checked State := do
  let focus ← scan state.arena state.codeReached {} state.scopes.reverse
  return { state with focus }

theorem refocus_ok (held : ∀ scope ∈ state.scopes, state.arena.Holds scope.node) :
    refocus state = .ok state.refocus := by
  rw [refocus, scan_ok _ _ fun scope member => held scope (List.mem_reverse.mp member), ok_bind]
  rfl

/-- Widens closed scopes to the end of the line they closed on. -/
def close (tokens : Tokens) (state : State) (closed : Scopes) (line : Option Nat) : Checked State :=
  match line with
  | none => .ok state
  | some line => do
    let place ← lineStop tokens line
    let arena ← closed.foldlM (fun arena scope =>
      if scope.finishesAt.isNone || scope.kind == .globalProcedure then
        extendTo arena scope.node place
      else .ok arena) state.arena
    return { state with arena }

theorem close_ok (tokens : Tokens) {closed : Scopes} (line : Option Nat)
    (held : ∀ scope ∈ closed, state.arena.Holds scope.node) :
    close tokens state closed line = .ok (state.close tokens closed line) := by
  cases line with
  | none => rfl
  | some line =>
    simp only [close, State.close, lineStop_ok, ok_bind]
    generalize State.lineStop tokens line = place
    rw [foldlM_ok (fun arena => ∀ scope ∈ closed, arena.Holds scope.node) ?_ held, ok_bind]
    · rfl
    · intro scope member arena held
      split
      · refine ⟨extendTo_ok (held scope member) place, ?_⟩
        intro other isClosed
        exact (Arena.extendTo_grows arena scope.node place).holds (held other isClosed)
      · exact ⟨rfl, held⟩

/-- Opens the scope of a node. -/
def openScope (state : State) (id : NodeId) (finishesAt : Option Nat) : Checked State := do
  let found ← node state.arena id
  refocus { state with scopes := state.scopes ++ [⟨id, finishesAt, found.scopeKind⟩] }

theorem openScope_ok (grounded : state.Grounded) {id : NodeId} (held : state.arena.Holds id)
    (finishesAt : Option Nat) :
    openScope state id finishesAt = .ok (state.openScope id finishesAt) := by
  obtain ⟨found, here⟩ := held.node?
  rw [openScope, node_ok here, ok_bind, refocus_ok]
  · simp [State.openScope, here]
  · intro scope member
    rcases List.mem_append.mp member with old | fresh
    · exact grounded.scopes scope old
    · rw [List.mem_singleton.mp fresh]
      exact held

/-- The state when the scan comes to another line. -/
def advanceLine (tokens : Tokens) (state : State) (line : Nat) : Checked State := do
  let lineTokens ← onLine tokens line
  let parts ← closeAtLine state.scopes line lineTokens state.hasMethods
  let closed ← close tokens { state with scopes := parts.1 } parts.2 state.currentLine
  let settled := if Scopes.startsGlobal lineTokens then { closed with lastMethod := none }
    else closed
  refocus { settled with previousLine := settled.currentLine, currentLine := some line }

theorem splitAt_mem (scopes : Scopes) (count : Nat) :
    (∀ scope ∈ (scopes.splitAt count).1, scope ∈ scopes) ∧
      ∀ scope ∈ (scopes.splitAt count).2, scope ∈ scopes := by
  rw [List.splitAt_eq]
  exact ⟨fun _ => List.mem_of_mem_take, fun _ => List.mem_of_mem_drop⟩

theorem advanceLine_ok (grounded : state.Grounded) (tokens : Tokens) (line : Nat) :
    advanceLine tokens state line = .ok (state.advanceLine tokens line) := by
  have parts := splitAt_mem state.scopes (state.scopes.keepCount line
    (Scopes.startsGlobal (tokens.onLine line)) state.hasMethods)
  have closed := (grounded.keep parts.1).close tokens
    (state.scopes.closeAtLine line (tokens.onLine line) state.hasMethods).2 state.currentLine
  rw [advanceLine, onLine_ok, ok_bind, closeAtLine_ok, ok_bind, close_ok, ok_bind]
  · refine (refocus_ok ?_).trans rfl
    dsimp only
    split <;> exact closed.scopes
  · exact fun scope member => grounded.scopes scope (parts.2 scope member)

/-! ### Where declarations go -/

/-- Adds a node. -/
def add (state : State) (parent : Option NodeId) (info : Info) : Checked (State × NodeId) := do
  let made ← push state.arena parent info none
  return ({ state with arena := made.1 }, made.2)

theorem add_ok {parent : Option NodeId} (ready : state.Ready parent) (info : Info) :
    add state parent info = .ok (state.add parent info) := by
  rw [add, push_ok ready, ok_bind]
  rfl

/-- Adds a node that nothing refers to later. -/
def addLeaf (state : State) (parent : Option NodeId) (info : Info) : Checked State := do
  let made ← add state parent info
  return made.1

theorem addLeaf_ok {parent : Option NodeId} (ready : state.Ready parent) (info : Info) :
    addLeaf state parent info = .ok (state.addLeaf parent info) := by
  rw [addLeaf, add_ok ready, ok_bind]
  rfl

/-- The group of an owner, created on first use. -/
def groupOf (state : State) (owner : NodeId) (group : Group) : Checked (State × NodeId) := do
  let made ← ensureGroup state.arena owner group
  return ({ state with arena := made.1 }, made.2)

theorem groupOf_ok {owner : NodeId} (held : state.arena.Holds owner) (group : Group) :
    groupOf state owner group = .ok (state.ensureGroup owner group) := by
  rw [groupOf, ensureGroup_ok held, ok_bind]
  rfl

/-- Where data declared in a node goes. -/
def routeInto (state : State) (id : NodeId) : Checked (State × NodeId) := do
  let found ← node state.arena id
  if found.info.kind == .classDecl then groupOf state id .properties else return (state, id)

theorem routeInto_ok {id : NodeId} (held : state.arena.Holds id) :
    routeInto state id = .ok (state.routeInto id) := by
  obtain ⟨found, here⟩ := held.node?
  rw [routeInto, node_ok here, ok_bind, State.routeInto, Arena.kind?, here]
  cases isClass : found.info.kind == .classDecl <;> simp_all [groupOf_ok held]

/-- Where data declared in a node goes, when there is a node. -/
def routeOption (state : State) : Option NodeId → Checked (State × Option NodeId)
  | none => .ok (state, none)
  | some id => do
    let routed ← routeInto state id
    return (routed.1, some routed.2)

theorem routeOption_ok {target : Option NodeId} (ready : state.Ready target) :
    routeOption state target = .ok (state.routeOption target) := by
  cases target with
  | none => rfl
  | some id =>
    rw [routeOption, routeInto_ok (ready id rfl), ok_bind]
    rfl

/-- Where a structure goes: into the innermost scope. -/
def scopeTarget (state : State) : Checked (State × Option NodeId) :=
  routeOption state state.scopes.top?

theorem scopeTarget_ok (grounded : state.Grounded) :
    scopeTarget state = .ok state.scopeTarget :=
  routeOption_ok fun _ top => grounded.names_holds (State.top_named top)

/-- Where controls and projected fields go. -/
def elementTarget (state : State) : Checked (State × Option NodeId) :=
  match state.focus.block.or state.focus.body with
  | some id => routeOption state (some id)
  | none => scopeTarget state

theorem elementTarget_ok (sound : state.Sound) : elementTarget state = .ok state.elementTarget := by
  unfold elementTarget State.elementTarget
  cases focused : state.focus.block.or state.focus.body with
  | none => exact scopeTarget_ok sound.toGrounded
  | some id =>
    refine routeOption_ok (State.ready_some (sound.names_holds ?_))
    rcases Option.or_eq_some_iff.mp focused with block | ⟨-, body⟩
    · exact sound.block_named block
    · exact sound.body_named body

/-- Where keys go. -/
def keyTarget (state : State) : Checked (State × Option NodeId) :=
  match state.focus.block with
  | some id => routeOption state (some id)
  | none => scopeTarget state

theorem keyTarget_ok (sound : state.Sound) : keyTarget state = .ok state.keyTarget := by
  unfold keyTarget State.keyTarget
  cases focused : state.focus.block with
  | none => exact scopeTarget_ok sound.toGrounded
  | some id => exact routeOption_ok (State.ready_some (sound.names_holds (sound.block_named focused)))

end Clarion.Checked
