import Clarion.Proofs.ExecutableCode
import Clarion.Proofs.StackDiscipline

/-! Where data stands. A data declaration goes into the innermost open scope that is no special
routine, and with none open below what the pass remembers: the last method, or the last global
procedure. So what an open scope can belong to, and what is remembered, decides what can stand above
a declaration; and what stands above it tells its kind. -/
namespace Clarion.Outline

variable {tokens : Tokens} {index : Nat} {token : Token}

/-! ### What opens a scope -/

namespace Kind

/-- Symbols of this kind hold fields. -/
def holdsFields : Kind → Bool
  | .structureDecl | .interfaceDecl | .moduleDecl | .window | .control => true
  | _ => false

/-- Symbols of this kind hold variables. -/
def holdsVariables : Kind → Bool
  | .procedure | .method | .routine => true
  | _ => false

/-- Symbols of this kind open scopes. -/
def opensScope (kind : Kind) : Bool :=
  kind.holdsFields || kind.holdsVariables || kind == .classDecl

theorem of_holdsFields {kind : Kind} (holds : kind.holdsFields) : kind.holdsVariables = false ∧
    kind ≠ .classDecl ∧ kind ≠ .routine ∧ kind ≠ .container := by
  cases kind <;> cases holds <;> decide

theorem of_holdsVariables {kind : Kind} (holds : kind.holdsVariables) :
    kind.holdsFields = false ∧ kind ≠ .classDecl ∧ kind ≠ .container := by
  cases kind <;> cases holds <;> decide

theorem callable_opens {kind : Kind} (callable : kind.isCallable) : kind.opensScope := by
  cases kind with
  | procedure | method => rfl
  | _ => cases callable

theorem ofStructureWord_opens (word : String) : (ofStructureWord word).opensScope := by
  unfold ofStructureWord
  repeat' split
  all_goals rfl

end Kind

theorem Node.Keeps.scopeKind {node later : Node} (keeps : node.Keeps later) :
    later.scopeKind = node.scopeKind := by
  rw [Node.scopeKind, Node.scopeKind, keeps.kind, keeps.traits, keeps.name]

/-- The scope belongs to the node, which is of a kind that opens scopes; a class has the group of
its properties already. -/
structure Arena.Hosts (arena : Arena) (scope : Scope) (node : Node) : Prop where
  found : arena.node? scope.node = some node
  closing : scope.kind = node.scopeKind
  opens : node.info.kind.opensScope
  properties : node.info.kind = .classDecl → ∃ id, arena.group? scope.node .properties = some id

theorem Arena.Hosts.mono {before after : Arena} {scope : Scope} {node : Node}
    (hosts : before.Hosts scope node) (grows : before.Grows after) :
    ∃ later, after.Hosts scope later := by
  obtain ⟨later, found, keeps⟩ := grows.kept hosts.found
  refine ⟨later, found, hosts.closing.trans keeps.scopeKind.symm, keeps.kind ▸ hosts.opens, ?_⟩
  intro isClass
  obtain ⟨id, recorded⟩ := hosts.properties (keeps.kind ▸ isClass)
  exact ⟨id, grows.groups recorded⟩

namespace State

variable {state before after : State} {id : NodeId} {node : Node}

theorem scopeOf_hosts (found : state.arena.node? id = some node) (opens : node.info.kind.opensScope)
    (properties : node.info.kind = .classDecl →
      ∃ group, state.arena.group? id .properties = some group)
    (finishesAt : Option Nat) : state.arena.Hosts (state.scopeOf id finishesAt) node :=
  ⟨found, by simp [scopeOf, found], opens, properties⟩

/-- Every open scope has a node that opens scopes, and the last method is a method. -/
structure Housed (state : State) : Prop where
  scopes : ∀ scope ∈ state.scopes, ∃ node, state.arena.Hosts scope node
  lastMethod : ∀ id, state.lastMethod = some id → state.arena.kind? id = some .method

/-- What is open and remembered afterwards was so before, or is as it should be. -/
theorem Housed.step (housed : before.Housed) (grows : before.arena.Grows after.arena)
    (scopes : ∀ scope ∈ after.scopes,
      scope ∈ before.scopes ∨ ∃ node, after.arena.Hosts scope node)
    (lastMethod : ∀ id, after.lastMethod = some id →
      before.lastMethod = some id ∨ after.arena.kind? id = some .method) : after.Housed where
  scopes scope member := by
    rcases scopes scope member with old | hosted
    · obtain ⟨node, hosts⟩ := housed.scopes scope old
      exact hosts.mono grows
    · exact hosted
  lastMethod id last := by
    rcases lastMethod id last with old | isMethod
    · exact grows.kind? (housed.lastMethod id old)
    · exact isMethod

/-- Scopes that close and a method that is forgotten do no harm. -/
theorem Housed.keep (housed : before.Housed) (grows : before.arena.Grows after.arena)
    (scopes : ∀ scope ∈ after.scopes, scope ∈ before.scopes)
    (lastMethod : ∀ id, after.lastMethod = some id → before.lastMethod = some id) : after.Housed :=
  housed.step grows (fun scope member => .inl (scopes scope member))
    fun id last => .inl (lastMethod id last)

theorem Housed.same (housed : before.Housed) (grows : before.arena.Grows after.arena)
    (scopes : after.scopes = before.scopes) (lastMethod : after.lastMethod = before.lastMethod) :
    after.Housed :=
  housed.keep grows (fun _ member => scopes ▸ member) fun _ last => lastMethod ▸ last

theorem Adds.housed (adds : before.Adds after) (housed : before.Housed) : after.Housed :=
  housed.same adds.grows adds.scopes adds.lastMethod

theorem Furnishes.housed (furnishes : before.Furnishes after) (housed : before.Housed) :
    after.Housed :=
  housed.same furnishes.grows furnishes.scopes furnishes.lastMethod

theorem Settles.housed (settles : before.Settles after) (housed : before.Housed) : after.Housed :=
  housed.keep settles.grows settles.scopes settles.lastMethod

theorem Housed.openScope (housed : state.Housed) (found : state.arena.node? id = some node)
    (opens : node.info.kind.opensScope)
    (properties : node.info.kind = .classDecl →
      ∃ group, state.arena.group? id .properties = some group)
    (finishesAt : Option Nat) : (state.openScope id finishesAt).Housed := by
  refine housed.step (.refl _) (fun scope member => ?_) fun id last => .inl last
  rw [openScope_scopes] at member
  rcases List.mem_append.mp member with old | opened
  · exact .inl old
  · rw [List.mem_singleton.mp opened]
    exact .inr ⟨node, scopeOf_hosts found opens properties finishesAt⟩

theorem Housed.openBody (housed : state.Housed) (parent : Option NodeId) {info : Info}
    (callable : info.kind.isCallable) (finishesAt : Option Nat) :
    (state.openBody parent info finishesAt).Housed := by
  have made : (state.add parent info).1.startBody.Housed :=
    ((add_adds state parent info).housed housed).same (.refl _) rfl rfl
  obtain ⟨children, found⟩ := Arena.push_made state.arena parent info none
  rw [← add_id state parent info] at found
  refine made.openScope found (Kind.callable_opens callable) (fun isClass => ?_) finishesAt
  rw [isClass] at callable
  cases callable

/-- A class has the group of its properties when it opens. -/
theorem Sound.furnish_properties (sound : state.Sound) (held : state.arena.Holds id)
    (isClass : token.reads "CLASS") (tokens : Tokens) (index : Nat) :
    ∃ group, (state.furnish tokens index token id).arena.group? id .properties = some group := by
  obtain ⟨-, recorded⟩ := sound.arena.ensureGroup held .properties
  have later := ensureGroup_adds (state.ensureGroup id .properties).1 id .methods
  have listed := recordClass_furnishes (labelOf tokens index token) id
    ((state.ensureGroup id .properties).1.ensureGroup id .methods).1
  have kept := listed.grows.groups (later.grows.groups recorded)
  simp only [State.furnish, isClass, ↓reduceIte]
  exact ⟨_, kept⟩

theorem Housed.openStructure (housed : state.Housed) (sound : state.Sound)
    (word : token.kind = .structureWord) : (state.openStructure tokens index token).Housed := by
  have files := structureMade_files tokens index token state
  have held := structureMade_holds tokens index token state
  obtain ⟨-, parent, children, made⟩ := structureMade_node tokens index token state
  have furnishes := furnish_furnishes tokens index token (state.structureMade tokens index token).2
    (state.structureMade tokens index token).1
  obtain ⟨node, found, keeps⟩ := furnishes.grows.kept made
  have furnished := furnishes.housed (files.adds.housed housed)
  rw [openStructure_eq]
  refine furnished.openScope found ?_ (fun isClass => ?_) token.finishesAt
  · rw [keeps.kind]
    exact Kind.ofStructureWord_opens token.value
  · have made : Makes tokens index token (structureInfo tokens index token) := .structureSymbol word
    exact (sound.files files).furnish_properties held (made.class (keeps.kind ▸ isClass)).2 ..

theorem Housed.shut (housed : state.Housed) (tokens : Tokens) {parts : Scopes × Scopes}
    (included : ∀ scope ∈ parts.1, scope ∈ state.scopes) : (state.shut tokens parts).Housed := by
  refine housed.keep (shut_grows ..) ?_ ?_
  · rw [shut_scopes]
    exact included
  · rw [shut_lastMethod]
    exact fun _ last => last

theorem Housed.openMethod (housed : state.Housed) (tokens : Tokens) (index : Nat) (token : Token)
    (className methodName : String) :
    (state.openMethod tokens index token className methodName).Housed := by
  have adds := atMethods_adds tokens index token className methodName state
  have closed : (state.shut tokens state.scopes.splitMethods).Housed :=
    housed.shut tokens (splitFrom_kept state.scopes _)
  rw [openMethod_eq]
  dsimp only
  generalize state.atMethods tokens index token className methodName = ready at adds
  have kind := add_kind? ready.1 (some ready.2.1)
    (methodInfo tokens index token className methodName ready.2.2)
  refine ((adds.housed closed).openBody _ rfl token.finishesAt).step (.refl _)
    (fun _ member => .inl member) ?_
  rintro _ ⟨⟩
  exact .inr kind

theorem Housed.onRoutine (housed : state.Housed) (tokens : Tokens) (index : Nat) (token : Token) :
    (state.onRoutine tokens index token).Housed := by
  have closed : (state.atRoutine tokens).Housed :=
    housed.shut tokens (splitFrom_kept state.scopes _)
  rw [onRoutine_eq]
  dsimp only
  generalize (state.atRoutine tokens).routineParent? tokens index = parent
  generalize isMade : routineInfo tokens index token (routineName tokens index token) = info
  have made : { ((state.atRoutine tokens).add parent info).1 with pastCode := true }.Housed :=
    closed.same (add_adds ..).grows rfl rfl
  obtain ⟨children, found⟩ := Arena.push_made (state.atRoutine tokens).arena parent info none
  rw [← add_id (state.atRoutine tokens) parent info] at found
  split
  · rw [← isMade] at found made ⊢
    exact made.openScope found rfl nofun token.finishesAt
  · exact made

theorem Dispatches.keeps_housed (here : Dispatches tokens index token state)
    (housed : state.Housed) : (state.dispatch tokens index token).Housed := by
  have acts := here.sound.acts here.found
  have grows := (here.sound.dispatch here.found).2
  generalize state.dispatch tokens index token = after at acts grows ⊢
  cases acts with
  | files neutral filed => exact filed.adds.housed housed
  | block opens silent => exact housed.same grows rfl rfl
  | record opens word loud recorded =>
    obtain ⟨node, found, kind, -⟩ := here.record_plain (mem_of_lookup recorded)
    have consumed : { state with prebuilt := state.prebuilt.filter (·.1 != index) }.Housed :=
      housed.same (.refl _) rfl rfl
    refine consumed.openScope found (by rw [kind]; rfl) (fun isClass => ?_) token.finishesAt
    rw [kind] at isClass
    cases isClass
  | declares opens word loud fresh => exact housed.openStructure here.sound word
  | globalBody word use =>
    have emptied : (state.atRoot tokens).Housed :=
      housed.keep (atRoot_grows ..) (by simp) (by simp)
    exact emptied.openBody none rfl token.finishesAt
  | enclosedBody word use => exact housed.openBody state.focus.block rfl token.finishesAt
  | method word use => exact housed.openMethod ..
  | routine word => exact housed.onRoutine ..
  | marker word =>
    obtain ⟨_, _, _, _, same⟩ := onMarker_frame token state
    rw [same] at grows ⊢
    exact housed.same grows rfl rfl
  | loopStop stops =>
    obtain ⟨_, same⟩ := onLoopTerminator_frame tokens index state
    rw [same] at grows ⊢
    exact housed.same grows rfl rfl
  | ends word =>
    rcases onEnd_cases token state with ⟨_, _, _, same⟩ | ⟨_, _, same⟩ | ⟨_, _, _, _, same⟩
    · rw [same]
      exact housed.same (.refl _) rfl rfl
    · rw [same]
      exact housed
    · rw [same] at grows ⊢
      exact housed.keep grows (List.dropLast_subset _) fun _ last => last

/-- Between any two tokens, what is open and remembered is as it should be. -/
theorem housed_after (tokens : Tokens) (count : Nat) : (State.after tokens count).Housed := by
  induction count with
  | zero => exact ⟨by simp, by simp⟩
  | succ count ih =>
    rcases after_succ_cases tokens count with same | ⟨token, same⟩ | ⟨token, state, here, same⟩
    · exact same ▸ ih
    · exact same ▸ (reach_settles ..).housed ih
    · have reached := (reach_settles tokens (State.after tokens count) token).housed ih
      rw [← here.reached] at reached
      exact same ▸ here.keeps_housed reached

theorem Dispatches.housed (here : Dispatches tokens index token state) : state.Housed := by
  rw [here.reached]
  exact (reach_settles ..).housed (housed_after tokens index)

/-! ### Special routines and groups -/

/-- Only routines are special, and no method implementation is. -/
theorem special_is_routine (found : (finished tokens).node? id = some node)
    (special : node.info.traits.isSpecialRoutine) :
    node.info.kind = .routine ∧ node.info.traits.isMethodImplementation = false := by
  obtain ⟨info, made, same⟩ := exists_info found
  rw [same] at special ⊢
  cases made with
  | symbol makes =>
    refine ⟨?_, makes.noMethod⟩
    cases makes with
    | routineSymbol name => rfl
    | _ => cases special
  | group kind traits =>
    rw [traits] at special
    cases special
  | method => cases special
  | undeclaredClass => cases special

theorem group_is_container {group : Group} (found : (finished tokens).node? id = some node)
    (sort : node.group = some group) : node.info.kind = .container := by
  obtain ⟨owner, -, recorded⟩ := (arranged_finished tokens).recorded found sort
  exact (((arranged_finished tokens).group recorded).links found).2.2

theorem Dispatches.grows_finished (here : Dispatches tokens index token state) :
    state.arena.Grows (finished tokens) := by
  have acted := (here.sound.dispatch here.found).2
  rw [← here.after_succ] at acted
  exact acted.trans (State.grows_finished tokens (List.getElem?_eq_some_iff.mp here.found).1)

theorem Dispatches.special_is_routine (here : Dispatches tokens index token state)
    (found : state.arena.node? id = some node) (special : node.info.traits.isSpecialRoutine) :
    node.info.kind = .routine ∧ node.info.traits.isMethodImplementation = false := by
  obtain ⟨later, foundLater, keeps⟩ := here.grows_finished.kept found
  have isRoutine := State.special_is_routine foundLater (keeps.traits ▸ special)
  rwa [keeps.kind, keeps.traits] at isRoutine

/-- A scope closes as a special routine just when its node is one. -/
theorem Dispatches.special_iff (here : Dispatches tokens index token state) {scope : Scope}
    (hosts : state.arena.Hosts scope node) :
    scope.kind = .specialRoutine ↔ node.info.traits.isSpecialRoutine := by
  rw [hosts.closing]
  constructor
  · intro closes
    unfold Node.scopeKind at closes
    split at closes
    · cases closes
    · split at closes
      · assumption
      · split at closes
        · cases closes
        · cases closes
  · intro special
    -- A special routine is no method, which would be asked for first.
    have plain := (here.special_is_routine hosts.found special).2
    simp [Node.scopeKind, plain, special]

/-- The block and the body in focus are read off scopes that are no routines. -/
theorem Focus.scan_routines (arena : Arena) (reached : Option NodeId) (focus : Focus)
    (scopes : List Scope)
    (routines : ∀ scope ∈ scopes, arena.kind? scope.node = some .routine) :
    Focus.scan arena reached focus scopes = focus := by
  induction scopes with
  | nil => rfl
  | cons scope outer ih =>
    obtain ⟨here, others⟩ := List.forall_mem_cons.mp routines
    simp [Focus.scan, here, ih others]

end State

/-! ### Homes -/

/-- What stands above a home agrees with the kind of symbol that goes there. -/
inductive Home.Fits (arena : Arena) : Home → Prop where
  | inClass {id : NodeId} {upper : Node} (owner : NodeId) (found : arena.node? id = some upper)
    (group : upper.group = some .properties) : Fits arena ⟨some id, .property, some owner⟩
  | inStructure {id : NodeId} {upper : Node} (found : arena.node? id = some upper)
    (holds : upper.info.kind.holdsFields) : Fits arena ⟨some id, .field, some id⟩
  | inBody {id : NodeId} {upper : Node} (found : arena.node? id = some upper)
    (holds : upper.info.kind.holdsVariables) (plain : upper.info.traits.isSpecialRoutine = false) :
    Fits arena ⟨some id, .variableDecl, none⟩
  | atRoot : Fits arena ⟨none, .variableDecl, none⟩

theorem Home.Fits.mono {before after : Arena} {home : Home} (fits : home.Fits before)
    (grows : before.Grows after) : home.Fits after := by
  cases fits with
  | inClass owner found group =>
    obtain ⟨later, foundLater, keeps⟩ := grows.kept found
    exact .inClass owner foundLater (keeps.group.trans group)
  | inStructure found holds =>
    obtain ⟨later, foundLater, keeps⟩ := grows.kept found
    exact .inStructure foundLater (keeps.kind ▸ holds)
  | inBody found holds plain =>
    obtain ⟨later, foundLater, keeps⟩ := grows.kept found
    exact .inBody foundLater (keeps.kind ▸ holds) (keeps.traits ▸ plain)
  | atRoot => exact .atRoot

namespace State

variable {state : State} {id : NodeId} {node : Node}

/-- With nothing open but special routines, nothing is in focus. -/
theorem Dispatches.unfocused (here : Dispatches tokens index token state)
    (special : ∀ scope ∈ state.scopes, scope.kind = .specialRoutine) : state.focus = {} := by
  rw [here.sound.focus, Focus.ofScopes]
  refine Focus.scan_routines _ _ _ _ fun scope member => ?_
  have isOpen := List.mem_reverse.mp member
  obtain ⟨node, hosts⟩ := here.housed.scopes scope isOpen
  have isSpecial := (here.special_iff hosts).mp (special scope isOpen)
  have kind := (here.special_is_routine hosts.found isSpecial).1
  rw [Arena.kind?, hosts.found, Option.map_some, kind]

/-- A procedure or method is a home for variables. -/
theorem Dispatches.callable_fits (here : Dispatches tokens index token state)
    (found : state.arena.node? id = some node) (callable : node.info.kind.isCallable) :
    Home.Fits state.arena ⟨some id, .variableDecl, none⟩ := by
  have holds : node.info.kind.holdsVariables := by
    cases kind : node.info.kind <;> simp_all [Kind.isCallable, Kind.holdsVariables]
  refine .inBody found holds (Bool.eq_false_iff.mpr fun special => ?_)
  rw [(here.special_is_routine found special).1] at callable
  cases callable

/-- With nothing open but special routines, data stands below the last method or the last global
procedure, or at the root. -/
theorem Dispatches.fallback_fits (here : Dispatches tokens index token state)
    (special : ∀ scope ∈ state.scopes, scope.kind = .specialRoutine) :
    Home.Fits state.arena ⟨((state.focus.body.or state.lastMethod).or state.focus.block).or
      state.arena.lastGlobalProcedure?, .variableDecl, none⟩ := by
  rw [here.unfocused special]
  simp only [Option.none_or, Option.or_none]
  cases last : state.lastMethod with
  | some id =>
    obtain ⟨node, found, kind⟩ := Option.map_eq_some_iff.mp (here.housed.lastMethod id last)
    exact here.callable_fits found (by rw [kind]; rfl)
  | none =>
    cases final : state.arena.lastGlobalProcedure? with
    | none => exact .atRoot
    | some id =>
      have tested := List.find?_some final
      obtain ⟨node, found, isGlobal⟩ := (Option.any_eq_true ..).mp tested
      have kind : node.info.kind = .procedure := by simp_all
      exact here.callable_fits found (by rw [kind]; rfl)

/-- Every home fits, and it is there already: no group is made for it. -/
theorem Dispatches.dataHome_fits (here : Dispatches tokens index token state) :
    state.dataHome.1 = state ∧ state.dataHome.2.Fits state.arena := by
  unfold dataHome
  split
  · rename_i scope innermost
    have isOpen := List.mem_reverse.mp (List.mem_of_find?_eq_some innermost)
    have noSpecial : scope.kind ≠ .specialRoutine := by simpa using List.find?_some innermost
    obtain ⟨node, hosts⟩ := here.housed.scopes scope isOpen
    have kind : state.arena.kind? scope.node = some node.info.kind := by
      simp [Arena.kind?, hosts.found]
    have plain : node.info.traits.isSpecialRoutine = false := by
      simpa using mt (here.special_iff hosts).mpr noSpecial
    have opens := hosts.opens
    cases sort : node.info.kind with
    | classDecl =>
      -- The class made its group when it opened, so that none is made now.
      obtain ⟨id, recorded⟩ := hosts.properties sort
      obtain ⟨group, found, -, isProperties, -⟩ := here.sound.arena.group recorded
      have same : state.ensureGroup scope.node .properties = (state, id) := by
        rw [ensureGroup, Arena.ensureGroup_old recorded]
      simp only [kind, sort, same]
      exact ⟨trivial, .inClass scope.node found isProperties⟩
    | procedure | method | routine =>
      simp only [kind, sort]
      exact ⟨trivial, .inBody hosts.found (by rw [sort]; rfl) plain⟩
    | structureDecl | interfaceDecl | moduleDecl | window | control =>
      simp only [kind, sort]
      exact ⟨trivial, .inStructure hosts.found (by rw [sort]; rfl)⟩
    | _ =>
      rw [sort] at opens
      cases opens
  · rename_i none
    refine ⟨rfl, here.fallback_fits fun scope member => ?_⟩
    have passed := List.find?_eq_none.mp none scope (List.mem_reverse.mpr member)
    simpa using passed

end State

/-! ### Declarations in their homes -/

/-- The node right above satisfies the test. -/
def Arena.Below (arena : Arena) (node : Node) (holds : Node → Prop) : Prop :=
  ∃ id upper, node.parent = some id ∧ arena.node? id = some upper ∧ holds upper

theorem Arena.below_iff {arena : Arena} {node upper : Node} {id : NodeId} {holds : Node → Prop}
    (parent : node.parent = some id) (found : arena.node? id = some upper) :
    arena.Below node holds ↔ holds upper := by
  constructor
  · rintro ⟨_, _, again, foundAgain, held⟩
    cases again.symm.trans parent
    cases foundAgain.symm.trans found
    exact held
  · exact fun held => ⟨id, upper, parent, found, held⟩

/-- The node is a data declaration in its home: below no special routine and no class, and of the
kind that what stands above it determines. -/
structure Arena.InHome (arena : Arena) (node : Node) : Prop where
  above : ∀ id, node.parent = some id → ∃ upper, arena.node? id = some upper ∧
    upper.info.traits.isSpecialRoutine = false ∧ upper.info.kind ≠ .classDecl
  property : node.info.kind = .property ↔ arena.Below node (·.group = some .properties)
  field : node.info.kind = .field ↔ arena.Below node (·.info.kind.holdsFields)
  data : node.info.kind = .variableDecl ↔ node.parent = none ∨ arena.Below node fun upper =>
    upper.info.kind.holdsVariables ∧ upper.info.traits.isSpecialRoutine = false
  part : node.info.traits.isPartOfStructure ↔ node.info.kind = .field

namespace State

variable {state : State} {id : NodeId} {node : Node}

theorem plain_of_kind (found : (finished tokens).node? id = some node)
    (noRoutine : node.info.kind ≠ .routine) : node.info.traits.isSpecialRoutine = false :=
  Bool.eq_false_iff.mpr fun special => noRoutine (special_is_routine found special).1

theorem inHome_of_fits {home : Home} (fits : home.Fits (finished tokens))
    (parent : node.parent = home.parent) (kind : node.info.kind = home.kind)
    (part : node.info.traits.isPartOfStructure = (home.owner.isSome && home.kind == .field)) :
    (finished tokens).InHome node := by
  cases fits with
  | @inClass id upper owner found group =>
    have container := group_is_container found group
    have plain := plain_of_kind found (by simp [container])
    constructor
    · rintro _ above
      cases above.symm.trans parent
      exact ⟨upper, found, plain, by simp [container]⟩
    · simp [Arena.below_iff parent found, kind, group]
    · simp [Arena.below_iff parent found, kind, container, Kind.holdsFields]
    · simp [Arena.below_iff parent found, kind, parent, container, Kind.holdsVariables]
    · simp [part, kind]
  | @inStructure id upper found holds =>
    obtain ⟨noVariables, noClass, noRoutine, noContainer⟩ := Kind.of_holdsFields holds
    have plain := plain_of_kind found noRoutine
    constructor
    · rintro _ above
      cases above.symm.trans parent
      exact ⟨upper, found, plain, noClass⟩
    · simp [Arena.below_iff parent found, kind, mt (group_is_container found) noContainer]
    · simp [Arena.below_iff parent found, kind, holds]
    · simp [Arena.below_iff parent found, kind, parent, noVariables]
    · simp [part, kind]
  | @inBody id upper found holds plain =>
    obtain ⟨noFields, noClass, noContainer⟩ := Kind.of_holdsVariables holds
    constructor
    · rintro _ above
      cases above.symm.trans parent
      exact ⟨upper, found, plain, noClass⟩
    · simp [Arena.below_iff parent found, kind, mt (group_is_container found) noContainer]
    · simp [Arena.below_iff parent found, kind, noFields]
    · simp [Arena.below_iff parent found, kind, holds, plain]
    · simp [part, kind]
  | atRoot =>
    have alone (holds : Node → Prop) : ¬(finished tokens).Below node holds := by
      rintro ⟨id, upper, above, -⟩
      cases above.symm.trans parent
    constructor
    · rintro _ above
      cases above.symm.trans parent
    · simp [alone, kind]
    · simp [alone, kind]
    · simp [kind, parent]
    · simp [part, kind]

/-- Every data declaration stands in its home. -/
theorem data_declarations_are_at_home (dispatches : Dispatches tokens index token state)
    (data : isDataType token) (born : BornAt tokens index id) :
    ∃ node, (finished tokens).node? id = some node ∧ (finished tokens).InHome node := by
  obtain ⟨reading, isLabelled⟩ := (dispatches.declares_iff data).mp ⟨id, born⟩
  obtain ⟨label, labelled⟩ := Option.isSome_iff_exists.mp isLabelled
  obtain ⟨same, fits⟩ := dispatches.dataHome_fits
  have acted := dispatches.after_data data
  rw [onData_of_labelled reading labelled, same] at acted
  generalize state.dataHome.2 = home at acted fits
  obtain ⟨children, made⟩ := Arena.push_made state.arena home.parent
    (dataInfo tokens index token label home (state.homeReferences token label home)) none
  have bound := (List.getElem?_eq_some_iff.mp dispatches.found).1
  have grows := grows_finished tokens bound
  rw [acted] at grows
  obtain ⟨node, found, keeps⟩ := grows.kept made
  have only : id = state.arena.nodes.size := by
    obtain ⟨fresh, held⟩ := born
    rw [← dispatches.settles.size] at fresh
    rw [acted, addLeaf, add, Arena.add_size] at held
    exact Nat.le_antisymm (Nat.lt_succ_iff.mp held) fresh
  refine ⟨node, only ▸ found, ?_⟩
  exact inHome_of_fits (fits.mono dispatches.grows_finished) keeps.parent keeps.kind
    (congrArg Traits.isPartOfStructure keeps.traits)

/-- A procedure, and a special routine of it with data. -/
def dataOfSpecialRoutine : Tokens :=
  [{ kind := .label, value := "Main", line := 0, start := 0 },
    { kind := .procedure, value := "PROCEDURE", line := 0, start := 8 },
    { kind := .executionMarker, value := "CODE", line := 1, start := 2 },
    { kind := .label, value := "Main::Sub", line := 2, start := 0 },
    { kind := .routine, value := "ROUTINE", line := 2, start := 12 },
    { kind := .executionMarker, value := "DATA", line := 3, start := 2 },
    { kind := .label, value := "Count", line := 4, start := 0 },
    { kind := .typeName, value := "LONG", line := 4, start := 8 }]

theorem data_of_special_routine_is_of_procedure :
    BornAt dataOfSpecialRoutine 7 3 ∧ ∃ node, (finished dataOfSpecialRoutine).node? 3 = some node ∧
      node.parent = some 0 ∧ (finished dataOfSpecialRoutine).InHome node := by
  have dispatches : Dispatches dataOfSpecialRoutine 7 _ _ := ⟨rfl, rfl, by decide +kernel⟩
  have born : BornAt dataOfSpecialRoutine 7 3 := by
    unfold BornAt
    decide +kernel
  have parent : ((finished dataOfSpecialRoutine).node? 3).map Node.parent = some (some 0) := by
    decide +kernel
  obtain ⟨node, found, home⟩ := data_declarations_are_at_home dispatches rfl born
  rw [found] at parent
  exact ⟨born, node, found, Option.some.inj parent, home⟩

end State
end Clarion.Outline
