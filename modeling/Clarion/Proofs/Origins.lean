import Clarion.Proofs.ArenaSteps
import Clarion.Proofs.Pass

/-! Where the nodes of an outline come from. What one token makes of the arena is said once: which
symbols it can make, where it can put them, and which groups it can ask for. A token that opens a
method is the only one that reaches past the nodes the pass has a handle on, and is described on its
own. -/
namespace Clarion.Outline

/-- The kinds of declared data. -/
def Kind.isData : Kind → Bool
  | .property | .field | .variableDecl => true
  | _ => false

namespace State

variable {state : State} {tokens : Tokens} {index : Nat} {token : Token} {info : Info}

/-- The symbols that a token can make when it opens no method. A file or a view also makes those of
tokens further on. -/
inductive Makes (tokens : Tokens) (index : Nat) (token : Token) : Info → Prop where
  | structureSymbol (word : token.kind = .structureWord) :
    Makes tokens index token (structureInfo tokens index token)
  | recordSymbol {inner : Nat} {member : Token} (found : tokens[inner]? = some member) :
    Makes tokens index token (recordInfo tokens inner member)
  | keySymbol {inner : Nat} {member : Token} (found : tokens[inner]? = some member) :
    Makes tokens index token (keyInfo tokens inner member)
  | memoSymbol {inner : Nat} {member : Token} (found : tokens[inner]? = some member) :
    Makes tokens index token (memoInfo tokens inner member)
  | joinSymbol {inner : Nat} {member : Token} (found : tokens[inner]? = some member) :
    Makes tokens index token (joinInfo tokens inner member)
  | projectSymbol {inner : Nat} {member : Token} (found : tokens[inner]? = some member) :
    Makes tokens index token (projectInfo tokens inner member)
  | controlSymbol : Makes tokens index token (controlInfo tokens index token)
  | procedureSymbol (name : String) (isGlobal : Bool) :
    Makes tokens index token (procedureInfo tokens index token name isGlobal)
  | prototypeSymbol {kind : Kind} (callable : kind.isCallable) (name : String)
    (isMethod isMap : Bool) :
    Makes tokens index token (prototypeInfo tokens index token name kind isMethod isMap)
  | routineSymbol (name : String) : Makes tokens index token (routineInfo tokens index token name)
  | codeSymbol : Makes tokens index token (codeInfo token)
  | dataSymbol {label : DataLabel} {home : Home}
    (labelled : dataLabel? tokens index token = some label) (isData : home.kind.isData)
    (references : List String) :
    Makes tokens index token (dataInfo tokens index token label home references)

/-- No such symbol is a method with a body. -/
theorem Makes.noMethod (makes : Makes tokens index token info) :
    info.traits.isMethodImplementation = false := by
  cases makes <;> rfl

/-- A class is made only by the word for it. -/
theorem Makes.class (makes : Makes tokens index token info) (kind : info.kind = .classDecl) :
    token.kind = .structureWord ∧ token.reads "CLASS" := by
  cases makes with
  | structureSymbol word =>
    refine ⟨word, ?_⟩
    have isClass : Kind.ofStructureWord token.value = .classDecl := kind
    unfold Kind.ofStructureWord at isClass
    repeat' split at isClass
    · simpa [Text.isOneOfFold, Token.reads] using ‹Text.isOneOfFold token.value ["CLASS"] = true›
    all_goals cases isClass
  | prototypeSymbol callable name isMethod isMap =>
    cases kind
    cases callable
  | @dataSymbol label home labelled isData references =>
    have isClass : home.kind = .classDecl := kind
    rw [isClass] at isData
    cases isData
  | _ => cases kind

/-- No such symbol is a container. -/
theorem Makes.noContainer (makes : Makes tokens index token info) : info.kind ≠ .container := by
  intro kind
  cases makes with
  | structureSymbol word =>
    have container : Kind.ofStructureWord token.value = .container := kind
    unfold Kind.ofStructureWord at container
    repeat' split at container
    all_goals cases container
  | prototypeSymbol callable name isMethod isMap =>
    cases kind
    cases callable
  | @dataSymbol label home labelled isData references =>
    have container : home.kind = .container := kind
    rw [container] at isData
    cases isData
  | _ => cases kind

/-- A node that the pass has a handle on: one that the state names, a method implementation, or one
made since. -/
inductive Known (state : State) : NodeId → Prop where
  | named {id : NodeId} (named : state.Names id) : Known state id
  | method {id : NodeId} {node : Node} (found : state.arena.node? id = some node)
    (implements : node.info.traits.isMethodImplementation) : Known state id
  | fresh {id : NodeId} (later : state.arena.nodes.size ≤ id) : Known state id

/-- The arena comes from that of the state by what a token can do that opens no method. -/
abbrev Draws (tokens : Tokens) (index : Nat) (token : Token) (state : State) (arena : Arena) :
    Prop :=
  Arena.Builds (Makes tokens index token) state.Known state.arena arena

/-! ### Declarations -/

/-- Below a node that the state may or may not name. -/
theorem Sound.add_draws (sound : state.Sound) {parent : Option NodeId}
    (named : ∀ id, parent = some id → state.Names id) (makes : Makes tokens index token info) :
    state.Draws tokens index token (state.add parent info).1.arena := by
  cases parent with
  | none => exact .made .start makes .root
  | some id =>
    exact .made .start makes (.below (.named (named id rfl)) (sound.names_holds (named id rfl)))

/-- In a group of a node that the state names. -/
theorem Sound.inGroup_draws (sound : state.Sound) {id : NodeId} (named : state.Names id)
    (group : Group) (fits : state.arena.kind? id = some group.ownerKind)
    (makes : Makes tokens index token info) :
    state.Draws tokens index token
      ((state.ensureGroup id group).1.add (some (state.ensureGroup id group).2) info).1.arena := by
  obtain ⟨-, recorded⟩ := sound.arena.ensureGroup (sound.names_holds named) group
  exact .made (.grouped .start (.named named) fits) makes (.inGroup (.named named) recorded)

/-- A declaration goes below a node that the state names, or into the properties of a class. -/
theorem Sound.routeOption_draws (sound : state.Sound) {target : Option NodeId}
    (named : ∀ id, target = some id → state.Names id) (makes : Makes tokens index token info) :
    state.Draws tokens index token
      ((state.routeOption target).1.add (state.routeOption target).2 info).1.arena := by
  cases target with
  | none => exact .made .start makes .root
  | some id =>
    simp only [routeOption, routeInto]
    split
    · rename_i isClass
      exact sound.inGroup_draws (named id rfl) .properties (eq_of_beq isClass) makes
    · exact sound.add_draws named makes

theorem Sound.scopeTarget_draws (sound : state.Sound) (makes : Makes tokens index token info) :
    state.Draws tokens index token (state.scopeTarget.1.add state.scopeTarget.2 info).1.arena :=
  sound.routeOption_draws (fun _ named => top_named named) makes

theorem Sound.elementTarget_draws (sound : state.Sound) (makes : Makes tokens index token info) :
    state.Draws tokens index token
      (state.elementTarget.1.add state.elementTarget.2 info).1.arena := by
  unfold State.elementTarget
  split
  · rename_i node focused
    refine sound.routeOption_draws ?_ makes
    rintro _ ⟨⟩
    rcases Option.or_eq_some_iff.mp focused with block | ⟨-, body⟩
    · exact sound.block_named block
    · exact sound.body_named body
  · exact sound.scopeTarget_draws makes

theorem Sound.onControl_draws (sound : state.Sound) :
    state.Draws tokens index token (state.onControl tokens index token).arena :=
  sound.elementTarget_draws .controlSymbol

theorem Sound.onProject_draws (sound : state.Sound) (found : tokens[index]? = some token) :
    state.Draws tokens index token (state.onProject tokens index token).arena :=
  sound.elementTarget_draws (.projectSymbol found)

theorem Sound.keyTarget_draws (sound : state.Sound) (makes : Makes tokens index token info) :
    state.Draws tokens index token (state.keyTarget.1.add state.keyTarget.2 info).1.arena := by
  unfold State.keyTarget
  split
  · rename_i node focused
    refine sound.routeOption_draws ?_ makes
    rintro _ ⟨⟩
    exact sound.block_named focused
  · exact sound.scopeTarget_draws makes

theorem Sound.onKey_draws (sound : state.Sound) (found : tokens[index]? = some token) :
    state.Draws tokens index token (state.onKey tokens index token).arena := by
  unfold State.onKey
  split
  · exact sound.keyTarget_draws (.keySymbol found)
  · exact .start

/-- Data goes below a node that the state names, or into the properties of a class, and is of one of
the kinds of declared data. -/
theorem Sound.dataHome_draws (sound : state.Sound)
    (makes : state.dataHome.2.kind.isData → Makes tokens index token info) :
    state.Draws tokens index token
      (state.dataHome.1.add state.dataHome.2.parent info).1.arena := by
  unfold State.dataHome at makes ⊢
  split at makes
  · rename_i scope found
    have named := innermost_named found
    have below : ∀ id, some scope.node = some id → state.Names id := by
      rintro _ ⟨⟩
      exact named
    split at makes
    · rename_i isClass
      exact sound.inGroup_draws named .properties isClass (makes rfl)
    · exact sound.add_draws below (makes rfl)
    · exact sound.add_draws below (makes rfl)
    · exact sound.add_draws below (makes rfl)
    · exact sound.add_draws below (makes rfl)
  · exact sound.add_draws (fun _ fallback => sound.fallback_named fallback) (makes rfl)

theorem Sound.onData_draws (sound : state.Sound) :
    state.Draws tokens index token (state.onData tokens index token).arena := by
  unfold State.onData
  split
  · exact .start
  · split
    · exact .start
    · rename_i label labelled
      exact sound.dataHome_draws fun isData => .dataSymbol labelled isData _

theorem Sound.declarePrototype_draws (sound : state.Sound) (name : String) :
    state.Draws tokens index token (state.declarePrototype tokens index token name).arena := by
  unfold State.declarePrototype
  dsimp only
  split
  · rename_i owner found
    exact sound.inGroup_draws (definition_named found) .methods (definition_kind found).1
      (.prototypeSymbol rfl ..)
  · rename_i owner found
    refine sound.add_draws ?_ (.prototypeSymbol rfl ..)
    rintro _ ⟨⟩
    exact definition_named found
  · rename_i owner kind noClass noInterface found
    obtain ⟨here, isDefinition⟩ := definition_kind found
    obtain rfl : kind = .moduleDecl := by
      cases kind with
      | moduleDecl => rfl
      | classDecl => exact absurd rfl noClass
      | interfaceDecl => exact absurd rfl noInterface
      | _ => cases isDefinition
    exact sound.inGroup_draws (definition_named found) .functions here (.prototypeSymbol rfl ..)
  · exact sound.add_draws (fun _ focused => sound.block_named focused) (.prototypeSymbol rfl ..)

/-! ### Structures and what they look through -/

theorem ofStructureWord_of_class (reads : token.reads "CLASS") :
    Kind.ofStructureWord token.value = .classDecl := by
  have isClass : token.readsOneOf ["CLASS"] := by simpa [Token.readsOneOf] using reads
  exact if_pos isClass

theorem ofStructureWord_of_module (reads : token.reads "MAP" ∨ token.reads "MODULE") :
    Kind.ofStructureWord token.value = .moduleDecl := by
  have isModule : token.readsOneOf ["MAP", "MODULE"] := by simpa [Token.readsOneOf] using reads
  have noClass : token.readsOneOf ["CLASS"] = false := readsOneOf_apart isModule (by decide)
  have noInterface : token.readsOneOf ["INTERFACE"] = false :=
    readsOneOf_apart isModule (by decide)
  exact (if_neg (ne_true_of_eq_false noClass)).trans
    ((if_neg (ne_true_of_eq_false noInterface)).trans (if_pos isModule))

variable {start : State}

theorem fileStep_draws (drawn : start.Draws tokens index token state.arena) {file : NodeId}
    (known : start.Known file) (held : state.arena.Holds file) (inner : Nat) :
    start.Draws tokens index token (state.fileStep tokens file inner).arena := by
  unfold fileStep
  split
  · exact drawn
  · rename_i member found
    split
    · exact .made drawn (.recordSymbol found) (.below known held)
    · split
      · exact .made drawn (.keySymbol found) (.below known held)
      · split
        · exact .made drawn (.memoSymbol found) (.below known held)
        · exact drawn

theorem lookThroughFile_draws (drawn : start.Draws tokens index token state.arena) {file : NodeId}
    (known : start.Known file) (held : state.arena.Holds file) :
    start.Draws tokens index token (state.lookThroughFile tokens index file).arena := by
  unfold lookThroughFile
  generalize blockIndices tokens index = indices
  induction indices generalizing state with
  | nil => exact drawn
  | cons inner rest ih =>
    exact ih (fileStep_draws drawn known held inner)
      ((fileStep_furnishes tokens file state inner).grows.holds held)

/-- The nodes that a view files under: itself and its open joins. -/
def Reaches (start state : State) (view : NodeId) (joins : List NodeId) : Prop :=
  ∀ id ∈ view :: joins, start.Known id ∧ state.arena.Holds id

theorem viewStep_draws (drawn : start.Draws tokens index token state.arena) {view : NodeId}
    {joins : List NodeId} (reaches : start.Reaches state view joins) (inner : Nat) :
    start.Draws tokens index token (viewStep tokens view (state, joins) inner).1.arena ∧
      start.Reaches (viewStep tokens view (state, joins) inner).1 view
        (viewStep tokens view (state, joins) inner).2 := by
  have innermost : joins.head?.getD view ∈ view :: joins := by
    cases joins <;> simp
  obtain ⟨known, held⟩ := reaches _ innermost
  have later {info : Info} : ∀ id ∈ view :: joins, start.Known id ∧
      (state.add (some (joins.head?.getD view)) info).1.arena.Holds id := fun id member =>
    ⟨(reaches id member).1, (add_adds ..).grows.holds (reaches id member).2⟩
  unfold viewStep
  dsimp only
  split
  · exact ⟨drawn, reaches⟩
  · rename_i member found
    split
    · refine ⟨.made drawn (.joinSymbol found) (.below known held), ?_⟩
      intro id listed
      rcases List.mem_cons.mp listed with rfl | listed
      · exact later id List.mem_cons_self
      · rcases List.mem_cons.mp listed with rfl | listed
        · refine ⟨.fresh ?_, add_holds ..⟩
          rw [add_id]
          exact drawn.grows.size
        · exact later id (List.mem_cons_of_mem _ listed)
    · split
      · exact ⟨.made drawn (.projectSymbol found) (.below known held), later⟩
      · split
        · refine ⟨drawn, fun id listed => reaches id ?_⟩
          rcases List.mem_cons.mp listed with rfl | listed
          · exact List.mem_cons_self
          · exact List.mem_cons_of_mem _ (List.mem_of_mem_tail listed)
        · exact ⟨drawn, reaches⟩

theorem lookThroughView_draws (drawn : start.Draws tokens index token state.arena) {view : NodeId}
    (known : start.Known view) (held : state.arena.Holds view) :
    start.Draws tokens index token (state.lookThroughView tokens index view).arena := by
  unfold lookThroughView
  generalize blockIndices tokens index = indices
  have reaches : start.Reaches state view [] := by
    intro id listed
    cases List.mem_singleton.mp listed
    exact ⟨known, held⟩
  generalize ([] : List NodeId) = joins at reaches
  induction indices generalizing state joins with
  | nil => exact drawn
  | cons inner rest ih =>
    obtain ⟨drawnNext, reachesNext⟩ := viewStep_draws drawn reaches inner
    exact ih drawnNext (reachesNext view List.mem_cons_self).2 _ reachesNext

/-- Groups of a fresh structure, or the members it looks through to. -/
theorem furnish_draws (drawn : start.Draws tokens index token state.arena) {node : NodeId}
    (known : start.Known node)
    (kind : state.arena.kind? node = some (Kind.ofStructureWord token.value)) :
    start.Draws tokens index token (state.furnish tokens index token node).arena := by
  have held := Arena.holds_of_kind? kind
  have recorded (label : Option String) (state : State) :
      (state.recordClass label node).arena = state.arena := by
    cases label <;> rfl
  unfold furnish
  dsimp only
  split
  · rename_i word
    rw [recorded]
    rw [ofStructureWord_of_class word] at kind
    have grows := Arena.ensureGroup_grows state.arena node .properties
    exact .grouped (.grouped drawn known kind) known (grows.kind? kind)
  · split
    · rw [recorded]
      exact drawn
    · split
      · rename_i word
        rw [ofStructureWord_of_module (by simpa using word)] at kind
        exact .grouped drawn known kind
      · split
        · exact lookThroughFile_draws drawn known held
        · split
          · exact lookThroughView_draws drawn known held
          · exact drawn

theorem Sound.openStructure_draws (sound : state.Sound) (word : token.kind = .structureWord) :
    state.Draws tokens index token (state.openStructure tokens index token).arena := by
  have makes : Makes tokens index token (structureInfo tokens index token) := .structureSymbol word
  have made := sound.scopeTarget_draws makes
  obtain ⟨fresh, parent, children, node⟩ := structureMade_node tokens index token state
  refine furnish_draws made (.fresh fresh) ?_
  exact congrArg (Option.map (·.info.kind)) node

theorem Sound.onStructure_draws (sound : state.Sound) (word : token.kind = .structureWord) :
    state.Draws tokens index token (state.onStructure tokens index token).arena := by
  unfold State.onStructure
  split
  · exact .start
  · split
    · exact .start
    · split
      · exact .start
      · exact sound.openStructure_draws word

/-! ### Bodies, routines and ends -/

/-- Scopes that close only move spans. -/
theorem close_draws (drawn : start.Draws tokens index token state.arena) (closed : Scopes)
    (line : Option Nat) :
    start.Draws tokens index token (state.close tokens closed line).arena := by
  cases line with
  | none => exact drawn
  | some line =>
    simp only [close]
    generalize state.arena = arena at drawn
    induction closed generalizing arena with
    | nil => exact drawn
    | cons scope rest ih =>
      rw [List.foldl_cons]
      apply ih
      split
      · exact .moved drawn _ _
      · exact drawn

theorem close_widens (tokens : Tokens) (state : State) (closed : Scopes) (line : Option Nat) :
    state.arena.Widens (state.close tokens closed line).arena := by
  cases line with
  | none => exact .refl _
  | some line =>
    simp only [close]
    generalize state.arena = arena
    induction closed generalizing arena with
    | nil => exact .refl _
    | cons scope rest ih =>
      rw [List.foldl_cons]
      refine Arena.Widens.trans ?_ (ih _)
      split
      · exact .extendTo ..
      · exact .refl _

theorem shut_widens (tokens : Tokens) (state : State) (parts : Scopes × Scopes) :
    state.arena.Widens (state.shut tokens parts).arena :=
  close_widens tokens { state with scopes := parts.1 } parts.2 state.previousLine

theorem shut_draws (tokens : Tokens) (index : Nat) (token : Token) (state : State)
    (parts : Scopes × Scopes) :
    state.Draws tokens index token (state.shut tokens parts).arena := by
  have unmoved : state.Draws tokens index token { state with scopes := parts.1 }.arena := .start
  exact close_draws unmoved parts.2 state.previousLine

/-- Where a routine goes is a node that the pass has a handle on. -/
theorem atRoutine_known {id : NodeId}
    (parent : (state.atRoutine tokens).routineParent? tokens index = some id) : state.Known id := by
  have widens : state.arena.Widens (state.atRoutine tokens).arena := shut_widens ..
  rcases Option.or_eq_some_iff.mp parent with inside | ⟨-, last⟩
  · rcases Option.or_eq_some_iff.mp inside with isOpen | ⟨-, before⟩
    · obtain ⟨scope, innermost, rfl⟩ := Option.map_eq_some_iff.mp isOpen
      have member := List.mem_reverse.mp (List.mem_of_find?_eq_some innermost)
      rw [atRoutine, shut_scopes] at member
      exact .named (.scope (splitFrom_kept _ _ scope member))
    · obtain ⟨node, found, implements⟩ := methodBefore_implements before
      obtain ⟨old, foundOld, traits, -⟩ := widens.node? found
      exact .method foundOld (traits ▸ implements)
  · exact .named (.lastGlobal (widens.lastGlobal_eq ▸ last))

theorem Sound.onRoutine_draws (sound : state.Sound) :
    state.Draws tokens index token (state.onRoutine tokens index token).arena := by
  have closed : (state.atRoutine tokens).Sound :=
    sound.toGrounded.shut tokens (splitFrom_kept state.scopes _)
  have drawn : state.Draws tokens index token (state.atRoutine tokens).arena := shut_draws ..
  have ready := closed.toGrounded.routineParent_ready tokens index
  have makes : Makes tokens index token (routineInfo tokens index token
      (routineName tokens index token)) := .routineSymbol _
  have made : state.Draws tokens index token ((state.atRoutine tokens).add
      ((state.atRoutine tokens).routineParent? tokens index)
      (routineInfo tokens index token (routineName tokens index token))).1.arena := by
    cases parent : (state.atRoutine tokens).routineParent? tokens index with
    | none => exact .made drawn makes .root
    | some id => exact .made drawn makes (.below (atRoutine_known parent) (ready id parent))
  rw [onRoutine_eq]
  dsimp only
  split
  · exact made
  · exact made

theorem Sound.onMarker_draws (sound : state.Sound) :
    state.Draws tokens index token (state.onMarker token).arena := by
  unfold State.onMarker
  split
  · exact .start
  · split
    · dsimp only
      split
      · exact .start
      · rename_i scope found
        have named := innermost_named found
        have made : state.Draws tokens index token
            (state.arena.add (some scope.node) (codeInfo token)).1 :=
          .made .start .codeSymbol (.below (.named named) (sound.names_holds named))
        split
        · exact made
        · exact made
    · exact .start

theorem onEnd_draws : state.Draws tokens index token (state.onEnd token).arena := by
  unfold onEnd
  split
  · exact .start
  · dsimp only
    split
    · exact .start
    · exact .moved .start _ _

/-- A procedure token draws in this way unless it opens a method. -/
theorem Sound.onProcedure_draws (sound : state.Sound)
    (plain : ∀ className methodName,
      state.procedureUse tokens index token ≠ .method className methodName) :
    state.Draws tokens index token (state.onProcedure tokens index token).arena := by
  rw [onProcedure_eq]
  split
  · exact sound.declarePrototype_draws _
  · have drawn : state.Draws tokens index token (state.atRoot tokens).arena :=
      shut_draws tokens index token state ([], state.scopes)
    exact .made drawn (.procedureSymbol _ true) .root
  · exact sound.add_draws (fun _ focused => sound.block_named focused) (.procedureSymbol _ false)
  · rename_i className methodName use
    exact absurd use (plain className methodName)

theorem Sound.keyword_draws (sound : state.Sound) (found : tokens[index]? = some token)
    (word : token.kind = .keyword) :
    state.Draws tokens index token (state.dispatch tokens index token).arena := by
  simp only [State.dispatch, word]
  split
  · exact sound.onKey_draws found
  · split
    · exact sound.onRoutine_draws
    · split
      · exact .start
      · split
        · exact sound.onLoopTerminator.2 ▸ .start
        · exact .start

/-- Every token draws in this way unless it opens a method. -/
theorem Sound.dispatch_draws (sound : state.Sound) (found : tokens[index]? = some token)
    (plain : token.kind = .procedure → ∀ className methodName,
      state.procedureUse tokens index token ≠ .method className methodName) :
    state.Draws tokens index token (state.dispatch tokens index token).arena := by
  cases word : token.kind with
  | structureWord => simpa only [State.dispatch, word] using sound.onStructure_draws word
  | keyword => exact sound.keyword_draws found word
  | procedure => simpa only [State.dispatch, word] using sound.onProcedure_draws (plain word)
  | routine => simpa only [State.dispatch, word] using sound.onRoutine_draws
  | executionMarker => simpa only [State.dispatch, word] using sound.onMarker_draws
  | endStatement => simpa only [State.dispatch, word] using onEnd_draws
  | windowElement => simpa only [State.dispatch, word] using sound.onControl_draws
  | propertyFunction =>
    simp only [State.dispatch, word]
    split
    · exact sound.onProject_draws found
    · exact .start
  | typeName | annotatedType | referenceVariable | variableName | argument =>
    simpa only [State.dispatch, word] using sound.onData_draws
  | _ => simpa only [State.dispatch, word] using Arena.Builds.start

end State
end Clarion.Outline
