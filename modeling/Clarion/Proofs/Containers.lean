import Clarion.Proofs.DataHomes
import Clarion.Proofs.Forest
import Clarion.Proofs.ShownOnce
import Mathlib.Data.List.Forall2

/-! The containers of an outline. A class brings containers for its properties and its methods, a
map or a module brings one for its functions, and they stay in front of whatever joins them later.
An owner has one container of each name. Properties stand in classes and functions in maps and
modules; the prototypes of an interface stand right below it. -/
namespace Clarion.Outline

/-! ### The groups of a node -/

namespace Arena

variable {arena : Arena} {id owner : NodeId} {node : Node} {group : Group} {sorts : List Group}

/-- The children of a node are its groups of these sorts, and it has no others. -/
structure HoldsGroups (arena : Arena) (owner : NodeId) (sorts : List Group) : Prop where
  children : ∃ node, arena.node? owner = some node ∧
    List.Forall₂ (arena.IsGroup owner) sorts node.children
  others : ∀ group ∉ sorts, arena.group? owner group = none

/-- The last node has no children and no groups. -/
theorem WellFormed.last_holdsGroups (shape : arena.WellFormed) (found : arena.node? id = some node)
    (last : arena.nodes.size = id + 1) : arena.HoldsGroups id [] := by
  have childless {child : NodeId} {lower : Node} (below : arena.node? child = some lower)
      (parent : lower.parent = some id) : False := by
    have newer := (shape.parent below parent).1
    have held := holds_of_node? below
    rw [Holds, last] at held
    exact absurd newer (Nat.not_lt_of_le (Nat.lt_succ_iff.mp held))
  refine ⟨⟨node, found, ?_⟩, fun group _ => ?_⟩
  · rw [List.forall₂_nil_left_iff, List.eq_nil_iff_forall_not_mem]
    intro child member
    obtain ⟨lower, below, parent⟩ := shape.child found member
    exact childless below parent
  · rw [Option.eq_none_iff_forall_not_mem]
    intro child recorded
    obtain ⟨lower, below, parent, -⟩ := shape.group recorded
    exact childless below parent

/-- A group that a node is asked for the first time goes to the end of its children. -/
theorem HoldsGroups.ensureGroup (holds : arena.HoldsGroups owner sorts) (group : Group)
    (fresh : group ∉ sorts) :
    (arena.ensureGroup owner group).1.HoldsGroups owner (sorts ++ [group]) := by
  obtain ⟨node, found, groups⟩ := holds.children
  have missing := holds.others group fresh
  have held := holds_of_node? found
  have grows := ensureGroup_grows arena owner group
  rw [ensureGroup_new missing found] at grows ⊢
  refine ⟨⟨_, push_node?_old found, ?_⟩, fun other new => ?_⟩
  · simp only [withChild, ↓reduceIte]
    refine List.rel_append (groups.imp fun _ _ is => is.mono grows) (.cons ?_ .nil)
    exact ⟨_, push_node?_new held.ready, rfl, rfl, rfl⟩
  · rw [List.mem_append, List.mem_singleton, not_or] at new
    have different : ((owner, other) == (owner, group)) = false := by simpa using new.2
    have unrecorded := holds.others other new.1
    simpa [group?, List.lookup_cons, different] using unrecorded

/-- The first children of a node are its groups of these sorts. -/
def LeadsWith (arena : Arena) (owner : NodeId) (sorts : List Group) : Prop :=
  ∃ node front, arena.node? owner = some node ∧ front <+: node.children ∧
    List.Forall₂ (arena.IsGroup owner) sorts front

theorem HoldsGroups.leadsWith (holds : arena.HoldsGroups owner sorts) :
    arena.LeadsWith owner sorts := by
  obtain ⟨node, found, groups⟩ := holds.children
  exact ⟨node, node.children, found, List.prefix_refl _, groups⟩

/-- What is added later stands behind. -/
theorem LeadsWith.mono {before after : Arena} (leads : before.LeadsWith owner sorts)
    (grows : before.Grows after) : after.LeadsWith owner sorts := by
  obtain ⟨node, front, found, starts, groups⟩ := leads
  obtain ⟨later, foundLater, keeps⟩ := grows.kept found
  exact ⟨later, front, foundLater, starts.trans keeps.children,
    groups.imp fun _ _ is => is.mono grows⟩

end Arena

namespace State

variable {tokens : Tokens} {index : Nat} {token : Token} {state : State} {id owner : NodeId}
  {node : Node} {group : Group}

/-! ### What a structure brings with it -/

/-- The groups that a structure brings with it. -/
def groupsOf (token : Token) : List Group :=
  if token.reads "CLASS" then [.properties, .methods]
  else if token.reads "MAP" || token.reads "MODULE" then [.functions]
  else []

theorem groupsOf_class (reads : token.reads "CLASS") :
    groupsOf token = [.properties, .methods] :=
  if_pos reads

theorem groupsOf_module (reads : token.reads "MAP" ∨ token.reads "MODULE") :
    groupsOf token = [.functions] := by
  have isModule : token.readsOneOf ["MAP", "MODULE"] := by simpa [Token.readsOneOf] using reads
  have noClass : token.readsOneOf ["CLASS"] = false := readsOneOf_apart isModule (by decide)
  simp only [Token.readsOneOf, List.any_cons, List.any_nil, Bool.or_false] at noClass
  simp [groupsOf, noClass, reads]

/-- A structure that brings groups reads as no word that is dealt with in another way. -/
theorem groupsOf_words (brings : groupsOf token ≠ []) :
    token.reads "INTERFACE" = false ∧ token.readsOneOf Tokens.silentWords = false ∧
      declaresRecord token = false ∧ declaresMember token = false ∧
      declaresJoin token = false ∧ ¬(token.reads "FILE" ∨ token.reads "VIEW") := by
  have reads : token.readsOneOf ["CLASS", "MAP", "MODULE"] := by
    by_contra none
    simp_all [groupsOf, Token.readsOneOf]
  have loud : token.readsOneOf Tokens.silentWords = false := readsOneOf_apart reads (by decide)
  have others : token.readsOneOf ["INTERFACE", "RECORD", "KEY", "INDEX", "MEMO", "BLOB", "JOIN",
      "PROJECT", "FILE", "VIEW"] = false := readsOneOf_apart reads (by decide)
  simp only [Token.readsOneOf, List.any_cons, List.any_nil, Bool.or_false,
    Bool.or_eq_false_iff] at others
  simp [loud, declaresRecord, declaresMember, declaresJoin, others]

/-- A structure without children gets the groups that it brings with it, and no others. -/
theorem furnish_holdsGroups (childless : state.arena.HoldsGroups id [])
    (brings : groupsOf token ≠ []) :
    (state.furnish tokens index token id).arena.HoldsGroups id (groupsOf token) := by
  have recorded (label : Option String) (state : State) :
      (state.recordClass label id).arena = state.arena := by
    cases label <;> rfl
  have noInterface := (groupsOf_words brings).1
  unfold furnish
  unfold groupsOf at brings ⊢
  dsimp only
  split
  · rw [recorded]
    exact (childless.ensureGroup .properties (by simp)).ensureGroup .methods (by simp)
  · rename_i noClass
    rw [if_neg noClass] at brings
    split at brings
    · rename_i isModule
      simp only [noInterface, isModule, Bool.false_eq_true, ↓reduceIte]
      exact childless.ensureGroup .functions (by simp)
    · exact absurd rfl brings

/-- A structure leads with the groups that it brings with it. -/
theorem Sound.openStructure_leadsWith (sound : state.Sound) (brings : groupsOf token ≠ []) :
    (state.openStructure tokens index token).arena.LeadsWith
      (state.structureMade tokens index token).2 (groupsOf token) := by
  have files := structureMade_files tokens index token state
  obtain ⟨-, parent, children, made⟩ := structureMade_node tokens index token state
  have last : (state.structureMade tokens index token).1.arena.nodes.size =
      (state.structureMade tokens index token).2 + 1 := by
    simp only [structureMade, add_id]
    exact Arena.add_size ..
  have childless := (sound.files files).arena.last_holdsGroups made last
  exact (furnish_holdsGroups childless brings).leadsWith

/-- No look ahead shows a structure that brings groups. -/
theorem not_madeAhead (found : tokens[index]? = some token) (brings : groupsOf token ≠ [])
    (opener : Nat) : ¬MadeAhead tokens opener index id := by
  intro made
  obtain ⟨-, -, noRecord, noMember, noJoin, -⟩ := groupsOf_words brings
  obtain ⟨_, -, -, -, shown⟩ := made.surfaces
  simp [showsAhead, found, noRecord, noMember, noJoin] at shown

/-- A structure that brings groups does not look ahead itself. -/
theorem looks_nowhere (found : tokens[index]? = some token) (brings : groupsOf token ≠ [])
    (inner : Nat) : ¬MadeAhead tokens index inner id := by
  intro made
  obtain ⟨again, foundAgain, -, -, shown⟩ := made.surfaces
  cases foundAgain.symm.trans found
  obtain ⟨-, -, -, -, -, blind⟩ := groupsOf_words brings
  exact blind (looks_of_showsAhead shown)

/-- Where a node is born, the word is no attribute. -/
theorem Dispatches.declares (here : Dispatches tokens index token state)
    (word : token.kind = .structureWord) (loud : token.readsOneOf Tokens.silentWords = false)
    (born : BornAt tokens index id) : tokens.isModuleAttribute index = false := by
  by_contra isAttribute
  have nothing : after tokens (index + 1) = state := by
    rw [here.after_succ]
    simp [dispatch, word, onStructure, loud, isAttribute]
  have grown := Nat.lt_of_le_of_lt born.1 born.2
  rw [nothing, here.size] at grown
  exact absurd grown (Nat.lt_irrefl _)

/-- The symbol of a structure leads with the groups that the structure brings with it. -/
theorem Shows.leadsWith (shows : Shows tokens index id) (found : tokens[index]? = some token)
    (word : token.kind = .structureWord) (brings : groupsOf token ≠ []) :
    (finished tokens).LeadsWith id (groupsOf token) := by
  have born : BornAt tokens index id := by
    rcases shows.made with ⟨opener, made⟩ | ⟨born, -⟩
    · exact absurd made (not_madeAhead found brings opener)
    · exact born
  obtain ⟨again, state, here⟩ := born.dispatches
  cases here.found.symm.trans found
  obtain ⟨-, loud, noRecord, -⟩ := groupsOf_words brings
  have opens := here.opens word loud (here.declares word loud born) noRecord
  have grows := grows_finished tokens (List.getElem?_eq_some_iff.mp found).1
  obtain ⟨made, foundMade⟩ := Arena.Holds.node? born.2
  obtain ⟨later, foundLater, keeps⟩ := grows.kept foundMade
  obtain ⟨node, foundNode, ordinary⟩ := shows.ordinary
  cases foundLater.symm.trans foundNode
  rw [opens] at foundMade grows
  -- Beside its groups, and since it does not look ahead, the structure makes its own node only.
  rcases here.openStructure_addsOnly word id made foundMade (here.size ▸ born.1)
    (keeps.group.symm.trans ordinary) with rfl | ⟨inner, ahead⟩
  · exact (here.sound.openStructure_leadsWith brings).mono grows
  · exact absurd ahead (looks_nowhere found brings inner)

/-- A structure that brings groups is shown, unless it is an attribute. -/
theorem exists_shows (found : tokens[index]? = some token) (word : token.kind = .structureWord)
    (brings : groupsOf token ≠ []) (declares : tokens.isModuleAttribute index = false) :
    ∃ id, Shows tokens index id := by
  obtain ⟨-, loud, noRecord, noMember, noJoin, -⟩ := groupsOf_words brings
  have here : Dispatches tokens index token ((after tokens index).reach tokens token) := by
    refine ⟨found, rfl, fun handled => ?_⟩
    rw [(reach_settles ..).handled] at handled
    obtain ⟨opener, -, -, deals⟩ := dealtAhead_of_handled handled
    simp [found, dealsWith, word, noMember, noJoin] at deals
  have opens := here.opens word loud declares noRecord
  have bound := (List.getElem?_eq_some_iff.mp found).1
  have size := here.size
  generalize (after tokens index).reach tokens token = state at opens size
  obtain ⟨fresh, parent, children, made⟩ := structureMade_node tokens index token state
  have furnished := (furnish_furnishes tokens index token
    (state.structureMade tokens index token).2 (state.structureMade tokens index token).1).grows
  have grows : (state.structureMade tokens index token).1.arena.Grows
      (after tokens (index + 1)).arena := opens ▸ furnished
  have born : BornAt tokens index (state.structureMade tokens index token).2 :=
    ⟨size ▸ fresh, grows.holds (structureMade_holds ..)⟩
  refine ⟨_, .inr ⟨born, looks_nowhere found brings⟩, ?_, ?_⟩
  · obtain ⟨node, foundNode, keeps⟩ := (grows.trans (grows_finished tokens bound)).kept made
    exact ⟨node, foundNode, keeps.group⟩
  · rintro ⟨turn, className, founds⟩
    obtain rfl := born.unique founds.born
    obtain ⟨_, methodOpens⟩ := founds.opens
    obtain ⟨again, _, there, isProcedure, -⟩ := methodAt?_eq_some_iff.mp methodOpens
    cases there.found.symm.trans found
    cases isProcedure.symm.trans word

/-! ### Where groups stand -/

/-- A group has the name of its sort. Only classes have properties, and only maps and modules have
functions. -/
theorem group_origin (found : (finished tokens).node? id = some node)
    (sort : node.group = some group) : node.info.name = group.label ∧ (group ≠ .methods →
      ∃ owner, node.parent = some owner ∧ (finished tokens).kind? owner = some group.ownerKind) := by
  cases exists_origin found with
  | plain here opens born made => cases made.group.symm.trans sort
  | grouped here opens born made =>
    obtain ⟨owner, again, sortAgain, parent, -, fits⟩ := made.owner
    cases sortAgain.symm.trans sort
    exact ⟨made.label group sort, fun _ => ⟨owner, parent, fits⟩⟩
  | method implements born =>
    rcases implements.others id node born found with rfl | ⟨rfl, -, name⟩ | ⟨rfl, founds⟩
    · cases (implements.last_links found).2.1.symm.trans sort
    · cases (implements.isGroup.links found).2.1.symm.trans sort
      exact ⟨name, fun other => absurd rfl other⟩
    · cases (founds.links found).2.symm.trans sort

/-- Only groups are containers. -/
theorem container_is_group (found : (finished tokens).node? id = some node)
    (container : node.info.kind = .container) : ∃ group, node.group = some group := by
  cases exists_origin found with
  | plain here opens born made =>
    obtain ⟨info, makes, same⟩ := made.info
    rw [same] at container
    exact absurd container makes.noContainer
  | grouped here opens born made =>
    obtain ⟨owner, group, sort, -⟩ := made.owner
    exact ⟨group, sort⟩
  | method implements born =>
    rcases implements.others id node born found with rfl | ⟨rfl, -⟩ | ⟨rfl, founds⟩
    · cases (implements.last_links found).2.2.symm.trans container
    · exact ⟨_, (implements.isGroup.links found).2.1⟩
    · have isClass := founds.kind
      rw [Arena.kind?, found, Option.map_some, container] at isClass
      cases isClass

/-! ### Methods of an interface -/

/-- The token at an index is a prototype inside the block of that node: of the open classes,
interfaces, maps and modules, it is the innermost. -/
def DeclaresIn (tokens : Tokens) (index : Nat) (owner : NodeId) : Prop :=
  ∃ token state scope, Dispatches tokens index token state ∧ token.kind = .procedure ∧
    state.procedureUse tokens index token = .prototype ∧
    state.scopes.innermost? (state.scopeKindIs Kind.isDefinition) = some scope ∧
    scope.node = owner

/-- A prototype of an interface makes a method right below the interface, and nothing else. -/
theorem DeclaresIn.makes (declares : DeclaresIn tokens index owner)
    (isInterface : (finished tokens).kind? owner = some .interfaceDecl) :
    ∃ id node, (∀ other, BornAt tokens index other ↔ other = id) ∧
      (finished tokens).node? id = some node ∧ node.parent = some owner ∧
      node.info.kind = .method := by
  obtain ⟨token, state, scope, here, word, use, innermost, rfl⟩ := declares
  have held := here.sound.names_holds (innermost_named innermost)
  rw [here.grows_finished.kind?_eq held] at isInterface
  have acts : (after tokens (index + 1)).arena = (state.arena.add (some scope.node)
      (prototypeInfo tokens index token (procedureName tokens index token) .method true false)).1 := by
    rw [here.after_succ]
    simp only [dispatch, word, onProcedure_eq, use, declarePrototype, innermost, Option.map_some,
      Option.bind_some, isInterface]
    rfl
  have size : (after tokens (index + 1)).arena.nodes.size = state.arena.nodes.size + 1 := by
    rw [acts, Arena.add_size]
  have grows := grows_finished tokens (List.getElem?_eq_some_iff.mp here.found).1
  rw [acts] at grows
  obtain ⟨node, found, keeps⟩ := grows.kept (Arena.push_node?_new held.ready)
  refine ⟨_, node, fun other => ?_, found, keeps.parent, keeps.kind⟩
  rw [BornAt, size, ← here.size]
  exact ⟨fun born => Nat.le_antisymm (Nat.lt_succ_iff.mp born.2) born.1,
    fun same => ⟨same.ge, Nat.lt_succ_iff.mpr same.le⟩⟩

end State

/-! ### Containers in the outline -/

theorem Group.label_injective : Function.Injective Group.label := by
  intro left right same
  cases left <;> cases right <;> simp_all [Group.label]

/-- The symbol is a container of that name. -/
def Symbol.IsContainer (symbol : Symbol) (name : String) : Prop :=
  symbol.info.kind = .container ∧ symbol.info.name = name

/-- The first children of the symbol are containers of these names. -/
def Symbol.StartsWith (symbol : Symbol) (names : List String) : Prop :=
  ∃ front rest, symbol.children = front ++ rest ∧ List.Forall₂ Symbol.IsContainer front names

/-- The containers right below a symbol have different names. There are properties only below a
class, and functions only below a map or a module. -/
structure Symbol.Tidy (symbol : Symbol) : Prop where
  distinct : ((symbol.children.filter (·.info.kind == .container)).map (·.info.name)).Nodup
  properties : ∀ child ∈ symbol.children, child.IsContainer "Properties" →
    symbol.info.kind = .classDecl
  functions : ∀ child ∈ symbol.children, child.IsContainer "Functions" →
    symbol.info.kind = .moduleDecl

namespace State

variable {tokens : Tokens} {index : Nat} {token : Token} {forest : List Numbered}
  {tree child : Numbered}

theorem mem_below (inside : tree ∈ forest.flatMap Numbered.within) (below : child ∈ tree.children) :
    child ∈ forest.flatMap Numbered.within := by
  obtain ⟨top, inForest, inTop⟩ := List.mem_flatMap.mp inside
  exact List.mem_flatMap.mpr ⟨top, inForest, Numbered.within_child inTop below⟩

/-- What a child in the outline says of its node. -/
theorem below_node (isForest : (finished tokens).IsForest forest)
    (inside : tree ∈ forest.flatMap Numbered.within) (below : child ∈ tree.children) :
    ∃ node, (finished tokens).node? child.id = some node ∧ node.parent = some tree.id ∧
      node.info.kind = child.info.kind ∧ node.info.name = child.info.name := by
  obtain ⟨upper, foundUpper, -, children⟩ := (isForest.shows tree inside).node
  have listed := children.subset (List.mem_map_of_mem below)
  obtain ⟨node, found, parent⟩ := (arranged_finished tokens).child foundUpper listed
  obtain ⟨again, foundAgain, info, -⟩ := (isForest.shows child (mem_below inside below)).node
  cases foundAgain.symm.trans found
  refine ⟨node, found, parent, ?_, ?_⟩ <;> rw [info]

/-- A container below a symbol is a group. -/
theorem below_group (isForest : (finished tokens).IsForest forest)
    (inside : tree ∈ forest.flatMap Numbered.within) (below : child ∈ tree.children)
    (container : child.info.kind = .container) :
    ∃ node group, (finished tokens).node? child.id = some node ∧ node.parent = some tree.id ∧
      node.group = some group ∧ child.info.name = group.label := by
  obtain ⟨node, found, parent, kind, name⟩ := below_node isForest inside below
  obtain ⟨group, sort⟩ := container_is_group found (kind.trans container)
  exact ⟨node, group, found, parent, sort, name.symm.trans (group_origin found sort).1⟩

/-- A container of properties or functions stands below a symbol of the kind that has them. -/
theorem below_ownerKind (isForest : (finished tokens).IsForest forest)
    (inside : tree ∈ forest.flatMap Numbered.within) (below : child ∈ tree.children)
    (group : Group) (isContainer : child.symbol.IsContainer group.label)
    (other : group ≠ .methods) : tree.info.kind = group.ownerKind := by
  rw [Symbol.IsContainer, Numbered.symbol_info] at isContainer
  obtain ⟨node, again, found, parent, sort, name⟩ :=
    below_group isForest inside below isContainer.1
  obtain rfl : again = group := Group.label_injective (name.symm.trans isContainer.2)
  obtain ⟨owner, parentAgain, kind⟩ := (group_origin found sort).2 other
  cases parentAgain.symm.trans parent
  obtain ⟨upper, foundUpper, info, -⟩ := (isForest.shows tree inside).node
  rw [Arena.kind?, foundUpper, Option.map_some] at kind
  rw [info]
  exact Option.some.inj kind

theorem tidy (isForest : (finished tokens).IsForest forest)
    (inside : tree ∈ forest.flatMap Numbered.within) : tree.symbol.Tidy := by
  refine ⟨?_, ?_, ?_⟩
  · have separate : tree.children.Pairwise (·.id ≠ ·.id) := by
      obtain ⟨upper, foundUpper, -, children⟩ := (isForest.shows tree inside).node
      have ordered := (arranged_finished tokens).children foundUpper
      exact List.pairwise_map.mp (children.nodup_iff.mpr (ordered.imp Nat.ne_of_lt))
    rw [Numbered.symbol_children, List.filter_map, List.map_map, List.Nodup, List.pairwise_map,
      List.pairwise_filter]
    refine separate.imp_of_mem fun {left right} inLeft inRight apart isLeft isRight same => ?_
    simp only [Function.comp_apply, Numbered.symbol_info, beq_iff_eq] at isLeft isRight same
    obtain ⟨node, group, found, parent, sort, name⟩ := below_group isForest inside inLeft isLeft
    obtain ⟨other, again, foundOther, parentOther, sortOther, nameOther⟩ :=
      below_group isForest inside inRight isRight
    obtain rfl : group = again :=
      Group.label_injective (name.symm.trans (same.trans nameOther))
    exact apart ((arranged_finished tokens).group_unique found foundOther sort sortOther
      (parent.trans parentOther.symm))
  · rw [Numbered.symbol_children, Numbered.symbol_info, List.forall_mem_map]
    intro child below isContainer
    exact below_ownerKind isForest inside below .properties isContainer nofun
  · rw [Numbered.symbol_children, Numbered.symbol_info, List.forall_mem_map]
    intro child below isContainer
    exact below_ownerKind isForest inside below .functions isContainer nofun

theorem top_is_no_container (isForest : (finished tokens).IsForest forest) (top : tree ∈ forest) :
    tree.info.kind ≠ .container := by
  intro container
  have inside : tree ∈ forest.flatMap Numbered.within :=
    List.mem_flatMap.mpr ⟨tree, top, tree.within_eq ▸ List.mem_cons_self⟩
  obtain ⟨node, found, info, -⟩ := (isForest.shows tree inside).node
  rw [info] at container
  obtain ⟨group, sort⟩ := container_is_group found container
  obtain ⟨owner, parent, -⟩ := (arranged_finished tokens).recorded found sort
  obtain ⟨again, foundAgain, atTop⟩ :=
    (arranged_finished tokens).root (isForest.roots ▸ List.mem_map_of_mem top)
  cases foundAgain.symm.trans found
  cases atTop.symm.trans parent

/-- The children of a symbol start with the containers that its node leads with. -/
theorem starts_with_containers (isForest : (finished tokens).IsForest forest)
    (inside : tree ∈ forest.flatMap Numbered.within) (ordered : (finished tokens).KeepsOrder tree)
    (ordinary : ∃ node, (finished tokens).node? tree.id = some node ∧ node.group = none)
    {sorts : List Group} (leads : (finished tokens).LeadsWith tree.id sorts) :
    tree.symbol.StartsWith (sorts.map Group.label) := by
  obtain ⟨node, found, noGroup⟩ := ordinary
  obtain ⟨again, ids, foundAgain, ⟨later, starts⟩, groups⟩ := leads
  cases foundAgain.symm.trans found
  have listed : tree.children.map Numbered.id = ids ++ later :=
    (ordered node found (by simp [noGroup])).trans starts.symm
  obtain ⟨front, rest, parts, rfl, -⟩ := List.map_eq_append_iff.mp listed
  refine ⟨front.map Numbered.symbol, rest.map Numbered.symbol, ?_, ?_⟩
  · rw [Numbered.symbol_children, parts, List.map_append]
  rw [List.forall₂_map_right_iff] at groups
  rw [List.forall₂_map_left_iff, List.forall₂_map_right_iff]
  -- The groups that the front is matched with are its own nodes, one by one.
  have below : ∀ child ∈ front, child ∈ tree.children := fun child member =>
    parts ▸ List.mem_append_left rest member
  clear listed starts parts
  induction groups with
  | nil => exact .nil
  | @cons group child sorts front isGroup _ ih =>
    rw [List.forall_mem_cons] at below
    obtain ⟨node, foundChild, -, kind, name⟩ := below_node isForest inside below.1
    obtain ⟨-, sort, container⟩ := isGroup.links foundChild
    refine .cons ⟨?_, ?_⟩ (ih below.2)
    · rw [Numbered.symbol_info, ← kind, container]
    · rw [Numbered.symbol_info, ← name, (group_origin foundChild sort).1]

/-- The structure at an index is shown unless it is an attribute, and its symbol starts with
containers of these names. -/
structure Brings (tokens : Tokens) (forest : List Numbered) (index : Nat) (names : List String) :
    Prop where
  shown : tokens.isModuleAttribute index = false →
    ∃ tree ∈ forest.flatMap Numbered.within, Shows tokens index tree.id
  starts : ∀ tree ∈ forest.flatMap Numbered.within, Shows tokens index tree.id →
    tree.symbol.StartsWith names

theorem brings_groups (isForest : (finished tokens).IsForest forest)
    (ordered : ∀ tree ∈ forest.flatMap Numbered.within, (finished tokens).KeepsOrder tree)
    (found : tokens[index]? = some token) (word : token.kind = .structureWord)
    (brings : groupsOf token ≠ []) :
    Brings tokens forest index ((groupsOf token).map Group.label) := by
  refine ⟨fun declares => ?_, fun tree inside shows => ?_⟩
  · obtain ⟨id, shows⟩ := exists_shows found word brings declares
    obtain ⟨node, foundNode, -⟩ := shows.ordinary
    have listed := isForest.once.mem_iff.mpr (List.mem_range.mpr (Arena.holds_of_node? foundNode))
    obtain ⟨tree, inside, rfl⟩ := List.mem_map.mp listed
    exact ⟨tree, inside, shows⟩
  · exact starts_with_containers isForest inside (ordered tree inside) shows.ordinary
      (shows.leadsWith found word brings)

/-- In the outline of any tokens, a class starts with containers for its properties and its methods,
and a map or a module with one for its functions. The containers below a symbol have different
names and stand only below symbols, properties in classes and functions in maps and modules. A
prototype of an interface makes one method, right below the interface. -/
theorem containers_in_place (tokens : Tokens) :
    ∃ forest, forest.map Numbered.symbol = ofTokens tokens ∧
      (finished tokens).IsForest forest ∧
      (∀ index token, tokens[index]? = some token → token.kind = .structureWord →
        (token.reads "CLASS" → Brings tokens forest index ["Properties", "Methods"]) ∧
        (token.reads "MAP" ∨ token.reads "MODULE" →
          Brings tokens forest index ["Functions"])) ∧
      (∀ tree ∈ forest, tree.info.kind ≠ .container) ∧
      (∀ tree ∈ forest.flatMap Numbered.within, tree.symbol.Tidy) ∧
      ∀ index owner, DeclaresIn tokens index owner →
        (finished tokens).kind? owner = some .interfaceDecl →
        ∃ id, (∀ other, BornAt tokens index other ↔ other = id) ∧
          (finished tokens).kind? id = some .method ∧
          Arena.StandsUnder forest id (some owner) := by
  have arranged := arranged_finished tokens
  obtain ⟨forest, isForest, ordered⟩ := arranged.exists_ordered_forest
  refine ⟨forest, isForest.symbols, isForest, fun index token found word => ⟨?_, ?_⟩,
    fun tree => top_is_no_container isForest, fun tree => tidy isForest, ?_⟩
  · intro isClass
    have sorts := groupsOf_class isClass
    have brings := brings_groups isForest ordered found word (sorts ▸ nofun)
    rwa [sorts] at brings
  · intro isModule
    have sorts := groupsOf_module isModule
    have brings := brings_groups isForest ordered found word (sorts ▸ nofun)
    rwa [sorts] at brings
  · intro index owner declares isInterface
    obtain ⟨id, node, born, found, parent, kind⟩ := declares.makes isInterface
    refine ⟨id, born, ?_, parent ▸ isForest.standsUnder arranged.toWellFormed found⟩
    rw [Arena.kind?, found, Option.map_some, kind]

/-- A class and an interface that each declare a method. -/
def classAndInterface : Tokens :=
  [{ kind := .label, value := "Shape", line := 0, start := 0 },
    { kind := .structureWord, value := "CLASS", line := 0, start := 8 },
    { kind := .label, value := "Draw", line := 1, start := 0 },
    { kind := .procedure, value := "PROCEDURE", line := 1, start := 8 },
    { kind := .endStatement, value := "END", line := 2, start := 2 },
    { kind := .label, value := "Drawable", line := 3, start := 0 },
    { kind := .structureWord, value := "INTERFACE", line := 3, start := 9 },
    { kind := .label, value := "Draw", line := 4, start := 0 },
    { kind := .procedure, value := "PROCEDURE", line := 4, start := 8 },
    { kind := .endStatement, value := "END", line := 5, start := 2 }]

theorem classAndInterface_containers : ∃ forest,
    forest.map Numbered.symbol = ofTokens classAndInterface ∧
      Brings classAndInterface forest 1 ["Properties", "Methods"] ∧
      Arena.StandsUnder forest 5 (some 4) := by
  obtain ⟨forest, outline, -, brings, -, -, methods⟩ := containers_in_place classAndInterface
  have declares : DeclaresIn classAndInterface 8 4 := by
    have innermost : (((after classAndInterface 8).reach classAndInterface
        classAndInterface[8]).scopes.innermost? (((after classAndInterface 8).reach
          classAndInterface classAndInterface[8]).scopeKindIs Kind.isDefinition)).map Scope.node =
        some 4 := by
      decide +kernel
    obtain ⟨scope, found, node⟩ := Option.map_eq_some_iff.mp innermost
    exact ⟨_, _, scope, ⟨rfl, rfl, by decide +kernel⟩, rfl, by decide +kernel, found, node⟩
  obtain ⟨id, born, -, stands⟩ := methods 8 4 declares (by decide +kernel)
  have last : BornAt classAndInterface 8 5 := ⟨by decide +kernel, by decide +kernel⟩
  obtain rfl := (born 5).mp last
  exact ⟨forest, outline, (brings 1 _ rfl rfl).1 (by decide +kernel), stands⟩

end State
end Clarion.Outline
