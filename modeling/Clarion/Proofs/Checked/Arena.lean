import Clarion.Outline.Finder
import Clarion.Proofs.ArenaGrowth
import Clarion.Proofs.Checked.Tokens

/-! The arena with every node looked up by its index: one that is not there is a breach, and so is a
walk up or down that does not come to an end. In a well formed arena there is neither. -/
namespace Clarion.Checked

open Outline

variable {arena : Arena} {id owner : NodeId} {parent : Option NodeId} {holds : Outline.Node → Bool}

/-- The node at an index. -/
def node (arena : Arena) (id : NodeId) : Checked Outline.Node :=
  (arena.node? id).elim (.error .node) .ok

theorem node_ok {found : Outline.Node} (here : arena.node? id = some found) :
    node arena id = .ok found := by
  simp [node, here]

/-- Creates a node below `parent`, or at the root. The list of children of the parent is looked up
when the new node is there already. -/
def push (arena : Arena) (parent : Option NodeId) (info : Info) (group : Option Group) :
    Checked (Arena × NodeId) :=
  match parent with
  | none => .ok (arena.push none info group)
  | some above =>
    if above < arena.nodes.size + 1 then .ok (arena.push (some above) info group)
    else .error .node

theorem push_ok (ready : ∀ above, parent = some above → arena.Holds above) (info : Info)
    (group : Option Group) : push arena parent info group = .ok (arena.push parent info group) := by
  cases parent with
  | none => rfl
  | some above => exact if_pos (Nat.lt_succ_of_lt (ready above rfl))

/-- The group of an owner, created on first use with the span of the owner. -/
def ensureGroup (arena : Arena) (owner : NodeId) (group : Group) : Checked (Arena × NodeId) :=
  match arena.group? owner group with
  | some id => .ok (arena, id)
  | none => do
    let above ← node arena owner
    let made ← push arena (some owner) {
      name := group.label
      detail := ""
      kind := .container
      range := above.info.range
      selection := above.info.selection
      sortText := some group.sortText } (some group)
    return ({ made.1 with groups := ((owner, group), made.2) :: made.1.groups }, made.2)

theorem ensureGroup_ok (held : arena.Holds owner) (group : Group) :
    ensureGroup arena owner group = .ok (arena.ensureGroup owner group) := by
  obtain ⟨above, here⟩ := held.node?
  unfold ensureGroup Arena.ensureGroup
  cases arena.group? owner group with
  | some id => rfl
  | none =>
    have ready : ∀ id, some owner = some id → arena.Holds id := by
      rintro _ ⟨⟩
      exact held
    simp only [node_ok here, push_ok ready, here, ok_bind, pure_eq]

/-- Moves the end of a node's span forward to a place. -/
def extendTo (arena : Arena) (id : NodeId) (place : Position) : Checked Arena := do
  let _ ← node arena id
  return arena.extendTo id place

theorem extendTo_ok (held : arena.Holds id) (place : Position) :
    extendTo arena id place = .ok (arena.extendTo id place) := by
  obtain ⟨found, here⟩ := held.node?
  simp only [extendTo, node_ok here, ok_bind, pure_eq]

/-- The nearest node that satisfies the test, going up from `current` by at most `fuel` steps. -/
def climb (arena : Arena) (holds : Outline.Node → Bool) :
    Nat → Option NodeId → Checked (Option NodeId)
  | _, none => .ok none
  | 0, some _ => .error .depth
  | fuel + 1, some current => do
    let found ← node arena current
    if holds found then return some current else climb arena holds fuel found.parent

/-- Every step up leads to an older node, so there are never more steps than nodes. -/
theorem climb_ok (shape : arena.WellFormed) (holds : Outline.Node → Bool) {fuel : Nat}
    {current : Option NodeId} (below : ∀ id, current = some id → arena.Holds id ∧ id < fuel) :
    climb arena holds fuel current = .ok (arena.climb holds fuel current) := by
  induction fuel generalizing current with
  | zero =>
    cases current with
    | none => rfl
    | some id => exact absurd (below id rfl).2 (Nat.not_lt_zero _)
  | succ fuel ih =>
    cases current with
    | none => rfl
    | some id =>
      obtain ⟨held, bound⟩ := below id rfl
      obtain ⟨found, here⟩ := held.node?
      simp only [climb, Arena.climb, node_ok here, here, ok_bind, pure_eq]
      split
      · rfl
      · apply ih
        intro above isParent
        obtain ⟨older, upper, there, -⟩ := shape.parent here isParent
        exact ⟨Arena.holds_of_node? there, Nat.lt_of_lt_of_le older (Nat.le_of_lt_succ bound)⟩

theorem climb_holds {fuel : Nat} {current : Option NodeId}
    (reached : arena.climb holds fuel current = some id) : arena.Holds id := by
  fun_induction Arena.climb arena holds fuel current with
  | case1 => cases reached
  | case2 => cases reached
  | case3 => cases reached
  | case4 fuel current found here =>
    cases reached
    exact Arena.holds_of_node? here
  | case5 fuel current found here _ ih => exact ih reached

/-- The nearest node strictly above `id` that satisfies the test. -/
def ancestorWhere (arena : Arena) (id : NodeId) (holds : Outline.Node → Bool) :
    Checked (Option NodeId) := do
  let start ← node arena id
  climb arena holds arena.nodes.size start.parent

theorem ancestorWhere_ok (shape : arena.WellFormed) (held : arena.Holds id)
    (holds : Outline.Node → Bool) :
    ancestorWhere arena id holds = .ok (arena.ancestorWhere id holds) := by
  obtain ⟨start, here⟩ := held.node?
  simp only [ancestorWhere, Arena.ancestorWhere, node_ok here, here, ok_bind, Option.bind_some]
  apply climb_ok shape holds
  intro above isParent
  obtain ⟨older, upper, there, -⟩ := shape.parent here isParent
  exact ⟨Arena.holds_of_node? there, Nat.lt_trans older held⟩

theorem ancestorWhere_holds {above : NodeId} (reached : arena.ancestorWhere id holds = some above) :
    arena.Holds above :=
  climb_holds reached

/-! ### Searches -/

/-- The first of the nodes that satisfies the test. -/
def findNode (arena : Arena) (holds : Outline.Node → Bool) : List NodeId → Checked (Option NodeId)
  | [] => .ok none
  | id :: rest => do
    let found ← node arena id
    if holds found then return some id else findNode arena holds rest

theorem findNode_ok (holds : Outline.Node → Bool) {ids : List NodeId}
    (held : ∀ id ∈ ids, arena.Holds id) :
    findNode arena holds ids = .ok (ids.find? (arena.test · holds)) := by
  induction ids with
  | nil => rfl
  | cons id rest ih =>
    obtain ⟨here, later⟩ := List.forall_mem_cons.mp held
    obtain ⟨found, there⟩ := here.node?
    have test : arena.test id holds = holds found := by simp [Arena.test, there]
    rw [findNode, node_ok there, ok_bind, List.find?_cons, test]
    cases holds found with
    | true => rfl
    | false => exact ih later

/-- The first child of the nodes that satisfies the test. -/
def findBelow (arena : Arena) (holds : Outline.Node → Bool) : List NodeId → Checked (Option NodeId)
  | [] => .ok none
  | id :: rest => do
    let above ← node arena id
    match ← findNode arena holds above.children with
    | some found => return some found
    | none => findBelow arena holds rest

theorem findBelow_ok (shape : arena.WellFormed) (holds : Outline.Node → Bool) {ids : List NodeId}
    (held : ∀ id ∈ ids, arena.Holds id) :
    findBelow arena holds ids = .ok ((ids.flatMap arena.childrenOf).find? (arena.test · holds)) := by
  induction ids with
  | nil => rfl
  | cons id rest ih =>
    obtain ⟨here, later⟩ := List.forall_mem_cons.mp held
    obtain ⟨above, there⟩ := here.node?
    have children : arena.childrenOf id = above.children := by simp [Arena.childrenOf, there]
    have inside : ∀ below ∈ above.children, arena.Holds below := by
      intro below member
      obtain ⟨lower, found, -⟩ := shape.child there member
      exact Arena.holds_of_node? found
    rw [findBelow, node_ok there, ok_bind, findNode_ok holds inside, ok_bind, List.flatMap_cons,
      List.find?_append, children]
    cases above.children.find? (arena.test · holds) with
    | some found => rfl
    | none => exact ih later

/-- The node is the definition of the class of that name, up to letter case. -/
def definesClass (name : String) (found : Outline.Node) : Bool :=
  found.info.kind == .classDecl && (Arena.stripImplementation? found.info.name).isNone &&
    Text.sameFold found.info.name name

/-- The definition of a class: first among the roots, then among their children. -/
def findClass (arena : Arena) (name : String) : Checked (Option NodeId) := do
  match ← findNode arena (definesClass name) arena.roots with
  | some found => return some found
  | none => findBelow arena (definesClass name) arena.roots

theorem findClass_ok (shape : arena.WellFormed) (name : String) :
    findClass arena name = .ok (arena.findClass name) := by
  have same : arena.definesClass name = (arena.test · (definesClass name)) := rfl
  rw [findClass, findNode_ok _ fun _ => shape.root_holds, ok_bind, Arena.findClass, same]
  cases arena.roots.find? (arena.test · (definesClass name)) with
  | some found => rfl
  | none => exact findBelow_ok shape _ fun _ => shape.root_holds

/-- The root that collects the methods of an undeclared class. -/
def findImplementationRoot (arena : Arena) (className : String) : Checked (Option NodeId) :=
  findNode arena (fun found => (Arena.stripImplementation? found.info.name).any
    (Text.sameFold · className)) arena.roots

theorem findImplementationRoot_ok (shape : arena.WellFormed) (className : String) :
    findImplementationRoot arena className = .ok (arena.findImplementationRoot className) :=
  findNode_ok _ fun _ => shape.root_holds

/-- The method that a class declares under a name. -/
def findMethodDeclaration (arena : Arena) (owner : NodeId) (name : String) :
    Checked (Option NodeId) :=
  match arena.group? owner .methods with
  | none => .ok none
  | some methods =>
    findBelow arena (fun found => Text.sameFold (bareName found.info.name) name) [methods]

theorem findMethodDeclaration_ok (shape : arena.WellFormed) (owner : NodeId) (name : String) :
    findMethodDeclaration arena owner name = .ok (arena.findMethodDeclaration owner name) := by
  unfold findMethodDeclaration Arena.findMethodDeclaration
  cases found : arena.group? owner .methods with
  | none => rfl
  | some methods =>
    have held : ∀ id ∈ [methods], arena.Holds id := by
      simpa using shape.group_holds found
    dsimp only
    rw [findBelow_ok shape _ held]
    simp [Arena.findByBareName]

/-- The implementation of a method, filed under its class or under the undeclared class. -/
def findMethodImplementation (arena : Arena) (className methodName : String) :
    Checked (Option NodeId) := do
  let declared ← findClass arena className
  let undeclared ← findImplementationRoot arena className
  findBelow arena (fun found => found.info.traits.isMethodImplementation &&
      Text.sameFold (bareName found.info.name) methodName)
    (([declared, undeclared].filterMap fun owner => owner).filterMap (arena.group? · .methods))

theorem findMethodImplementation_ok (shape : arena.WellFormed) (className methodName : String) :
    findMethodImplementation arena className methodName =
      .ok (arena.findMethodImplementation className methodName) := by
  rw [findMethodImplementation, findClass_ok shape, ok_bind, findImplementationRoot_ok shape, ok_bind]
  apply findBelow_ok shape _
  intro methods member
  obtain ⟨owner, -, found⟩ := List.mem_filterMap.mp member
  exact shape.group_holds found

/-- The last root that is a global procedure. -/
def lastGlobalProcedure? (arena : Arena) : Checked (Option NodeId) :=
  findNode arena (fun found => found.info.kind == .procedure &&
    found.info.traits.isGlobalProcedure) arena.roots.reverse

theorem lastGlobalProcedure?_ok (shape : arena.WellFormed) :
    lastGlobalProcedure? arena = .ok arena.lastGlobalProcedure? :=
  findNode_ok _ fun _ member => shape.root_holds (List.mem_reverse.mp member)

/-! ### Walks down -/

/-- Every step down leads to a newer node, so the tree is never deeper than there are nodes. -/
theorem child_within (shape : arena.WellFormed) {found : Outline.Node}
    (here : arena.node? id = some found) {fuel : Nat} (deep : arena.nodes.size ≤ id + (fuel + 1)) {child : NodeId}
    (member : child ∈ found.children) : arena.Holds child ∧ arena.nodes.size ≤ child + fuel := by
  obtain ⟨lower, there, isParent⟩ := shape.child here member
  have newer : id + 1 ≤ child := (shape.parent there isParent).1
  have reached := Nat.add_le_add_right newer fuel
  exact ⟨Arena.holds_of_node? there, by omega⟩

/-- Some node in the tree below `id`, itself included, is a method implementation. -/
def treeHasMethod (arena : Arena) : Nat → NodeId → Checked Bool
  | 0, _ => .error .depth
  | fuel + 1, id => do
    let found ← node arena id
    if found.info.traits.isMethodImplementation then return true
    else found.children.anyM (treeHasMethod arena fuel)

/-- Some node of the outline is a method implementation. -/
def hasMethodImplementations (arena : Arena) : Checked Bool :=
  arena.roots.anyM (treeHasMethod arena arena.nodes.size)

theorem anyM_ok {ids : List NodeId} {test : NodeId → Checked Bool} {holds : NodeId → Bool}
    (tests : ∀ id ∈ ids, test id = .ok (holds id)) : ids.anyM test = .ok (ids.any holds) := by
  induction ids with
  | nil => rfl
  | cons id rest ih =>
    obtain ⟨here, later⟩ := List.forall_mem_cons.mp tests
    rw [List.anyM, here, ok_bind, List.any_cons]
    cases holds id with
    | true => rfl
    | false => exact ih later

theorem treeHasMethod_ok (shape : arena.WellFormed) {fuel : Nat} (held : arena.Holds id)
    (deep : arena.nodes.size ≤ id + fuel) :
    treeHasMethod arena fuel id = .ok (arena.treeHasMethod fuel id) := by
  induction fuel generalizing id with
  | zero => exact absurd held (Nat.not_lt_of_le deep)
  | succ fuel ih =>
    obtain ⟨found, here⟩ := held.node?
    have below : found.children.anyM (treeHasMethod arena fuel) =
        .ok (found.children.any (arena.treeHasMethod fuel)) := by
      apply anyM_ok
      intro child member
      obtain ⟨there, within⟩ := child_within shape here deep member
      exact ih there within
    simp only [treeHasMethod, Arena.treeHasMethod, node_ok here, here, ok_bind, below]
    cases found.info.traits.isMethodImplementation <;> rfl

theorem hasMethodImplementations_ok (shape : arena.WellFormed) :
    hasMethodImplementations arena = .ok arena.hasMethodImplementations :=
  anyM_ok fun _ member => treeHasMethod_ok shape (shape.root_holds member) (Nat.le_add_left _ _)

/-- The symbol of a node with all below it, at most `fuel` levels deep. -/
def symbolAt (arena : Arena) : Nat → NodeId → Checked Symbol
  | 0, _ => .error .depth
  | fuel + 1, id => do
    let found ← node arena id
    let built ← found.children.mapM (symbolAt arena fuel)
    let children := if found.group.any Group.sortsChildren then Arena.sortedByName built else built
    let range := children.foldl (fun range child => Arena.cover range child.info.range)
      found.info.range
    return ⟨{ found.info with range }, children⟩

/-- The finished outline. -/
def toSymbols (arena : Arena) : Checked (List Symbol) :=
  arena.roots.mapM (symbolAt arena arena.nodes.size)

theorem mapM_ok {ids : List NodeId} {build : NodeId → Checked Symbol} {built : NodeId → List Symbol}
    (each : ∀ id ∈ ids, ∃ symbol, build id = .ok symbol ∧ built id = [symbol]) :
    ids.mapM build = .ok (ids.flatMap built) := by
  induction ids with
  | nil => rfl
  | cons id rest ih =>
    obtain ⟨⟨symbol, here, single⟩, later⟩ := List.forall_mem_cons.mp each
    simp [List.mapM_cons, here, ih later, single]

theorem symbolAt_ok (shape : arena.WellFormed) {fuel : Nat} (held : arena.Holds id)
    (deep : arena.nodes.size ≤ id + fuel) :
    ∃ symbol, symbolAt arena fuel id = .ok symbol ∧ arena.symbolAt fuel id = [symbol] := by
  induction fuel generalizing id with
  | zero => exact absurd held (Nat.not_lt_of_le deep)
  | succ fuel ih =>
    obtain ⟨found, here⟩ := held.node?
    have below : found.children.mapM (symbolAt arena fuel) =
        .ok (found.children.flatMap (arena.symbolAt fuel)) := by
      apply mapM_ok
      intro child member
      obtain ⟨there, within⟩ := child_within shape here deep member
      exact ih there within
    simp only [symbolAt, Arena.symbolAt, node_ok here, here, ok_bind, below, pure_eq]
    exact ⟨_, rfl, rfl⟩

theorem toSymbols_ok (shape : arena.WellFormed) : toSymbols arena = .ok arena.toSymbols :=
  mapM_ok fun _ member => symbolAt_ok shape (shape.root_holds member) (Nat.le_add_left _ _)

end Clarion.Checked
