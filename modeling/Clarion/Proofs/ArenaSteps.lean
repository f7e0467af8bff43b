import Clarion.Proofs.Ancestry
import Clarion.Proofs.Ranges

/-! Steps between arenas. Some only widen spans, and no search notices them. Others create symbols
at known places and groups of known nodes; then every new node is one of these. -/
namespace Clarion.Outline

/-- The kind of the symbols that have groups of this sort. -/
def Group.ownerKind : Group → Kind
  | .properties | .methods => .classDecl
  | .functions => .moduleDecl

namespace Arena

variable {arena before middle after : Arena} {id owner : NodeId} {node : Node} {group : Group}
  {parent : Option NodeId} {info : Info} {makes : Info → Prop} {known : NodeId → Prop}

/-! ### Arenas that differ in spans only -/

/-- The second arena is the first with spans that may be wider. -/
structure Widens (before after : Arena) : Prop where
  nodes : ∀ id, ∃ range : Node → Range, (∀ node, (range node).Covers node.info.range) ∧
    after.node? id = (before.node? id).map fun node =>
      { node with info := { node.info with range := range node } }
  roots : after.roots = before.roots
  groups : after.groups = before.groups

namespace Widens

theorem refl (arena : Arena) : arena.Widens arena :=
  ⟨fun id => ⟨fun node => node.info.range, fun _ => .refl _, by simp⟩, rfl, rfl⟩

theorem trans (first : before.Widens middle) (second : middle.Widens after) :
    before.Widens after := by
  refine ⟨fun id => ?_, second.roots.trans first.roots, second.groups.trans first.groups⟩
  obtain ⟨early, widerFirst, atMiddle⟩ := first.nodes id
  obtain ⟨late, widerSecond, atAfter⟩ := second.nodes id
  refine ⟨fun node => late { node with info := { node.info with range := early node } }, ?_, ?_⟩
  · exact fun node => (widerSecond _).trans (widerFirst node)
  · rw [atAfter, atMiddle, Option.map_map]
    rfl

theorem extendTo (arena : Arena) (target : NodeId) (place : Position) :
    arena.Widens (arena.extendTo target place) := by
  refine ⟨fun id => ?_, rfl, rfl⟩
  by_cases same : target = id
  · refine ⟨fun node => if place.isAfter node.info.range.stop then ⟨node.info.range.start, place⟩
      else node.info.range, fun node => ?_, ?_⟩
    · dsimp only
      split
      · rename_i later
        exact ⟨le_rfl, (Position.isAfter_iff.mp later).le⟩
      · exact .refl _
    · simp only [Arena.extendTo, Arena.node?, Array.getElem?_modify, same, ↓reduceIte]
      congr 1
      funext node
      split <;> rfl
  · refine ⟨fun node => node.info.range, fun node => .refl _, ?_⟩
    simp [Arena.extendTo, Arena.node?, Array.getElem?_modify, same]

variable (widens : before.Widens after)
include widens

theorem size : after.nodes.size = before.nodes.size := by
  have same (id : NodeId) : before.nodes.size ≤ id ↔ after.nodes.size ≤ id := by
    obtain ⟨range, -, same⟩ := widens.nodes id
    rw [← Array.getElem?_eq_none_iff, ← Array.getElem?_eq_none_iff]
    exact (same ▸ Option.map_eq_none_iff).symm
  exact Nat.le_antisymm ((same _).mp (Nat.le_refl _)) ((same _).mpr (Nat.le_refl _))

theorem grows : before.Grows after where
  size := Nat.le_of_eq widens.size.symm
  kept {id node} found := by
    obtain ⟨range, -, same⟩ := widens.nodes id
    rw [found] at same
    exact ⟨_, same, rfl, rfl, rfl, List.prefix_refl _⟩
  roots := ⟨[], by simp [widens.roots]⟩
  groups found := by rwa [group?, widens.groups]

theorem arranged (arranged : before.Arranged) : after.Arranged := by
  refine arranged.of_links (fun id => ?_) widens.roots widens.groups
  obtain ⟨range, -, same⟩ := widens.nodes id
  rw [same, Option.map_map]
  rfl

/-- A test that does not look at spans has the same answer. -/
theorem test_eq {holds : Node → Bool} (blind : ∀ node range,
      holds { node with info := { node.info with range } } = holds node) (id : NodeId) :
    after.test id holds = before.test id holds := by
  obtain ⟨range, -, same⟩ := widens.nodes id
  rw [test, test, same, Option.any_map]
  congr 1
  funext node
  exact blind node _

theorem childrenOf_eq (id : NodeId) : after.childrenOf id = before.childrenOf id := by
  obtain ⟨range, -, same⟩ := widens.nodes id
  rw [childrenOf, childrenOf, same]
  cases before.node? id <;> rfl

theorem group?_eq (owner : NodeId) (group : Group) :
    after.group? owner group = before.group? owner group := by
  rw [group?, group?, widens.groups]

theorem node? (found : after.node? id = some node) :
    ∃ old, before.node? id = some old ∧ old.info.traits = node.info.traits ∧
      old.info.name = node.info.name ∧ old.info.kind = node.info.kind := by
  obtain ⟨range, -, same⟩ := widens.nodes id
  rw [same] at found
  obtain ⟨old, foundOld, rfl⟩ := Option.map_eq_some_iff.mp found
  exact ⟨old, foundOld, rfl, rfl, rfl⟩

theorem findClass_eq (name : String) : after.findClass name = before.findClass name := by
  have same : after.definesClass name = before.definesClass name :=
    funext (widens.test_eq fun _ _ => rfl)
  have below : after.childrenOf = before.childrenOf := funext widens.childrenOf_eq
  rw [findClass, findClass, widens.roots, same, below]

theorem findImplementationRoot_eq (className : String) :
    after.findImplementationRoot className = before.findImplementationRoot className := by
  rw [findImplementationRoot, findImplementationRoot, widens.roots]
  congr 1
  exact funext (widens.test_eq fun _ _ => rfl)

theorem findMethodDeclaration_eq (owner : NodeId) (name : String) :
    after.findMethodDeclaration owner name = before.findMethodDeclaration owner name := by
  have same (methods : NodeId) :
      after.findByBareName methods name = before.findByBareName methods name := by
    rw [findByBareName, findByBareName, widens.childrenOf_eq]
    congr 1
    exact funext (widens.test_eq fun _ _ => rfl)
  rw [findMethodDeclaration, findMethodDeclaration, widens.group?_eq]
  simp only [same]

theorem lastGlobal_eq : after.lastGlobalProcedure? = before.lastGlobalProcedure? := by
  rw [lastGlobalProcedure?, lastGlobalProcedure?, widens.roots]
  congr 1
  exact funext (widens.test_eq fun _ _ => rfl)

end Widens

/-! ### What a token makes of the arena -/

/-- Where a node may be created: at the root, below a known node, or in a group of one. -/
inductive Place (arena : Arena) (known : NodeId → Prop) : Option NodeId → Prop where
  | root : Place arena known none
  | below {id : NodeId} (isKnown : known id) (held : arena.Holds id) : Place arena known (some id)
  | inGroup {owner id : NodeId} {group : Group} (isKnown : known owner)
    (recorded : arena.group? owner group = some id) : Place arena known (some id)

theorem Place.mono (place : before.Place known parent) (grows : before.Grows after) :
    after.Place known parent := by
  cases place with
  | root => exact .root
  | below isKnown held => exact .below isKnown (grows.holds held)
  | inGroup isKnown recorded => exact .inGroup isKnown (grows.groups recorded)

theorem Place.ready (place : arena.Place known parent) (shape : arena.WellFormed) :
    ∀ above, parent = some above → arena.Holds above := by
  rintro above rfl
  cases place with
  | below isKnown held => exact held
  | inGroup isKnown recorded => exact shape.group_holds recorded

/-- The second arena comes from the first by spans that move, by symbols of the given sort at known
places, and by groups of known nodes. A node is asked only for the groups of its kind. -/
inductive Builds (makes : Info → Prop) (known : NodeId → Prop) (before : Arena) : Arena → Prop where
  | start : Builds makes known before before
  | moved {arena : Arena} (earlier : Builds makes known before arena) (id : NodeId)
    (place : Position) : Builds makes known before (arena.extendTo id place)
  | made {arena : Arena} {parent : Option NodeId} {info : Info}
    (earlier : Builds makes known before arena) (made : makes info)
    (place : arena.Place known parent) : Builds makes known before (arena.add parent info).1
  | grouped {arena : Arena} {owner : NodeId} {group : Group}
    (earlier : Builds makes known before arena) (isKnown : known owner)
    (fits : arena.kind? owner = some group.ownerKind) :
    Builds makes known before (arena.ensureGroup owner group).1

namespace Builds

theorem grows (builds : Builds makes known before after) : before.Grows after := by
  induction builds with
  | start => exact .refl _
  | moved _ id place ih => exact ih.trans (extendTo_grows ..)
  | made _ _ place ih => exact ih.trans add_grows
  | grouped _ _ _ ih => exact ih.trans (ensureGroup_grows ..)

theorem arranged (builds : Builds makes known before after) (first : before.Arranged) :
    after.Arranged := by
  induction builds with
  | start => exact first
  | moved _ id place ih => exact ih.extendTo id place
  | made _ _ place ih => exact ih.add (place.ready ih.toWellFormed)
  | grouped _ _ fits ih => exact ih.ensureGroup (holds_of_kind? fits) _

/-- A symbol of the given sort at a known place. -/
structure Plain (makes : Info → Prop) (known : NodeId → Prop) (arena : Arena) (node : Node) :
    Prop where
  group : node.group = none
  info : ∃ info, makes info ∧ node.info = { info with range := node.info.range }
  place : arena.Place known node.parent

/-- A group of a known node. -/
structure Grouped (known : NodeId → Prop) (arena : Arena) (node : Node) : Prop where
  kind : node.info.kind = .container
  traits : node.info.traits = {}
  label : ∀ group, node.group = some group → node.info.name = group.label
  owner : ∃ owner group, node.group = some group ∧ node.parent = some owner ∧ known owner ∧
    arena.kind? owner = some group.ownerKind

theorem Plain.keeps {later : Node} (plain : Plain makes known before node)
    (grows : before.Grows after) (keeps : node.Keeps later) : Plain makes known after later where
  group := keeps.group.trans plain.group
  info := by
    obtain ⟨info, made, same⟩ := plain.info
    refine ⟨info, made, ?_⟩
    have rest := keeps.info
    rw [same] at rest
    exact rest
  place := keeps.parent ▸ plain.place.mono grows

theorem Grouped.keeps {later : Node} (grouped : Grouped known before node)
    (grows : before.Grows after) (keeps : node.Keeps later) : Grouped known after later where
  kind := keeps.kind.trans grouped.kind
  traits := keeps.traits.trans grouped.traits
  label group sort := keeps.name.trans (grouped.label group (keeps.group.symm.trans sort))
  owner := by
    obtain ⟨owner, group, sort, parent, isKnown, fits⟩ := grouped.owner
    exact ⟨owner, group, keeps.group.trans sort, keeps.parent.trans parent, isKnown,
      grows.kind? fits⟩

/-- Every new node is a symbol at a known place, or a group of a known node. -/
theorem new (builds : Builds makes known before after) (first : before.Arranged)
    (found : after.node? id = some node) (fresh : ¬before.Holds id) :
    Plain makes known after node ∨ Grouped known after node := by
  induction builds generalizing node with
  | start => exact absurd (holds_of_node? found) fresh
  | @moved arena earlier target place ih =>
    have grows := extendTo_grows arena target place
    obtain ⟨range, moved⟩ := extendTo_node? arena target place id
    rw [moved] at found
    obtain ⟨old, foundOld, rfl⟩ := Option.map_eq_some_iff.mp found
    have keeps : old.Keeps { old with info := { old.info with range := range old } } :=
      ⟨rfl, rfl, rfl, List.prefix_refl _⟩
    exact (ih foundOld).imp (·.keeps grows keeps) (·.keeps grows keeps)
  | @made arena parent info earlier isMade place ih =>
    have ready := place.ready (earlier.arranged first).toWellFormed
    rcases WellFormed.push_cases ready found with ⟨rfl, rfl⟩ | ⟨old, foundOld, rfl⟩
    · exact .inl ⟨rfl, ⟨info, isMade, rfl⟩, place.mono add_grows⟩
    · have keeps := withChild_keeps parent arena.nodes.size id old
      exact (ih foundOld).imp (·.keeps add_grows keeps) (·.keeps add_grows keeps)
  | @grouped arena owner group earlier isKnown fits ih =>
    have grows := ensureGroup_grows arena owner group
    rcases ensureGroup_cases (holds_of_kind? fits) found with old | ⟨-, above, rfl⟩
    · obtain ⟨oldNode, foundOld⟩ := old.node?
      obtain ⟨later, foundLater, keeps⟩ := grows.kept foundOld
      cases foundLater.symm.trans found
      exact (ih foundOld).imp (·.keeps grows keeps) (·.keeps grows keeps)
    · refine .inr ⟨rfl, rfl, ?_, owner, group, rfl, rfl, isKnown, grows.kind? fits⟩
      rintro _ ⟨⟩
      rfl

end Builds
end Arena
end Clarion.Outline
