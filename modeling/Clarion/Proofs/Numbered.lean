import Clarion.Proofs.Ranges
import Mathlib.Data.List.Perm.Basic

/-! Symbols of the finished outline together with the nodes that they show: the trees inside a tree,
and the order of sorted siblings. They go by their names in small letters, and those with the same
name by age. -/
namespace Clarion.Outline

/-- A symbol of the finished outline with the node that it shows. -/
structure Numbered where
  id : NodeId
  info : Info
  children : List Numbered

namespace Numbered

mutual

/-- The symbol alone. -/
def symbol : Numbered → Symbol
  | ⟨_, info, children⟩ => ⟨info, symbols children⟩

/-- The symbols of a forest. -/
def symbols : List Numbered → List Symbol
  | [] => []
  | tree :: rest => symbol tree :: symbols rest

end

mutual

/-- The trees inside a tree, itself first. -/
def within : Numbered → List Numbered
  | ⟨id, info, children⟩ => ⟨id, info, children⟩ :: withinAll children

/-- The trees inside the trees of a forest. -/
def withinAll : List Numbered → List Numbered
  | [] => []
  | tree :: rest => within tree ++ withinAll rest

end

@[simp] theorem symbols_eq (trees : List Numbered) : symbols trees = trees.map symbol := by
  induction trees with
  | nil => rfl
  | cons tree rest ih => rw [symbols, ih, List.map_cons]

@[simp] theorem withinAll_eq (trees : List Numbered) : withinAll trees = trees.flatMap within := by
  induction trees with
  | nil => rfl
  | cons tree rest ih => rw [withinAll, ih, List.flatMap_cons]

theorem within_eq (tree : Numbered) : tree.within = tree :: tree.children.flatMap within := by
  cases tree
  rw [within, withinAll_eq]

theorem forall_within {tree : Numbered} {holds : Numbered → Prop} :
    (∀ part ∈ tree.within, holds part) ↔
      holds tree ∧ ∀ child ∈ tree.children, ∀ part ∈ child.within, holds part := by
  rw [within_eq, List.forall_mem_cons, List.forall_mem_flatMap]

@[simp] theorem symbol_info (tree : Numbered) : tree.symbol.info = tree.info := by
  cases tree
  rfl

@[simp] theorem symbol_children (tree : Numbered) :
    tree.symbol.children = tree.children.map symbol := by
  cases tree
  rw [symbol, symbols_eq]

/-- What stands right below a tree inside another stands inside the other too. -/
theorem within_child {tree part child : Numbered} (inside : part ∈ tree.within)
    (below : child ∈ part.children) : child ∈ tree.within := by
  rw [within_eq] at inside ⊢
  rcases List.mem_cons.mp inside with rfl | inside
  · exact List.mem_cons_of_mem _
      (List.mem_flatMap.mpr ⟨child, below, child.within_eq ▸ List.mem_cons_self⟩)
  · obtain ⟨lower, listed, deeper⟩ := List.mem_flatMap.mp inside
    exact List.mem_cons_of_mem _ (List.mem_flatMap.mpr ⟨lower, listed, within_child deeper below⟩)
termination_by tree
decreasing_by
  have smaller := List.sizeOf_lt_of_mem listed
  cases tree
  simp only [mk.sizeOf_spec] at smaller ⊢
  omega

/-- The tree under another sort text. -/
def withSortText (tree : Numbered) (text : String) : Numbered :=
  { tree with info := { tree.info with sortText := some text } }

theorem symbol_withSortText (tree : Numbered) (text : String) :
    (tree.withSortText text).symbol =
      { tree.symbol with info := { tree.symbol.info with sortText := some text } } := by
  cases tree
  rfl

/-- Trees ordered by the keys of their symbols, and numbered. -/
def sortedByName (trees : List Numbered) : List Numbered :=
  (trees.mergeSort fun left right =>
    Arena.sortKey left.symbol ≤ Arena.sortKey right.symbol).mapIdx fun index tree =>
      tree.withSortText (Arena.fourDigits index)

theorem map_symbol_sortedByName (trees : List Numbered) :
    (sortedByName trees).map symbol = Arena.sortedByName (trees.map symbol) := by
  have sorted : (trees.mergeSort fun left right =>
      Arena.sortKey left.symbol ≤ Arena.sortKey right.symbol).map
        (fun tree => (Arena.sortKey tree.symbol, tree.symbol)) =
      (trees.map fun tree => (Arena.sortKey tree.symbol, tree.symbol)).mergeSort
        fun left right => left.1 ≤ right.1 :=
    List.map_mergeSort (by simp)
  have forgotten := congrArg (List.map Prod.snd) sorted
  rw [List.map_map] at forgotten
  unfold sortedByName Arena.sortedByName
  dsimp only
  rw [List.map_map, Function.comp_def, ← forgotten]
  apply List.ext_getElem
  · simp
  · intro index _ _
    simp [symbol_withSortText]

theorem mem_sortedByName {trees : List Numbered} {tree : Numbered}
    (member : tree ∈ sortedByName trees) :
    ∃ old ∈ trees, ∃ text, tree = old.withSortText text := by
  obtain ⟨index, bound, rfl⟩ := List.mem_mapIdx.mp member
  exact ⟨_, List.mem_mergeSort.mp (List.getElem_mem bound), _, rfl⟩

theorem map_id_sortedByName (trees : List Numbered) :
    ((sortedByName trees).map id).Perm (trees.map id) := by
  have same : (sortedByName trees).map id = (trees.mergeSort fun left right =>
      Arena.sortKey left.symbol ≤ Arena.sortKey right.symbol).map id := by
    apply List.ext_getElem
    · simp [sortedByName]
    · intro index _ _
      simp [sortedByName, withSortText]
  rw [same]
  exact (List.mergeSort_perm ..).map id

/-! ### The order of sorted siblings -/

/-- What a tree goes by among sorted siblings: the identifier of its name in small letters. -/
def key (tree : Numbered) : String :=
  Text.lowercase (bareName tree.info.name)

theorem sortKey_symbol (tree : Numbered) : Arena.sortKey tree.symbol = tree.key := by
  rw [Arena.sortKey, symbol_info, key]

/-- The tree goes before another among sorted siblings: by its key, and by age where the keys are
the same. -/
def GoesBefore (left right : Numbered) : Prop :=
  left.key < right.key ∨ left.key = right.key ∧ left.id < right.id

/-- The trees by their keys. -/
def byKey (trees : List Numbered) : List Numbered :=
  trees.mergeSort fun left right => left.key ≤ right.key

private theorem key_le_trans (left middle right : Numbered) (first : decide (left.key ≤ middle.key))
    (second : decide (middle.key ≤ right.key)) : decide (left.key ≤ right.key) := by
  rw [decide_eq_true_iff] at first second ⊢
  exact String.le_trans first second

private theorem key_le_total (left right : Numbered) :
    decide (left.key ≤ right.key) || decide (right.key ≤ left.key) := by
  rw [Bool.or_eq_true, decide_eq_true_iff, decide_eq_true_iff]
  exact String.le_total left.key right.key

theorem byKey_ordered (trees : List Numbered) :
    (byKey trees).Pairwise fun left right => left.key ≤ right.key := by
  have ordered : (byKey trees).Pairwise fun left right => decide (left.key ≤ right.key) :=
    List.pairwise_mergeSort key_le_trans key_le_total trees
  exact ordered.imp of_decide_eq_true

/-- Trees with the same key stay in the order in which they stand. -/
theorem filter_byKey (trees : List Numbered) (key : String) :
    (byKey trees).filter (·.key = key) = trees.filter (·.key = key) := by
  refine filter_mergeSort key_le_trans key_le_total (fun left right ofLeft ofRight => ?_) trees
  have same : left.key = right.key := (of_decide_eq_true ofLeft).trans (of_decide_eq_true ofRight).symm
  exact decide_eq_true (same.subst (motive := fun key => left.key ≤ key) (String.le_refl left.key))

/-- Trees from the oldest to the youngest come into the order of sorted siblings. -/
theorem byKey_goesBefore {trees : List Numbered}
    (aged : trees.Pairwise fun left right => left.id < right.id) :
    (byKey trees).Pairwise GoesBefore := by
  refine List.pairwise_iff_forall_sublist.mpr fun {left right} pair => ?_
  have ordered : left.key ≤ right.key :=
    List.pairwise_iff_forall_sublist.mp (byKey_ordered trees) pair
  by_cases before : left.key < right.key
  · exact .inl before
  · have same : left.key = right.key := String.le_antisymm ordered (String.not_lt.mp before)
    have alike : [left, right].filter (·.key = right.key) = [left, right] := by simp [same]
    have within := pair.filter (·.key = right.key)
    rw [filter_byKey, alike] at within
    exact .inr ⟨same, List.pairwise_iff_forall_sublist.mp aged (within.trans List.filter_sublist)⟩

theorem sortedByName_eq (trees : List Numbered) :
    sortedByName trees = (byKey trees).mapIdx fun index tree =>
      tree.withSortText (Arena.fourDigits index) := by
  simp only [sortedByName, byKey, sortKey_symbol]

theorem sortedByName_goesBefore {trees : List Numbered}
    (aged : trees.Pairwise fun left right => left.id < right.id) :
    (sortedByName trees).Pairwise GoesBefore := by
  rw [sortedByName_eq, List.pairwise_iff_getElem]
  intro first second firstBound secondBound order
  rw [List.getElem_mapIdx, List.getElem_mapIdx]
  exact List.pairwise_iff_getElem.mp (byKey_goesBefore aged) first second _ _ order

theorem map_sortText_sortedByName (trees : List Numbered) :
    (sortedByName trees).map (·.info.sortText) =
      (List.range (sortedByName trees).length).map fun place => some (Arena.fourDigits place) := by
  apply List.ext_getElem
  · simp
  · intro index _ _
    simp [sortedByName, withSortText]

end Numbered
end Clarion.Outline
