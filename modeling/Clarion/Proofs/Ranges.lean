import Clarion.Outline.Arena
import Mathlib.Data.List.Basic
import Mathlib.Data.Prod.Lex
import Mathlib.Order.MinMax

/-! Places of a document in the order of the text, and spans by what they take in. Covering two
spans is a join: the result is taken in by exactly those spans that take in both. Sorting, by this
or any other order, keeps alike elements in their order. -/
namespace Clarion

/-- Sorting keeps the elements that pass a test as they stand, when these are all alike. -/
theorem filter_mergeSort {α : Type} {le : α → α → Bool} {test : α → Bool}
    (trans : ∀ left middle right, le left middle → le middle right → le left right)
    (total : ∀ left right, le left right || le right left)
    (alike : ∀ left right, test left → test right → le left right) (list : List α) :
    (list.mergeSort le).filter test = list.filter test := by
  have ordered : (list.filter test).Pairwise fun left right => le left right :=
    List.pairwise_of_forall_mem_list fun left inLeft right inRight =>
      alike left right (List.mem_filter.mp inLeft).2 (List.mem_filter.mp inRight).2
  have kept : (list.filter test).Sublist (list.mergeSort le) :=
    List.sublist_mergeSort trans total ordered List.filter_sublist
  have within := kept.filter test
  rw [List.filter_filter] at within
  simp only [Bool.and_self] at within
  exact (within.eq_of_length ((List.mergeSort_perm list _).symm.filter _).length_eq).symm

namespace Position

/-- Line first, then column. -/
def key (place : Position) : Nat ×ₗ Nat :=
  toLex (place.line, place.column)

theorem key_injective : Function.Injective key := by
  intro left right same
  cases left
  cases right
  simpa [key] using same

instance : LinearOrder Position :=
  LinearOrder.lift' key key_injective

variable {left right : Position}

theorem lt_iff : left < right ↔
    left.line < right.line ∨ left.line = right.line ∧ left.column < right.column :=
  Prod.Lex.lt_iff

theorem le_iff : left ≤ right ↔
    left.line < right.line ∨ left.line = right.line ∧ left.column ≤ right.column :=
  Prod.Lex.le_iff

theorem isAfter_iff : left.isAfter right ↔ right < left := by
  rw [isAfter, lt_iff, Bool.or_eq_true, Bool.and_eq_true, decide_eq_true_iff, decide_eq_true_iff,
    beq_iff_eq, @eq_comm _ left.line]

end Position

namespace Range

/-- The first span takes in the second. -/
structure Covers (outer inner : Range) : Prop where
  start : outer.start ≤ inner.start
  stop : inner.stop ≤ outer.stop

theorem Covers.refl (range : Range) : range.Covers range :=
  ⟨le_rfl, le_rfl⟩

theorem Covers.trans {outer middle inner : Range} (first : outer.Covers middle)
    (second : middle.Covers inner) : outer.Covers inner :=
  ⟨first.start.trans second.start, second.stop.trans first.stop⟩

/-- The smallest span that takes in all the parts. -/
structure IsHull (range : Range) (parts : List Range) : Prop where
  covers : ∀ part ∈ parts, range.Covers part
  least : ∀ other : Range, (∀ part ∈ parts, other.Covers part) → other.Covers range

/-- A span is the smallest one when exactly those that take in all parts take it in. -/
theorem isHull_of_iff {range : Range} {parts : List Range}
    (exactly : ∀ other : Range, other.Covers range ↔ ∀ part ∈ parts, other.Covers part) :
    range.IsHull parts :=
  ⟨(exactly range).mp (.refl range), fun other => (exactly other).mpr⟩

theorem IsHull.covers_iff {range other : Range} {parts : List Range} (hull : range.IsHull parts) :
    other.Covers range ↔ ∀ part ∈ parts, other.Covers part :=
  ⟨fun outer part member => outer.trans (hull.covers part member), hull.least other⟩

end Range

namespace Outline.Arena

theorem cover_eq (range inner : Range) :
    cover range inner = ⟨min range.start inner.start, max range.stop inner.stop⟩ := by
  unfold cover
  simp only [Position.isAfter_iff, min_comm range.start, min_def_lt, max_def_lt]

/-- Covering two spans is a join. -/
theorem covers_cover {outer range inner : Range} :
    outer.Covers (cover range inner) ↔ outer.Covers range ∧ outer.Covers inner := by
  rw [cover_eq]
  constructor
  · rintro ⟨start, stop⟩
    exact ⟨⟨(le_min_iff.mp start).1, (max_le_iff.mp stop).1⟩,
      ⟨(le_min_iff.mp start).2, (max_le_iff.mp stop).2⟩⟩
  · rintro ⟨first, second⟩
    exact ⟨le_min first.start second.start, max_le first.stop second.stop⟩

/-- A span widened to symbols one after the other is the join of all of them. -/
theorem covers_widened {outer range : Range} {symbols : List Symbol} :
    outer.Covers (symbols.foldl (fun range symbol => cover range symbol.info.range) range) ↔
      outer.Covers range ∧ ∀ symbol ∈ symbols, outer.Covers symbol.info.range := by
  induction symbols generalizing range with
  | nil => simp
  | cons symbol rest ih =>
    rw [List.foldl_cons, ih, covers_cover, List.forall_mem_cons, and_assoc]

end Outline.Arena
end Clarion
