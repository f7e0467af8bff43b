import Clarion.Outline.Symbol
import Mathlib.Data.List.Forall2

/-! The traversal of an outline, and the outline for editors. At any moment of a traversal the trees
that wait, taken one after the other, are what it still visits; so the symbols come in the order of
their places, each place once, and under the names that lead to it. The symbols for editors come in
the same order. -/
namespace Clarion.Outline

namespace Traversal

/-- Asked for symbol after symbol, the traversal visits the items in turn, and then nothing. -/
inductive Gives : Traversal → List (Symbol × List String) → Prop
  | nothing {traversal : Traversal} (ended : traversal.next? = none) : Gives traversal []
  | visit {traversal later : Traversal} {item : Symbol × List String}
    {items : List (Symbol × List String)} (first : traversal.next? = some (item, later))
    (rest : Gives later items) : Gives traversal (item :: items)

variable {traversal : Traversal} {items others : List (Symbol × List String)}

theorem Gives.unique (gives : Gives traversal items) (again : Gives traversal others) :
    items = others := by
  induction gives generalizing others with
  | nothing ended =>
    cases again with
    | nothing => rfl
    | visit first => cases ended.symm.trans first
  | visit first rest ih =>
    cases again with
    | nothing ended => cases ended.symm.trans first
    | visit same others =>
      cases first.symm.trans same
      rw [ih others]

theorem gives_visits (traversal : Traversal) : Gives traversal traversal.visits := by
  induction traversal using visits.induct with
  | case1 traversal ended =>
    rw [visits, ended]
    exact .nothing ended
  | case2 traversal item later first ih =>
    rw [visits, first]
    exact .visit first ih

mutual

/-- A waiting tree is visited from top to bottom before what waits behind it. -/
theorem gives_preorder {later : Traversal} {items : List (Symbol × List String)}
    (gives : Gives later items) (path : List String) :
    ∀ symbol, Gives ((symbol, path) :: later) (symbol.preorder path ++ items)
  | ⟨info, children⟩ => by
    rw [Symbol.preorder, List.cons_append]
    refine .visit (next?_cons info children path later) ?_
    exact gives_preorderAll gives (path ++ [info.name]) children

/-- Waiting trees under the same names are visited from the first to the last. -/
theorem gives_preorderAll {later : Traversal} {items : List (Symbol × List String)}
    (gives : Gives later items) (path : List String) : ∀ symbols,
    Gives (symbols.map (fun symbol => (symbol, path)) ++ later)
      (Symbol.preorderAll path symbols ++ items)
  | [] => gives
  | symbol :: rest => by
    rw [Symbol.preorderAll, List.append_assoc, List.map_cons, List.cons_append]
    exact gives_preorder (gives_preorderAll gives path rest) path symbol

end

/-- Whatever waits, a traversal visits the waiting trees one after the other, and ends. -/
theorem gives_iff (traversal : Traversal) : Gives traversal items ↔
    items = traversal.flatMap fun waiting => waiting.1.preorder waiting.2 := by
  have gives : Gives traversal (traversal.flatMap fun waiting => waiting.1.preorder waiting.2) := by
    induction traversal with
    | nil => exact .nothing rfl
    | cons waiting rest ih => exact gives_preorder ih waiting.2 waiting.1
  exact ⟨fun others => others.unique gives, fun same => same ▸ gives⟩

theorem flatMap_start (symbols : List Symbol) :
    (start symbols).flatMap (fun waiting => waiting.1.preorder waiting.2) =
      Symbol.preorderAll [] symbols := by
  induction symbols with
  | nil => rfl
  | cons symbol rest ih =>
    rw [Symbol.preorderAll, ← ih]
    rfl

end Traversal

namespace Symbol

theorem visited_eq (symbols : List Symbol) : visited symbols = preorderAll [] symbols := by
  rw [← Traversal.flatMap_start, ← Traversal.gives_iff]
  exact Traversal.gives_visits _

/-! ### Places -/

/-- The symbol at a place in a tree with the names above it; `path` are those above the tree. A
place tells level by level which child to go to. -/
def at? (path : List String) : Symbol → List Nat → Option (Symbol × List String)
  | symbol, [] => some (symbol, path)
  | symbol, index :: deeper =>
    symbol.children[index]?.bind (at? (path ++ [symbol.info.name]) · deeper)

/-- The symbol at a place in a forest with the names above it. -/
def atAll? (path : List String) (symbols : List Symbol) : List Nat → Option (Symbol × List String)
  | [] => none
  | index :: deeper => symbols[index]?.bind (at? path · deeper)

mutual

/-- The places in a tree from top to bottom. -/
def places : Symbol → List (List Nat)
  | ⟨_, children⟩ => [] :: placesFrom 0 children

/-- The places in a forest from top to bottom, where the first tree has the index. -/
def placesFrom (index : Nat) : List Symbol → List (List Nat)
  | [] => []
  | symbol :: rest => (places symbol).map (index :: ·) ++ placesFrom (index + 1) rest

end

/-- A place in a forest is the index of a tree and a place in it. -/
theorem mem_placesFrom {index : Nat} {symbols : List Symbol} {place : List Nat} :
    place ∈ placesFrom index symbols ↔ ∃ offset deeper, place = (index + offset) :: deeper ∧
      ∃ symbol, symbols[offset]? = some symbol ∧ deeper ∈ symbol.places := by
  induction symbols generalizing index with
  | nil => simp [placesFrom]
  | cons symbol rest ih =>
    rw [placesFrom, List.mem_append, List.mem_map, ih]
    constructor
    · rintro (⟨deeper, member, rfl⟩ | ⟨offset, deeper, rfl, found⟩)
      · exact ⟨0, deeper, rfl, symbol, rfl, member⟩
      · exact ⟨offset + 1, deeper, by rw [Nat.add_assoc, Nat.add_comm 1], found⟩
    · rintro ⟨offset, deeper, rfl, found⟩
      cases offset with
      | zero =>
        obtain ⟨_, same, member⟩ := found
        cases same
        exact .inl ⟨deeper, member, rfl⟩
      | succ offset => exact .inr ⟨offset, deeper, by rw [Nat.add_assoc, Nat.add_comm 1], found⟩

theorem cons_mem_placesFrom {symbols : List Symbol} {index : Nat} {deeper : List Nat} :
    index :: deeper ∈ placesFrom 0 symbols ↔
      ∃ symbol, symbols[index]? = some symbol ∧ deeper ∈ symbol.places := by
  rw [mem_placesFrom]
  constructor
  · rintro ⟨offset, lower, same, found⟩
    rw [Nat.zero_add] at same
    cases same
    exact found
  · intro found
    exact ⟨index, deeper, by rw [Nat.zero_add], found⟩

theorem mem_places (symbol : Symbol) (place : List Nat) (path : List String) :
    place ∈ symbol.places ↔ (symbol.at? path place).isSome := by
  induction place generalizing symbol path with
  | nil =>
    cases symbol
    simp [places, at?]
  | cons index deeper ih =>
    obtain ⟨info, children⟩ := symbol
    simp only [places, List.mem_cons, reduceCtorEq, false_or, cons_mem_placesFrom, at?,
      Option.isSome_bind, Option.any_eq_true, ih _ (path ++ [info.name])]

theorem mem_placesFrom_zero (symbols : List Symbol) (place : List Nat) (path : List String) :
    place ∈ placesFrom 0 symbols ↔ (atAll? path symbols place).isSome := by
  cases place with
  | nil => simp [mem_placesFrom, atAll?]
  | cons index deeper =>
    simp only [cons_mem_placesFrom, atAll?, Option.isSome_bind, Option.any_eq_true,
      mem_places _ _ path]

mutual

/-- The symbols at the places of a tree are those from top to bottom. -/
theorem map_at_places (path : List String) :
    ∀ symbol : Symbol, symbol.places.map (symbol.at? path) = (symbol.preorder path).map some
  | ⟨info, children⟩ => by
    have below := map_atAll_placesFrom (path ++ [info.name]) [] children
    rw [places, preorder, List.map_cons, List.map_cons, ← below]
    refine congrArg _ (List.map_congr_left fun place member => ?_)
    obtain ⟨offset, deeper, rfl, -⟩ := mem_placesFrom.mp member
    rfl

/-- The symbols at the places in the rest of a forest are those of its trees in turn. -/
theorem map_atAll_placesFrom (path : List String) (front : List Symbol) :
    ∀ rest, (placesFrom front.length rest).map (atAll? path (front ++ rest)) =
      (preorderAll path rest).map some
  | [] => rfl
  | symbol :: rest => by
    have first := map_at_places path symbol
    have later := map_atAll_placesFrom path (front ++ [symbol]) rest
    rw [List.length_append, List.length_singleton, List.append_assoc, List.singleton_append] at later
    rw [placesFrom, preorderAll, List.map_append, List.map_append, later, ← first, List.map_map]
    refine congrArg (· ++ _) (List.map_congr_left fun deeper _ => ?_)
    simp [atAll?]

end

mutual

/-- From top to bottom the places of a tree go up in the order of lists. -/
theorem places_ascend : ∀ symbol : Symbol, symbol.places.Pairwise (· < ·)
  | ⟨_, children⟩ => by
    refine List.pairwise_cons.mpr ⟨fun place member => ?_, placesFrom_ascend 0 children⟩
    obtain ⟨offset, deeper, rfl, -⟩ := mem_placesFrom.mp member
    exact List.nil_lt_cons _ _

theorem placesFrom_ascend (index : Nat) :
    ∀ symbols : List Symbol, (placesFrom index symbols).Pairwise (· < ·)
  | [] => .nil
  | symbol :: rest => by
    rw [placesFrom, List.pairwise_append, List.pairwise_map]
    refine ⟨(places_ascend symbol).imp fun before => ?_, placesFrom_ascend (index + 1) rest, ?_⟩
    · exact List.cons_lt_cons_iff.mpr (.inr ⟨rfl, before⟩)
    · intro first inFirst second inRest
      obtain ⟨deeper, -, rfl⟩ := List.mem_map.mp inFirst
      obtain ⟨offset, lower, rfl, -⟩ := mem_placesFrom.mp inRest
      exact List.cons_lt_cons_iff.mpr (.inl (by omega))

end

/-! ### Editors -/

theorem allToEditor_eq (symbols : List Symbol) : allToEditor symbols = symbols.map toEditor := by
  induction symbols with
  | nil => rfl
  | cons symbol rest ih => rw [allToEditor, ih, List.map_cons]

end Symbol

namespace EditorSymbol

mutual

/-- The symbols of a tree from top to bottom. -/
def preorder : EditorSymbol → List EditorSymbol
  | ⟨name, detail, code, range, selection, children⟩ =>
    ⟨name, detail, code, range, selection, children⟩ :: preorderBelow children

/-- The symbols of the children, if there are any. -/
def preorderBelow : Option (List EditorSymbol) → List EditorSymbol
  | none => []
  | some children => preorderAll children

/-- The symbols of a forest from top to bottom. -/
def preorderAll : List EditorSymbol → List EditorSymbol
  | [] => []
  | symbol :: rest => preorder symbol ++ preorderAll rest

end

theorem preorder_eq (symbol : EditorSymbol) :
    symbol.preorder = symbol :: preorderAll (symbol.children.getD []) := by
  obtain ⟨_, _, _, _, _, children⟩ := symbol
  cases children <;> rfl

end EditorSymbol

namespace Symbol

/-- What the symbol for editors tells, and when a detail or children are absent. -/
structure Shows (symbol : Symbol) (shown : EditorSymbol) : Prop where
  name : shown.name = symbol.info.name
  range : shown.range = symbol.info.range
  selection : shown.selection = symbol.info.selection
  code : shown.code = symbol.info.kind.editorCode
  detail : shown.detail.getD "" = symbol.info.detail
  detail_absent : shown.detail = none ↔ symbol.info.detail = ""
  children : shown.children.getD [] = symbol.children.map toEditor
  children_absent : shown.children = none ↔ symbol.children = []

theorem shows_toEditor (symbol : Symbol) : symbol.Shows symbol.toEditor := by
  obtain ⟨info, children⟩ := symbol
  refine ⟨rfl, rfl, rfl, rfl, ?_, ?_, ?_, ?_⟩
  · simp only [toEditor]
    split <;> simp_all
  · simp [toEditor]
  · simp only [toEditor, allToEditor_eq]
    split <;> simp_all
  · simp [toEditor, allToEditor_eq]

mutual

theorem preorder_toEditor (path : List String) : ∀ symbol : Symbol,
    symbol.toEditor.preorder = (symbol.preorder path).map fun item => item.1.toEditor
  | ⟨info, children⟩ => by
    rw [EditorSymbol.preorder_eq, preorder, List.map_cons, (shows_toEditor _).children,
      ← allToEditor_eq, preorderAll_toEditor (path ++ [info.name]) children]

theorem preorderAll_toEditor (path : List String) : ∀ symbols : List Symbol,
    EditorSymbol.preorderAll (allToEditor symbols) =
      (preorderAll path symbols).map fun item => item.1.toEditor
  | [] => rfl
  | symbol :: rest => by
    rw [allToEditor, EditorSymbol.preorderAll, preorderAll, List.map_append,
      preorder_toEditor path symbol, preorderAll_toEditor path rest]

end

/-- The traversal of a forest ends, and visits its symbols from top to bottom: along the places of
the forest in their order, at each place once, under the names that lead there. The symbols for
editors stand in the same order and show the same; an empty detail is absent, and so are children
where there are none. -/
theorem traversal_lists_forest (symbols : List Symbol) :
    (∀ items, (Traversal.start symbols).Gives items ↔ items = preorderAll [] symbols) ∧
    visited symbols = preorderAll [] symbols ∧
    (∃ places : List (List Nat), places.Pairwise (· < ·) ∧
      (∀ place, place ∈ places ↔ (atAll? [] symbols place).isSome) ∧
      places.map (atAll? [] symbols) = (visited symbols).map some) ∧
    EditorSymbol.preorderAll (allToEditor symbols) =
      (visited symbols).map (fun item => item.1.toEditor) ∧
    List.Forall₂ (fun item shown => item.1.Shows shown) (visited symbols)
      (EditorSymbol.preorderAll (allToEditor symbols)) := by
  rw [visited_eq, preorderAll_toEditor []]
  refine ⟨fun items => ?_, rfl, ⟨placesFrom 0 symbols, placesFrom_ascend 0 symbols, ?_, ?_⟩, rfl, ?_⟩
  · rw [Traversal.gives_iff, Traversal.flatMap_start]
  · intro place
    exact mem_placesFrom_zero symbols place []
  · exact map_atAll_placesFrom [] [] symbols
  · exact List.forall₂_map_right_iff.mpr (List.forall₂_same.mpr fun item _ => shows_toEditor item.1)

example (outer inner last : Info) : visited [⟨outer, [⟨inner, []⟩]⟩, ⟨last, []⟩] =
    [(⟨outer, [⟨inner, []⟩]⟩, []), (⟨inner, []⟩, [outer.name]), (⟨last, []⟩, [])] := by
  rw [visited_eq]
  rfl

end Symbol
end Clarion.Outline
