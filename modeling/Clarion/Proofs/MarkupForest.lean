import Clarion.Xml.Event

/-! Documents as forests. A forest tells its events in document order; the events of a text are
those of a forest as soon as every element that starts also ends. -/
namespace Clarion.Xml

/-- A piece of a document: an element with what stands inside it, an element that ends where it
starts, or a run of text. -/
inductive Node where
  | element (name attributes : List Char) (children : List Node)
  | empty (name attributes : List Char)
  | text (raw : List Char)

namespace Node

/-- The name and the attributes of an element. -/
def tag? : Node → Option (List Char × List Char)
  | .element name attributes _ => some (name, attributes)
  | .empty name attributes => some (name, attributes)
  | .text _ => none

/-- What stands right inside. -/
def children : Node → List Node
  | .element _ _ children => children
  | .empty _ _ => []
  | .text _ => []

mutual

/-- What is met from the start of a node to its end. -/
def events : Node → List Event
  | .element name attributes children =>
    .opening name attributes :: (eventsAll children ++ [.closing])
  | .empty name attributes => [.empty name attributes]
  | .text raw => [.text raw]

/-- What is met along a forest. -/
def eventsAll : List Node → List Event
  | [] => []
  | node :: rest => events node ++ eventsAll rest

end

end Node

/-! ### Depth -/

/-- How many elements are open after events, of those that were open and those that start; nothing
when an element ends that is not open. -/
def depthAfter : Nat → List Event → Option Nat
  | depth, [] => some depth
  | depth, .opening _ _ :: rest => depthAfter (depth + 1) rest
  | 0, .closing :: _ => none
  | depth + 1, .closing :: rest => depthAfter depth rest
  | depth, .empty _ _ :: rest => depthAfter depth rest
  | depth, .text _ :: rest => depthAfter depth rest

variable {depth last : Nat} {front back events : List Event}

theorem depthAfter_append :
    depthAfter depth (front ++ back) = (depthAfter depth front).bind (depthAfter · back) := by
  induction depth, front using depthAfter.induct <;> simp_all [depthAfter]

/-- Names are dropped only with an event that ends an element. -/
theorem depthAfter_readMarkup {openNames later : List (List Char)} {chars rest : List Char}
    (read : readMarkup openNames chars = some (events, later, rest)) :
    depthAfter openNames.length events = some later.length := by
  unfold readMarkup at read
  split at read
  · cases read
  · obtain ⟨_, -, same⟩ := Option.map_eq_some_iff.mp read
    cases same
    rfl
  · obtain ⟨_, -, same⟩ := Option.map_eq_some_iff.mp read
    cases same
    rfl
  · split at read
    · obtain ⟨-, same⟩ := Option.ite_none_right_eq_some.mp read
      cases same
      rfl
    · cases read
  · obtain ⟨_, -, same⟩ := Option.map_eq_some_iff.mp read
    dsimp only at same
    split at same
    · cases same
      rfl
    · cases same
      rfl

/-- The events of a text never end an element that is not open. -/
theorem depthAfter_eventsFrom (fuel : Nat) (openNames : List (List Char)) (chars : List Char) :
    ∃ last, depthAfter openNames.length (eventsFrom fuel openNames chars).1 = some last := by
  induction fuel generalizing openNames chars with
  | zero => exact ⟨_, rfl⟩
  | succ fuel ih =>
    rw [eventsFrom]
    generalize chars.dropWhile isSpace = chars
    dsimp only
    have untouched : ∀ raw : List Char, depthAfter openNames.length
        (if raw.isEmpty then [] else [Event.text raw]) = some openNames.length := by
      intro raw
      split <;> rfl
    split
    · exact ⟨_, untouched _⟩
    · split
      · exact ⟨_, untouched _⟩
      · rename_i found later rest read
        obtain ⟨last, rests⟩ := ih later rest
        refine ⟨last, ?_⟩
        rw [List.append_assoc, depthAfter_append, untouched, Option.bind_some, depthAfter_append,
          depthAfter_readMarkup read, Option.bind_some, rests]

theorem depthAfter_events (text : String) : ∃ last, depthAfter 0 (Xml.events text).1 = some last :=
  depthAfter_eventsFrom _ [] _

/-- The events of forests, each but the last before the end of the element around it. -/
def layers : List Node → List (List Node) → List Event
  | first, [] => Node.eventsAll first
  | first, next :: outer => Node.eventsAll first ++ .closing :: layers next outer

theorem layers_cons (node : Node) (first : List Node) (outer : List (List Node)) :
    layers (node :: first) outer = node.events ++ layers first outer := by
  cases outer with
  | nil => rfl
  | cons next outer => rw [layers, Node.eventsAll, List.append_assoc, layers]

/-- Events that close what is open run through a forest in each of the open elements. -/
theorem exists_layers (balanced : depthAfter depth events = some 0) :
    ∃ first outer, outer.length = depth ∧ events = layers first outer := by
  induction depth, events using depthAfter.induct with
  | case1 depth =>
    cases balanced
    exact ⟨[], [], rfl, rfl⟩
  | case2 depth name attributes rest ih =>
    obtain ⟨first, outer, deep, rfl⟩ := ih balanced
    obtain ⟨next, outer, rfl⟩ := List.exists_cons_of_length_eq_add_one deep
    refine ⟨.element name attributes first :: next, outer, Nat.succ_inj.mp deep, ?_⟩
    rw [layers_cons, Node.events, layers, List.cons_append, List.append_assoc, List.singleton_append]
  | case3 rest => cases balanced
  | case4 depth rest ih =>
    obtain ⟨first, outer, rfl, rfl⟩ := ih balanced
    exact ⟨[], first :: outer, rfl, rfl⟩
  | case5 depth name attributes rest ih =>
    obtain ⟨first, outer, deep, rfl⟩ := ih balanced
    refine ⟨.empty name attributes :: first, outer, deep, ?_⟩
    rw [layers_cons, Node.events, List.singleton_append]
  | case6 depth raw rest ih =>
    obtain ⟨first, outer, deep, rfl⟩ := ih balanced
    refine ⟨.text raw :: first, outer, deep, ?_⟩
    rw [layers_cons, Node.events, List.singleton_append]

/-- Events that end every element they start are those of a forest. -/
theorem exists_forest (balanced : depthAfter 0 events = some 0) :
    ∃ forest, events = Node.eventsAll forest := by
  obtain ⟨forest, outer, none, rfl⟩ := exists_layers balanced
  obtain rfl := List.length_eq_zero_iff.mp none
  exact ⟨forest, rfl⟩

end Clarion.Xml
