import Clarion.Proofs.LookAheadMarks
import Clarion.Proofs.MethodOwners
import Clarion.Proofs.ScopeStack

/-! The tokens that nodes are made for. Every node is made for one token: the one whose turn it is,
or one that a file or a view comes upon while it looks ahead. At its turn a token makes at most one
node of its own beside groups and the root of an undeclared class, and none if it is marked. So a
token is shown once unless two looks ahead pass over it, which do not heed the marks of each
other. -/
namespace Clarion.Outline

/-! ### One ordinary node beside groups -/

namespace Arena

variable {before middle after : Arena} {owner : NodeId} {own : NodeId → Prop}

/-- Every new node of the second arena is a group, or one of the given ones. -/
def AddsOnly (before after : Arena) (own : NodeId → Prop) : Prop :=
  ∀ id node, after.node? id = some node → before.nodes.size ≤ id → node.group = none → own id

theorem AddsOnly.same (size : after.nodes.size = before.nodes.size) : AddsOnly before after own :=
  fun _ _ found fresh _ => absurd (holds_of_node? found) (Nat.not_lt_of_le (size ▸ fresh))

theorem AddsOnly.one (size : after.nodes.size ≤ before.nodes.size + 1) :
    AddsOnly before after (· = before.nodes.size) :=
  fun _ _ found fresh _ =>
    Nat.le_antisymm (Nat.lt_succ_iff.mp (Nat.lt_of_lt_of_le (holds_of_node? found) size)) fresh

theorem AddsOnly.mono {wider : NodeId → Prop} (adds : AddsOnly before after own)
    (widens : ∀ id, own id → wider id) : AddsOnly before after wider :=
  fun id node found fresh ordinary => widens id (adds id node found fresh ordinary)

theorem AddsOnly.trans (first : AddsOnly before middle own) (grows : middle.Grows after)
    (second : AddsOnly middle after own) : AddsOnly before after own := by
  intro id node found fresh ordinary
  by_cases old : middle.Holds id
  · obtain ⟨earlier, foundEarlier⟩ := old.node?
    obtain ⟨later, foundLater, keeps⟩ := grows.kept foundEarlier
    cases foundLater.symm.trans found
    exact first id earlier foundEarlier fresh (keeps.group ▸ ordinary)
  · exact second id node found (Nat.le_of_not_lt old) ordinary

theorem ensureGroup_addsOnly (held : before.Holds owner) (group : Group) :
    AddsOnly before (before.ensureGroup owner group).1 own := by
  intro id node found fresh ordinary
  rcases ensureGroup_cases held found with old | ⟨-, above, rfl⟩
  · exact absurd old (Nat.not_lt_of_le fresh)
  · cases ordinary

end Arena

namespace State

variable {state : State} {tokens : Tokens} {index opener inner other stop : Nat} {token : Token}
  {id : NodeId}

/-- A declaration makes one node, after a group for it if there is none yet. -/
theorem Sound.files_addsOnly {after : State} (sound : state.Sound) (files : state.Files after) :
    Arena.AddsOnly state.arena after.arena (· + 1 = after.arena.nodes.size) := by
  have last (state : State) (parent : Option NodeId) (info : Info) :
      Arena.AddsOnly state.arena (state.addLeaf parent info).arena
        (· + 1 = (state.addLeaf parent info).arena.nodes.size) := by
    have size : (state.addLeaf parent info).arena.nodes.size = state.arena.nodes.size + 1 :=
      Arena.add_size ..
    refine (Arena.AddsOnly.one (Nat.le_of_eq size)).mono ?_
    rintro _ rfl
    exact size.symm
  cases files with
  | nothing => exact .same rfl
  | atRoot info => exact last _ _ _
  | below named info => exact last _ _ _
  | @inGroup owner named group info =>
    refine Arena.AddsOnly.trans ?_ (addLeaf_adds ..).grows (last _ _ _)
    exact Arena.ensureGroup_addsOnly (sound.names_holds named) group

/-! ### Nodes made ahead -/

/-- The structure at `opener` shows the token at the index in its look ahead. -/
def Surfaces (tokens : Tokens) (opener index : Nat) : Prop :=
  ∃ token, tokens[opener]? = some token ∧ token.kind = .structureWord ∧
    index ∈ blockIndices tokens opener ∧ showsAhead tokens token index

/-- The node is made for the token at the index while the structure at `opener` looks ahead. -/
def MadeAhead (tokens : Tokens) (opener index : Nat) (id : NodeId) : Prop :=
  ∃ token state, Dispatches tokens opener token state ∧ token.kind = .structureWord ∧
    index ∈ blockIndices tokens opener ∧
    (state.lookedTo tokens opener token index).1.arena.nodes.size ≤ id ∧
    id < (state.lookedTo tokens opener token (index + 1)).1.arena.nodes.size

/-- A walk makes a node between two tokens only if it shows the first. -/
theorem looked_shown (order : opener < index)
    (low : (state.lookedTo tokens opener token index).1.arena.nodes.size ≤ id)
    (high : id < (state.lookedTo tokens opener token (index + 1)).1.arena.nodes.size) :
    showsAhead tokens token index ∧
      id = (state.lookedTo tokens opener token index).1.arena.nodes.size := by
  have size := (lookedTo_looks tokens token state order).size
  split at size
  · rename_i shown
    rw [size] at high
    exact ⟨shown, Nat.le_antisymm (Nat.lt_succ_iff.mp high) low⟩
  · exact absurd high (Nat.not_lt_of_le (size ▸ low))

theorem MadeAhead.surfaces (made : MadeAhead tokens opener index id) :
    Surfaces tokens opener index := by
  obtain ⟨token, state, here, word, inside, low, high⟩ := made
  exact ⟨token, here.found, word, inside, (looked_shown (mem_blockIndices.mp inside).1 low high).1⟩

theorem Surfaces.exists_made (surfaces : Surfaces tokens opener index) :
    ∃ id, MadeAhead tokens opener index id := by
  obtain ⟨token, found, word, inside, shown⟩ := surfaces
  have here := opener_dispatches found word (looks_of_showsAhead shown)
  have size := (lookedTo_looks tokens token ((after tokens opener).reach tokens token)
    (mem_blockIndices.mp inside).1).size
  rw [if_pos shown] at size
  exact ⟨_, token, _, here, word, inside, Nat.le_refl _, size ▸ Nat.lt_succ_self _⟩

theorem Dispatches.same {again : Token} {other : State}
    (here : Dispatches tokens index token state) (there : Dispatches tokens index again other) :
    token = again ∧ state = other := by
  cases here.found.symm.trans there.found
  exact ⟨rfl, here.reached.trans there.reached.symm⟩

/-- A look ahead makes one node for a token. -/
theorem MadeAhead.node_unique {again : NodeId} (made : MadeAhead tokens opener index id)
    (madeAgain : MadeAhead tokens opener index again) : id = again := by
  obtain ⟨token, state, here, word, inside, low, high⟩ := made
  obtain ⟨_, _, there, -, -, lowAgain, highAgain⟩ := madeAgain
  obtain ⟨rfl, rfl⟩ := here.same there
  have order := (mem_blockIndices.mp inside).1
  exact (looked_shown order low high).2.trans (looked_shown order lowAgain highAgain).2.symm

/-- A look ahead makes a node for one token. -/
theorem MadeAhead.index_unique (made : MadeAhead tokens opener index id)
    (madeAgain : MadeAhead tokens opener other id) : index = other := by
  obtain ⟨token, state, here, -, -, low, high⟩ := made
  obtain ⟨_, _, there, -, -, lowAgain, highAgain⟩ := madeAgain
  obtain ⟨rfl, rfl⟩ := here.same there
  rcases Nat.lt_trichotomy index other with before | same | later
  · have grows := (lookedTo_grows tokens opener token state before).size
    exact absurd (Nat.lt_of_lt_of_le high grows) (Nat.not_lt_of_le lowAgain)
  · exact same
  · have grows := (lookedTo_grows tokens opener token state later).size
    exact absurd (Nat.lt_of_lt_of_le highAgain grows) (Nat.not_lt_of_le low)

/-- A node made ahead is born at the turn of the structure that looks ahead. -/
theorem MadeAhead.born (made : MadeAhead tokens opener index id) : BornAt tokens opener id := by
  obtain ⟨token, state, here, word, inside, low, high⟩ := made
  obtain ⟨start, stop⟩ := mem_blockIndices.mp inside
  have looks := looks_of_showsAhead (looked_shown start low high).1
  have settles := reach_settles tokens (after tokens opener) token
  rw [← here.reached] at settles
  constructor
  · have files := (structureMade_files tokens opener token state).adds.grows.size
    have walked := (lookedTo_grows tokens opener token state (Nat.zero_le index)).size
    rw [lookedTo_start tokens token state (Nat.zero_le _)] at walked
    exact settles.size ▸ Nat.le_trans files (Nat.le_trans walked low)
  · rw [here.walks word looks]
    exact Nat.lt_of_lt_of_le high (lookedTo_grows tokens opener token state stop).size

theorem MadeAhead.ordinary (made : MadeAhead tokens opener index id) :
    ∃ node, (finished tokens).node? id = some node ∧ node.group = none := by
  obtain ⟨token, state, here, word, inside, low, high⟩ := made
  obtain ⟨start, stop⟩ := mem_blockIndices.mp inside
  obtain ⟨shown, rfl⟩ := looked_shown start low high
  have bound := (List.getElem?_eq_some_iff.mp here.found).1
  obtain ⟨node, found, ordinary⟩ := (lookedTo_looks tokens token state start).ordinary shown
  have grows := grows_finished tokens bound
  rw [here.walks word (looks_of_showsAhead shown)] at grows
  obtain ⟨later, foundLater, keeps⟩ :=
    ((lookedTo_grows tokens opener token state stop).trans grows).kept found
  exact ⟨later, foundLater, keeps.group.trans ordinary⟩

/-- The root of an undeclared class is not made ahead. -/
theorem MadeAhead.not_collector (made : MadeAhead tokens opener index id) :
    ¬IsCollector tokens id := by
  rintro ⟨turn, className, founds⟩
  obtain rfl := made.born.unique founds.born
  obtain ⟨_, opens⟩ := founds.opens
  obtain ⟨token, _, here, isProcedure, -⟩ := methodAt?_eq_some_iff.mp opens
  obtain ⟨_, _, there, isStructure, -⟩ := made
  obtain ⟨rfl, rfl⟩ := here.same there
  cases isProcedure.symm.trans isStructure

/-- What a walk makes, it makes for some token that it comes to. -/
theorem exists_looked (fresh : (state.structureMade tokens index token).1.arena.nodes.size ≤ id)
    (held : (state.lookedTo tokens index token stop).1.arena.Holds id) :
    ∃ inner, index < inner ∧ inner < stop ∧
      (state.lookedTo tokens index token inner).1.arena.nodes.size ≤ id ∧
      id < (state.lookedTo tokens index token (inner + 1)).1.arena.nodes.size := by
  have inside {stop : Nat} (held : (state.lookedTo tokens index token stop).1.arena.Holds id) :
      index + 1 < stop := by
    by_contra early
    rw [lookedTo_start tokens token state (Nat.le_of_not_lt early)] at held
    exact absurd held (Nat.not_lt_of_le fresh)
  induction stop with
  | zero => exact absurd (inside held) (Nat.not_lt_zero _)
  | succ stop ih =>
    by_cases earlier : (state.lookedTo tokens index token stop).1.arena.Holds id
    · obtain ⟨inner, start, bound, made⟩ := ih earlier
      exact ⟨inner, start, Nat.lt_succ_of_lt bound, made⟩
    · exact ⟨stop, Nat.lt_of_succ_lt_succ (inside held), Nat.lt_succ_self _,
        Nat.le_of_not_lt earlier, held⟩

/-! ### The turn of a token -/

theorem furnish_addsOnly {node : NodeId} (held : state.arena.Holds node)
    (noFile : ¬token.reads "FILE") (noView : ¬token.reads "VIEW") (own : NodeId → Prop) :
    Arena.AddsOnly state.arena (state.furnish tokens index token node).arena own := by
  have grouped (group : Group) {state : State} (held : state.arena.Holds node) :
      Arena.AddsOnly state.arena (state.ensureGroup node group).1.arena own :=
    Arena.ensureGroup_addsOnly held group
  have grows := (ensureGroup_adds state node .properties).grows
  have recorded (label : Option String) (state : State) :
      (state.recordClass label node).arena = state.arena := by
    cases label <;> rfl
  unfold furnish
  dsimp only
  rw [if_neg noFile, if_neg noView]
  split
  · rw [recorded]
    exact (grouped .properties held).trans (ensureGroup_adds ..).grows
      (grouped .methods (grows.holds held))
  · split
    · rw [recorded]
      exact .same rfl
    · split
      · exact grouped .functions held
      · exact .same rfl

/-- Beside groups, a structure makes its own node and those that it looks ahead to. -/
theorem Dispatches.openStructure_addsOnly (here : Dispatches tokens index token state)
    (word : token.kind = .structureWord) :
    Arena.AddsOnly state.arena (state.openStructure tokens index token).arena fun id =>
      id = (state.structureMade tokens index token).2 ∨
        ∃ inner, MadeAhead tokens index inner id := by
  have files := here.sound.files_addsOnly (structureMade_files tokens index token state)
  have held := structureMade_holds tokens index token state
  have grows := (furnish_furnishes tokens index token (state.structureMade tokens index token).2
    (state.structureMade tokens index token).1).grows
  have size : (state.structureMade tokens index token).1.arena.nodes.size =
      (state.structureMade tokens index token).2 + 1 := by
    simp only [structureMade, add_id]
    exact Arena.add_size ..
  rw [openStructure_eq]
  dsimp only
  refine Arena.AddsOnly.trans (files.mono ?_) grows ?_
  · exact fun id last => .inl (Nat.succ.inj (last.trans size))
  · by_cases looks : token.reads "FILE" ∨ token.reads "VIEW"
    · -- Whatever a walk makes belongs to one of the tokens that it comes to.
      intro id node found fresh _
      rw [furnish_walks looks] at found
      obtain ⟨inner, start, stop, made⟩ := exists_looked fresh (Arena.holds_of_node? found)
      exact .inr ⟨inner, token, state, here, word, mem_blockIndices.mpr ⟨start, stop⟩, made⟩
    · rw [not_or] at looks
      exact furnish_addsOnly held looks.1 looks.2 _

theorem onMarker_size (token : Token) (state : State) :
    (state.onMarker token).arena.nodes.size ≤ state.arena.nodes.size + 1 := by
  unfold onMarker
  split
  · exact Nat.le_succ _
  · split
    · dsimp only
      split
      · exact Nat.le_succ _
      · rename_i scope _
        have size := Arena.add_size state.arena (some scope.node) (codeInfo token)
        split <;> exact size.le
    · exact Nat.le_succ _

/-- Beside groups, a token that opens no method makes at most one node of its own and those that it
looks ahead to. -/
theorem Dispatches.addsOnly (here : Dispatches tokens index token state)
    (plain : methodAt? tokens index = none) :
    ∃ own, Arena.AddsOnly state.arena (state.dispatch tokens index token).arena fun id =>
      id = own ∨ ∃ inner, MadeAhead tokens index inner id := by
  have acts := here.sound.acts here.found
  generalize state.dispatch tokens index token = after at acts
  have one (size : after.arena.nodes.size ≤ state.arena.nodes.size + 1) :
      ∃ own, Arena.AddsOnly state.arena after.arena fun id =>
        id = own ∨ ∃ inner, MadeAhead tokens index inner id :=
    ⟨_, (Arena.AddsOnly.one size).mono fun _ => .inl⟩
  cases acts with
  | files neutral filed =>
    have adds := here.sound.files_addsOnly filed
    exact ⟨after.arena.nodes.size - 1, adds.mono fun id last => .inl (Nat.eq_sub_of_add_eq last)⟩
  | block opens silent => exact one (Nat.le_succ _)
  | record opens word loud recorded => exact one (Nat.le_succ _)
  | declares opens word loud fresh => exact ⟨_, here.openStructure_addsOnly word⟩
  | globalBody word use =>
    have size := Arena.add_size (state.atRoot tokens).arena none
      (procedureInfo tokens index token (procedureName tokens index token) true)
    rw [atRoot_size] at size
    exact one size.le
  | enclosedBody word use => exact one (Arena.add_size ..).le
  | method word use =>
    have opens := methodAt?_eq_some_iff.mpr ⟨token, state, here, word, use⟩
    rw [plain] at opens
    cases opens
  | routine word =>
    have size := Arena.add_size (state.atRoutine tokens).arena
      ((state.atRoutine tokens).routineParent? tokens index)
      (routineInfo tokens index token (routineName tokens index token))
    rw [atRoutine, (shut_widens ..).size] at size
    refine one ?_
    rw [onRoutine_eq]
    dsimp only
    split <;> exact size.le
  | marker word => exact one (onMarker_size token state)
  | loopStop stops =>
    obtain ⟨_, same⟩ := onLoopTerminator_frame tokens index state
    rw [same] at one ⊢
    exact one (Nat.le_succ _)
  | ends word =>
    refine one ?_
    rcases onEnd_cases token state with ⟨_, _, _, same⟩ | ⟨_, _, same⟩ | ⟨_, _, _, _, same⟩
    · rw [same]
      exact Nat.le_succ _
    · rw [same]
      exact Nat.le_succ _
    · rw [same]
      exact (Arena.Widens.extendTo ..).size.le.trans (Nat.le_succ _)

/-! ### The token of a node -/

/-- The token that a node is made for: one that a look ahead comes to, else the one whose turn it
is. -/
def MadeFor (tokens : Tokens) (index : Nat) (id : NodeId) : Prop :=
  (∃ opener, MadeAhead tokens opener index id) ∨
    BornAt tokens index id ∧ ∀ inner, ¬MadeAhead tokens index inner id

theorem exists_madeFor (held : (finished tokens).Holds id) : ∃ index, MadeFor tokens index id := by
  have before : (after tokens tokens.length).arena.Holds id :=
    Nat.lt_of_lt_of_eq held (finish_size ..)
  obtain ⟨index, -, born⟩ := exists_born before
  by_cases ahead : ∃ inner, MadeAhead tokens index inner id
  · obtain ⟨inner, made⟩ := ahead
    exact ⟨inner, .inl ⟨index, made⟩⟩
  · exact ⟨index, .inr ⟨born, not_exists.mp ahead⟩⟩

theorem MadeFor.unique (made : MadeFor tokens index id) (madeAgain : MadeFor tokens other id) :
    index = other := by
  rcases made with ⟨opener, made⟩ | ⟨born, own⟩
  · rcases madeAgain with ⟨again, madeAgain⟩ | ⟨born, own⟩
    · obtain rfl := made.born.unique madeAgain.born
      exact made.index_unique madeAgain
    · obtain rfl := made.born.unique born
      exact absurd made (own index)
  · rcases madeAgain with ⟨again, madeAgain⟩ | ⟨bornAgain, -⟩
    · obtain rfl := madeAgain.born.unique born
      exact absurd madeAgain (own other)
    · exact born.unique bornAgain

/-- The node shows the token: it is made for it, and is neither a group nor the root of an
undeclared class. -/
structure Shows (tokens : Tokens) (index : Nat) (id : NodeId) : Prop where
  made : MadeFor tokens index id
  ordinary : ∃ node, (finished tokens).node? id = some node ∧ node.group = none
  noCollector : ¬IsCollector tokens id

/-- Every look ahead that surfaces a token shows it. -/
theorem Surfaces.exists_shows (surfaces : Surfaces tokens opener index) :
    ∃ id, BornAt tokens opener id ∧ Shows tokens index id := by
  obtain ⟨id, made⟩ := surfaces.exists_made
  exact ⟨id, made.born, .inl ⟨opener, made⟩, made.ordinary, made.not_collector⟩

/-- When the turn of a surfaced token comes, it makes nothing. -/
theorem Surfaces.not_born (surfaces : Surfaces tokens opener index) : ¬BornAt tokens index id := by
  obtain ⟨token, found, word, inside, shown⟩ := surfaces
  obtain ⟨start, stop⟩ := mem_blockIndices.mp inside
  have looks := looks_of_showsAhead shown
  have here := opener_dispatches found word looks
  have marked : (after tokens (opener + 1)).Marked index := by
    rw [here.walks word looks]
    generalize (after tokens opener).reach tokens token = state
    have marked := (lookedTo_looks tokens token state start).marked shown
    have walked := lookedTo_notes opener found word state stop
    exact marked.notes (walked.trans (.same rfl rfl)) (Nat.ne_of_gt start)
  have nothing := (marked.lasts start (Nat.le_refl index)).makes_nothing
  exact fun born => absurd born.2 (Nat.not_lt_of_le (nothing ▸ born.1))

/-- At its turn a token makes at most one node that shows it, beside those that it looks ahead
to. -/
theorem exists_own (tokens : Tokens) (index : Nat) : ∃ own, ∀ id, BornAt tokens index id →
    (∃ node, (finished tokens).node? id = some node ∧ node.group = none) →
    ¬IsCollector tokens id → id = own ∨ ∃ inner, MadeAhead tokens index inner id := by
  cases opens : methodAt? tokens index with
  | some parts =>
    obtain ⟨owner, methods, last, implements⟩ := exists_implements opens
    refine ⟨last, fun id born ⟨node, found, ordinary⟩ noCollector => .inl ?_⟩
    rcases implements.others id node born found with same | ⟨rfl, -⟩ | ⟨rfl, founds⟩
    · exact same
    · cases (implements.isGroup.links found).2.1.symm.trans ordinary
    · exact absurd ⟨_, _, founds⟩ noCollector
  | none =>
    by_cases alive : ∃ id, BornAt tokens index id
    · obtain ⟨first, bornFirst⟩ := alive
      obtain ⟨token, state, here⟩ := bornFirst.dispatches
      obtain ⟨own, adds⟩ := here.addsOnly opens
      refine ⟨own, fun id born ⟨node, found, ordinary⟩ _ => ?_⟩
      obtain ⟨made, foundMade⟩ := Arena.Holds.node? born.2
      have bound := (List.getElem?_eq_some_iff.mp here.found).1
      obtain ⟨later, foundLater, keeps⟩ := (grows_finished tokens bound).kept foundMade
      cases foundLater.symm.trans found
      rw [here.after_succ] at foundMade
      exact adds id made foundMade (here.size ▸ born.1) (keeps.group.symm.trans ordinary)
    · exact ⟨0, fun id born => absurd ⟨id, born⟩ alive⟩

/-- Every node is made for exactly one token, and a token is shown by at most one node exactly when
at most one look ahead surfaces it. -/
theorem shown_once_iff (tokens : Tokens) :
    (∀ id, (finished tokens).Holds id → ∃ index, MadeFor tokens index id ∧
      ∀ other, MadeFor tokens other id → other = index) ∧
    ∀ index, (∀ id again, Shows tokens index id → Shows tokens index again → id = again) ↔
      ∀ opener other, Surfaces tokens opener index → Surfaces tokens other index →
        opener = other := by
  refine ⟨fun id held => ?_, fun index => ⟨fun once opener other first second => ?_, ?_⟩⟩
  · obtain ⟨index, made⟩ := exists_madeFor held
    exact ⟨index, made, fun _ again => again.unique made⟩
  · obtain ⟨id, born, shows⟩ := first.exists_shows
    obtain ⟨again, bornAgain, showsAgain⟩ := second.exists_shows
    obtain rfl := once id again shows showsAgain
    exact born.unique bornAgain
  · -- Two nodes made ahead come from the same look ahead; one made ahead leaves a mark, so that the
    -- turn of the token makes none; and the turn itself makes one at most.
    intro single id again shows showsAgain
    rcases shows.made with ⟨opener, made⟩ | ⟨born, own⟩
    · rcases showsAgain.made with ⟨other, madeAgain⟩ | ⟨bornAgain, -⟩
      · obtain rfl := single opener other made.surfaces madeAgain.surfaces
        exact made.node_unique madeAgain
      · exact absurd bornAgain made.surfaces.not_born
    · rcases showsAgain.made with ⟨other, madeAgain⟩ | ⟨bornAgain, ownAgain⟩
      · exact absurd born madeAgain.surfaces.not_born
      · obtain ⟨only, isOnly⟩ := exists_own tokens index
        have first := isOnly id born shows.ordinary shows.noCollector
        have second := isOnly again bornAgain showsAgain.ordinary showsAgain.noCollector
        exact (first.resolve_right (not_exists.mpr own)).trans
          (second.resolve_right (not_exists.mpr ownAgain)).symm

/-- Two files, neither of which is closed, and a key. -/
def nestedFiles : Tokens :=
  [{ kind := .label, value := "A", line := 0, start := 0 },
    { kind := .structureWord, value := "FILE", line := 0, start := 8 },
    { kind := .label, value := "B", line := 1, start := 0 },
    { kind := .structureWord, value := "FILE", line := 1, start := 8 },
    { kind := .label, value := "K", line := 2, start := 0 },
    { kind := .keyword, value := "KEY", line := 2, start := 8 }]

theorem key_of_nested_files_shown_twice :
    ¬∀ index id again, Shows nestedFiles index id → Shows nestedFiles index again → id = again := by
  intro once
  have outer : Surfaces nestedFiles 1 5 := ⟨_, rfl, rfl, by decide +kernel, by decide +kernel⟩
  have inner : Surfaces nestedFiles 3 5 := ⟨_, rfl, rfl, by decide +kernel, by decide +kernel⟩
  obtain ⟨id, born, shows⟩ := outer.exists_shows
  obtain ⟨again, bornAgain, showsAgain⟩ := inner.exists_shows
  obtain rfl := once 5 id again shows showsAgain
  cases born.unique bornAgain

end State
end Clarion.Outline
