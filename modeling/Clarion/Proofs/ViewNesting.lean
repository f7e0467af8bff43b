import Clarion.Proofs.DealtWith

/-! What a look through a view builds. Its open joins are the blocks that the matching of the whole
document has open inside the view, so that every join and every projected field list lands under the
innermost join around it, and the ends that the look takes for itself are those of the joins. The end
of the view is left to the pass, unless the look of an earlier file or view has dealt with it. -/
namespace Clarion.Outline.State

variable {tokens : Tokens} {index closer inner stop : Nat} {token : Token} {view : NodeId}
  {state before : State} {joins : List NodeId}

/-! ### The look through a view -/

/-- The look through the view at `index`, when it comes to the token at `stop`. -/
def viewedTo (tokens : Tokens) (index : Nat) (view : NodeId) (state : State) (stop : Nat) :
    State × List NodeId :=
  (List.range' (index + 1) (stop - (index + 1))).foldl (viewStep tokens view) (state, [])

theorem viewedTo_start (tokens : Tokens) (index : Nat) (view : NodeId) (state : State) :
    viewedTo tokens index view state (index + 1) = (state, []) := by
  simp [viewedTo]

theorem viewedTo_succ (view : NodeId) (state : State) (after : index < stop) :
    viewedTo tokens index view state (stop + 1) =
      viewStep tokens view (viewedTo tokens index view state stop) stop := by
  rw [viewedTo, range'_next after, List.foldl_append]
  rfl

/-- The node that the look through the view at `index` makes for a token, when there are `size`
nodes before: one for each token that is shown, in the order of the source. -/
def viewNode (tokens : Tokens) (index size inner : Nat) : NodeId :=
  size + (List.range' (index + 1) (inner - (index + 1))).countP (shownAt tokens)

theorem viewNode_start (tokens : Tokens) (index size : Nat) :
    viewNode tokens index size (index + 1) = size := by
  simp [viewNode]

theorem viewNode_succ (size : Nat) (after : index < stop) :
    viewNode tokens index size (stop + 1) =
      viewNode tokens index size stop + if shownAt tokens stop then 1 else 0 := by
  rw [viewNode, range'_next after, List.countP_append, List.countP_singleton, ← Nat.add_assoc]
  rfl

theorem viewNode_mono (size : Nat) (after : index < inner) (order : inner ≤ stop) :
    viewNode tokens index size inner ≤ viewNode tokens index size stop := by
  induction order with
  | refl => exact Nat.le_refl _
  | @step stop order ih =>
    rw [viewNode_succ size (Nat.lt_of_lt_of_le after order)]
    exact Nat.le_trans ih (Nat.le_add_right _ _)

theorem viewNode_lt (size : Nat) (after : index < inner) (before : inner < stop)
    (shown : shownAt tokens inner) :
    viewNode tokens index size inner < viewNode tokens index size stop := by
  have next : viewNode tokens index size (inner + 1) ≤ viewNode tokens index size stop :=
    viewNode_mono size (Nat.lt_succ_of_lt after) before
  rw [viewNode_succ size after, if_pos shown] at next
  exact next

/-- The node of the innermost open join, or of the view when none is open. -/
def viewParent (tokens : Tokens) (index : Nat) (view : NodeId) (size inner : Nat) : NodeId :=
  ((tokens.openedSince index inner).map (viewNode tokens index size)).head?.getD view

/-- The tokens shown before `stop` that have the node as their parent. -/
def viewMembers (tokens : Tokens) (index : Nat) (view : NodeId) (size stop : Nat) (id : NodeId) :
    List Nat :=
  (List.range' (index + 1) (stop - (index + 1))).filter fun inner =>
    shownAt tokens inner && viewParent tokens index view size inner == id

theorem viewMembers_succ (view : NodeId) (size : Nat) (id : NodeId) (after : index < stop) :
    viewMembers tokens index view size (stop + 1) id =
      viewMembers tokens index view size stop id ++
        if shownAt tokens stop ∧ viewParent tokens index view size stop = id then [stop] else [] := by
  simp only [viewMembers, range'_next after, List.filter_append, List.filter_cons, List.filter_nil,
    Bool.and_eq_true, beq_iff_eq]

theorem viewMembers_sorted (tokens : Tokens) (index : Nat) (view : NodeId) (size stop : Nat)
    (id : NodeId) : (viewMembers tokens index view size stop id).Pairwise (· < ·) :=
  .filter _ (List.pairwise_lt_range' 1)

/-- What the look through the view at `index` has done when it comes to the token at `stop`. -/
structure Viewed (tokens : Tokens) (index : Nat) (view : NodeId) (before : State) (stop : Nat)
    (walk : State × List NodeId) : Prop where
  joins : walk.2 =
    (tokens.openedSince index stop).map (viewNode tokens index before.arena.nodes.size)
  size : walk.1.arena.nodes.size = viewNode tokens index before.arena.nodes.size stop
  made : ∀ inner token, index < inner → inner < stop → tokens[inner]? = some token →
    shownAt tokens inner → ∃ children,
      walk.1.arena.node? (viewNode tokens index before.arena.nodes.size inner) =
        some { info := viewInfo tokens inner token, children
               parent := some (viewParent tokens index view before.arena.nodes.size inner) }
  children : ∀ id, walk.1.arena.childrenOf id = before.arena.childrenOf id ++
    (viewMembers tokens index view before.arena.nodes.size stop id).map
      (viewNode tokens index before.arena.nodes.size)
  handled : ∀ inner, inner ∈ walk.1.handled ↔ inner ∈ before.handled ∨
    (index < inner ∧ inner < stop) ∧ (shownAt tokens inner ∨ ClosesJoin tokens index inner)

namespace Viewed

variable {walk : State × List NodeId}

theorem start (tokens : Tokens) (index : Nat) (view : NodeId) (before : State) :
    Viewed tokens index view before (index + 1) (before, []) where
  joins := by simp [Tokens.openedSince_start]
  size := (viewNode_start ..).symm
  made inner _ after early := absurd after (Nat.not_lt_of_le (Nat.le_of_lt_succ early))
  children id := by simp [viewMembers]
  handled inner := by
    refine ⟨.inl, ?_⟩
    rintro (old | ⟨⟨after, early⟩, -⟩)
    · exact old
    · exact absurd after (Nat.not_lt_of_le (Nat.le_of_lt_succ early))

private theorem handled_next {next : State × List NodeId}
    (viewed : Viewed tokens index view before stop walk) (after : index < stop)
    (marks : ∀ inner, inner ∈ next.1.handled ↔ inner ∈ walk.1.handled ∨
      inner = stop ∧ (shownAt tokens inner ∨ ClosesJoin tokens index inner)) (inner : Nat) :
    inner ∈ next.1.handled ↔ inner ∈ before.handled ∨
      (index < inner ∧ inner < stop + 1) ∧ (shownAt tokens inner ∨ ClosesJoin tokens index inner) := by
  rw [marks, viewed.handled, ← passed_succ after, or_and_right, or_assoc]

/-- A token that is not shown makes no node. -/
theorem hides {next : State × List NodeId} (viewed : Viewed tokens index view before stop walk)
    (after : index < stop) (hidden : shownAt tokens stop = false)
    (same : next.1.arena = walk.1.arena)
    (joins : next.2 =
      (tokens.openedSince index (stop + 1)).map (viewNode tokens index before.arena.nodes.size))
    (marks : ∀ inner, inner ∈ next.1.handled ↔
      inner ∈ walk.1.handled ∨ inner = stop ∧ ClosesJoin tokens index inner) :
    Viewed tokens index view before (stop + 1) next where
  joins := joins
  size := by simp [same, viewed.size, viewNode_succ _ after, hidden]
  made inner token later early found shown := by
    rcases Nat.lt_succ_iff_lt_or_eq.mp early with early | rfl
    · exact same ▸ viewed.made inner token later early found shown
    · simp [hidden] at shown
  children id := by
    rw [same, viewed.children, viewMembers_succ _ _ _ after, if_neg (by simp [hidden]),
      List.append_nil]
  handled := by
    refine viewed.handled_next after fun inner => (marks inner).trans (or_congr_right ?_)
    refine and_congr_right fun same => ?_
    simp [same, hidden]

/-- A token that is shown becomes the last child of its parent. -/
theorem shows {next : State × List NodeId} (viewed : Viewed tokens index view before stop walk)
    (after : index < stop) (found : tokens[stop]? = some token) (shown : shownAt tokens stop)
    (ready : walk.1.arena.Holds (viewParent tokens index view before.arena.nodes.size stop))
    (adds : next.1.arena = (walk.1.arena.add
      (some (viewParent tokens index view before.arena.nodes.size stop))
      (viewInfo tokens stop token)).1)
    (joins : next.2 =
      (tokens.openedSince index (stop + 1)).map (viewNode tokens index before.arena.nodes.size))
    (marks : next.1.handled = stop :: walk.1.handled) :
    Viewed tokens index view before (stop + 1) next where
  joins := joins
  size := by simp [adds, viewed.size, viewNode_succ _ after, shown]
  made inner other later early foundOther shownOther := by
    rw [adds]
    rcases Nat.lt_succ_iff_lt_or_eq.mp early with early | rfl
    · obtain ⟨children, made⟩ := viewed.made inner other later early foundOther shownOther
      rw [Arena.add, Arena.push_node?_old made, Arena.withChild]
      split
      · exact ⟨_, rfl⟩
      · exact ⟨_, rfl⟩
    · cases found.symm.trans foundOther
      rw [← viewed.size]
      exact ⟨[], Arena.push_node?_new ready.ready⟩
  children id := by
    rw [adds, Arena.childrenOf_add ready, viewed.children, viewMembers_succ _ _ _ after,
      List.map_append, List.append_assoc, viewed.size]
    simp only [shown, true_and]
    split <;> rfl
  handled := by
    refine viewed.handled_next after fun inner => ?_
    rw [marks, List.mem_cons, or_comm]
    refine or_congr_right ⟨fun same => ⟨same, .inl (same ▸ shown)⟩, And.left⟩

/-- The innermost open join, or the view, is a node. -/
theorem parent_holds (viewed : Viewed tokens index view before stop walk)
    (block : ViewBlock tokens index closer) (held : before.arena.Holds view)
    (inside : stop ∈ blockIndices tokens index) :
    walk.1.arena.Holds (viewParent tokens index view before.arena.nodes.size stop) := by
  obtain ⟨after, bound⟩ := mem_blockIndices.mp inside
  rw [Arena.Holds, viewed.size, viewParent]
  cases since : tokens.openedSince index stop with
  | nil => exact Nat.lt_of_lt_of_le held (Nat.le_add_right _ _)
  | cons join rest =>
    obtain ⟨isJoin, later, early⟩ :=
      block.join_of_mem (since ▸ List.mem_cons_self) (Nat.le_of_lt bound)
    exact viewNode_lt _ later early (by simp [shownAt, isJoin])

/-- Every token of the block takes the look one step on. -/
theorem step (viewed : Viewed tokens index view before stop walk)
    (block : ViewBlock tokens index closer) (held : before.arena.Holds view)
    (inside : stop ∈ blockIndices tokens index) :
    Viewed tokens index view before (stop + 1) (viewStep tokens view walk stop) := by
  have after := (mem_blockIndices.mp inside).1
  obtain ⟨state, joins⟩ := walk
  obtain rfl : joins = _ := viewed.joins
  cases shown : shownAt tokens stop with
  | true =>
    obtain ⟨token, found⟩ := token_of_shown shown
    rw [viewStep_shown found shown]
    refine viewed.shows after found shown (viewed.parent_holds block held inside) rfl ?_ rfl
    rw [block.openedSince_shown inside shown, viewed.size]
    split <;> rfl
  | false =>
    by_cases ends : tokens.endsAt stop
    · have closes := block.closesJoin_iff inside ends
      have later : tokens.openedSince index (stop + 1) = (tokens.openedSince index stop).tail :=
        Tokens.openedSince_end ends
      rw [viewStep_end shown ends]
      cases since : tokens.openedSince index stop with
      | nil =>
        rw [since] at closes later
        refine viewed.hides after shown rfl (by simp [later]) fun inner => ⟨.inl, ?_⟩
        rintro (old | ⟨rfl, closesJoin⟩)
        · exact old
        · exact absurd rfl (closes.mp closesJoin)
      | cons join rest =>
        rw [since] at closes later
        refine viewed.hides after shown rfl (by simp [later]) fun inner => ?_
        refine List.mem_cons.trans (or_comm.trans (or_congr_right ?_))
        exact ⟨fun same => ⟨same, same ▸ closes.mpr (List.cons_ne_nil _ _)⟩, And.left⟩
    · rw [viewStep_passes shown ends]
      have noJoin := ((Bool.or_eq_false_iff).mp shown).1
      refine viewed.hides after shown rfl ?_ fun inner => ⟨.inl, ?_⟩
      · rw [block.openedSince_passes inside noJoin ends]
      · rintro (old | ⟨rfl, join, -, isJoin, pairs⟩)
        · exact old
        · exact absurd (endsAt_of_join isJoin pairs) ends

/-- The look has done its part wherever it stands in the block. -/
theorem reached (block : ViewBlock tokens index closer) (held : before.arena.Holds view)
    (after : index < stop) (bound : stop ≤ tokens.blockEnd index) :
    Viewed tokens index view before stop (viewedTo tokens index view before stop) := by
  induction after with
  | refl => exact viewedTo_start tokens index view before ▸ start tokens index view before
  | @step stop after ih =>
    rw [viewedTo_succ view before after]
    exact (ih (Nat.le_of_lt bound)).step block held (mem_blockIndices.mpr ⟨after, bound⟩)

end Viewed

/-! ### Where a token stands -/

/-- What the token stands under: the innermost join around it, and the view if there is none. -/
def StandsUnder (tokens : Tokens) (index : Nat) (view : NodeId) (size inner : Nat)
    (above : NodeId) : Prop :=
  (∃ join, InnermostJoin tokens index join inner ∧ above = viewNode tokens index size join) ∨
    (∀ join, index < join → ¬JoinAround tokens join inner) ∧ above = view

namespace ViewBlock

variable (block : ViewBlock tokens index closer)
include block

/-- The innermost open join is the innermost join around the token. -/
theorem viewParent_iff (inside : inner ∈ blockIndices tokens index)
    (shown : shownAt tokens inner) (view : NodeId) (size : Nat) (above : NodeId) :
    viewParent tokens index view size inner = above ↔
      StandsUnder tokens index view size inner above := by
  have noEnd := block.noEnd inside shown
  rw [viewParent, List.head?_map, StandsUnder]
  simp only [← block.innermostJoin_iff inside noEnd]
  cases since : tokens.openedSince index inner with
  | nil =>
    have nowhere : ∀ join, index < join → ¬JoinAround tokens join inner := by
      intro join after around
      have member := (block.mem_openedSince inside noEnd).mpr ⟨after, around⟩
      simp [since] at member
    simp only [List.head?_nil, reduceCtorEq, false_and, exists_false, false_or, Option.map_none,
      Option.getD_none, and_iff_right nowhere, eq_comm]
  | cons join rest =>
    have first : join ∈ tokens.openedSince index inner := since ▸ List.mem_cons_self
    obtain ⟨after, around⟩ := (block.mem_openedSince inside noEnd).mp first
    have somewhere : ¬∀ join, index < join → ¬JoinAround tokens join inner :=
      fun nowhere => nowhere join after around
    simp [somewhere, eq_comm]

theorem mem_viewMembers {view : NodeId} {size : Nat} {id : NodeId} :
    inner ∈ viewMembers tokens index view size (tokens.blockEnd index) id ↔
      inner ∈ blockIndices tokens index ∧ shownAt tokens inner ∧
        StandsUnder tokens index view size inner id := by
  simp only [viewMembers, List.mem_filter, Bool.and_eq_true, beq_iff_eq]
  refine and_congr_right fun inside => and_congr_right fun shown => ?_
  exact block.viewParent_iff inside shown view size id

end ViewBlock

theorem lookedTo_view (reads : token.reads "VIEW") (state : State) (stop : Nat) :
    state.lookedTo tokens index token stop =
      viewedTo tokens index (state.structureMade tokens index token).2
        (state.structureMade tokens index token).1 stop := by
  have noFile : token.reads "FILE" = false := reads_other reads (by decide)
  have step : aheadStep tokens token = viewStep tokens := by
    funext node walk inner
    simp [aheadStep, noFile, reads]
  simp only [lookedTo, viewedTo, step]

namespace ViewBlock

variable (block : ViewBlock tokens index closer)
include block

/-- What the turn of the view deals with. -/
theorem handled_succ : inner ∈ (after tokens (index + 1)).handled ↔
    inner ∈ (after tokens index).handled ∨
      inner ∈ blockIndices tokens index ∧ (shownAt tokens inner ∨ ClosesJoin tokens index inner) := by
  obtain ⟨token, found, isView⟩ := (Option.any_eq_true ..).mp block.view
  obtain ⟨word, reads⟩ := (Bool.and_eq_true _ _).mp isView
  have word : token.kind = .structureWord := by simpa using word
  rw [(opener_dispatches found word (.inr reads)).walks word (.inr reads), lookedTo_view reads]
  have settles := reach_settles tokens (after tokens index) token
  generalize (after tokens index).reach tokens token = state at settles
  have inside := mem_blockIndices.mp block.inside
  have viewed := Viewed.reached block (structureMade_holds tokens index token state)
    (Nat.lt_trans inside.1 inside.2) (Nat.le_refl _)
  have made := (structureMade_files tokens index token state).adds.handled
  rw [← settles.handled, ← made, mem_blockIndices]
  exact viewed.handled inner

theorem not_looksAt (inside : inner ∈ blockIndices tokens index) : ¬looksAt tokens inner := by
  intro looks
  obtain ⟨token, found, words⟩ := (Option.any_eq_true ..).mp looks
  simp only [Bool.and_eq_true, beq_iff_eq, Bool.or_eq_true] at words
  obtain ⟨-, noModule, -, -, noJoin, -⟩ := opener_words words.2
  have opens : tokens.opensBlock inner := by
    simp [Tokens.opensBlock, Tokens.isModuleAttribute, found, words.1, noModule]
  have join := block.openers inner inside opens
  simp [joinAt, found, noJoin] at join

/-- No token of the block deals with any other. -/
theorem handled_inside {turn : Nat} (after : index < turn) (bound : turn ≤ tokens.blockEnd index) :
    inner ∈ (State.after tokens turn).handled ↔ inner ∈ (State.after tokens (index + 1)).handled := by
  induction after with
  | refl => rfl
  | @step turn after ih =>
    rw [← ih (Nat.le_of_lt bound)]
    refine (handled_after_succ ..).trans (or_iff_left fun dealt => ?_)
    exact block.not_looksAt (mem_blockIndices.mpr ⟨after, bound⟩) dealt.looksAt

/-- An end of the block is left to the pass when it is that of the view, unless an earlier look has
dealt with it. -/
theorem handled_end (inside : inner ∈ blockIndices tokens index) (ends : tokens.endsAt inner) :
    inner ∈ (State.after tokens inner).handled ↔
      inner ≠ closer ∨ closer ∈ (State.after tokens index).handled := by
  obtain ⟨after, bound⟩ := mem_blockIndices.mp inside
  have hidden : ¬shownAt tokens inner := fun shown => block.noEnd inside shown ends
  rw [block.handled_inside after (Nat.le_of_lt bound), block.handled_succ, and_iff_right inside,
    or_iff_right hidden, block.closesJoin_iff_ne inside ends]
  by_cases same : inner = closer
  · simp [same]
  · simp [same]

end ViewBlock

/-- In a view whose block opens nothing but joins, every join and every projected field list gets a
node, numbered in the order of the source, below the node of the innermost join around it, or below
the view where there is none. The nodes below any one node are added in the order of the source.
Beside these tokens the look deals with the ends of the joins and with nothing else, which are all
ends of the block but that of the view. That one is left to the pass, as the only end of the block,
exactly when no look ahead of an earlier token deals with it. -/
theorem view_nests_by_joins (block : ViewBlock tokens index closer) :
    (∀ (before : State) (view : NodeId), before.arena.Holds view →
      (∀ inner ∈ blockIndices tokens index, ∀ token, tokens[inner]? = some token →
        shownAt tokens inner → ∃ above children,
          StandsUnder tokens index view before.arena.nodes.size inner above ∧
          (before.lookThroughView tokens index view).arena.node?
              (viewNode tokens index before.arena.nodes.size inner) =
            some { info := viewInfo tokens inner token, parent := some above, children }) ∧
      (∀ id, ∃ members : List Nat, members.Pairwise (· < ·) ∧
        (∀ inner, inner ∈ members ↔ inner ∈ blockIndices tokens index ∧ shownAt tokens inner ∧
          StandsUnder tokens index view before.arena.nodes.size inner id) ∧
        (before.lookThroughView tokens index view).arena.childrenOf id =
          before.arena.childrenOf id ++
            members.map (viewNode tokens index before.arena.nodes.size)) ∧
      ∀ inner, inner ∈ (before.lookThroughView tokens index view).handled ↔
        inner ∈ before.handled ∨ inner ∈ blockIndices tokens index ∧
          (shownAt tokens inner ∨ ClosesJoin tokens index inner)) ∧
    (tokens.endsAt closer ∧ ∀ inner ∈ blockIndices tokens index, tokens.endsAt inner →
      ((shownAt tokens inner ∨ ClosesJoin tokens index inner) ↔ inner ≠ closer)) ∧
    ((∀ inner ∈ blockIndices tokens index, tokens.endsAt inner →
      (inner ∉ (after tokens inner).handled ↔ inner = closer)) ↔
      ¬∃ outer < index, DealtBy tokens outer closer) := by
  have bounds := mem_blockIndices.mp block.inside
  refine ⟨fun before view held => ?_, ⟨block.endsAt_closer, fun inner inside ends => ?_⟩, ?_⟩
  · have viewed := Viewed.reached block held (Nat.lt_trans bounds.1 bounds.2) (Nat.le_refl _)
    refine ⟨fun inner inside token found shown => ?_, fun id => ?_, fun inner => ?_⟩
    · obtain ⟨after, bound⟩ := mem_blockIndices.mp inside
      obtain ⟨children, made⟩ := viewed.made inner token after bound found shown
      exact ⟨_, children, (block.viewParent_iff inside shown ..).mp rfl, made⟩
    · refine ⟨_, viewMembers_sorted .., fun inner => ?_, viewed.children id⟩
      exact block.mem_viewMembers
    · rw [mem_blockIndices]
      exact viewed.handled inner
  · have hidden : ¬shownAt tokens inner := fun shown => block.noEnd inside shown ends
    rw [or_iff_right hidden]
    exact block.closesJoin_iff_ne inside ends
  · rw [← mem_handled_iff]
    constructor
    · intro only dealt
      have left := (only closer block.inside block.endsAt_closer).mpr rfl
      exact left ((block.handled_end block.inside block.endsAt_closer).mpr (.inr dealt))
    · intro left inner inside ends
      rw [block.handled_end inside ends, or_iff_left left, not_not]

/-- A view with a join inside a join, and field lists before, in and behind them. -/
def nestedJoins : Tokens :=
  [{ kind := .structureWord, value := "VIEW", line := 0, start := 9 },
    { kind := .propertyFunction, value := "PROJECT", line := 1, start := 11 },
    { kind := .structureWord, value := "JOIN", line := 2, start := 11 },
    { kind := .propertyFunction, value := "PROJECT", line := 3, start := 13 },
    { kind := .structureWord, value := "JOIN", line := 4, start := 13 },
    { kind := .propertyFunction, value := "PROJECT", line := 5, start := 15 },
    { kind := .endStatement, value := "END", line := 6, start := 13 },
    { kind := .endStatement, value := "END", line := 7, start := 11 },
    { kind := .propertyFunction, value := "PROJECT", line := 8, start := 11 },
    { kind := .endStatement, value := "END", line := 9, start := 9 }]

theorem nestedJoins_nest :
    ViewBlock nestedJoins 0 9 ∧
    (∃ node, ((({} : State).addLeaf none default).lookThroughView nestedJoins 0 0).arena.node? 5 =
      some node ∧ node.parent = some 4) ∧
    6 ∈ (after nestedJoins 6).handled ∧ 7 ∈ (after nestedJoins 7).handled ∧
    9 ∉ (after nestedJoins 9).handled := by
  have block : ViewBlock nestedJoins 0 9 :=
    ⟨by decide +kernel, by decide +kernel, by decide +kernel, by decide +kernel, by decide +kernel,
      by decide +kernel, by decide +kernel⟩
  obtain ⟨looks, -, left⟩ := view_nests_by_joins block
  have ends := left.mpr (by simp)
  obtain ⟨made, -⟩ := looks (({} : State).addLeaf none default) 0 (Nat.zero_lt_one)
  obtain ⟨above, children, under, found⟩ := made 5 (by decide +kernel) _ rfl (by decide +kernel)
  have parent := (block.viewParent_iff (by decide +kernel) (by decide +kernel) ..).mpr under
  have join : above = 4 := parent.symm.trans (by decide +kernel)
  refine ⟨block, ⟨_, found, congrArg some join⟩, ?_, ?_, ?_⟩
  · exact not_not.mp ((ends 6 (by decide +kernel) (by decide +kernel)).not.mpr (by decide))
  · exact not_not.mp ((ends 7 (by decide +kernel) (by decide +kernel)).not.mpr (by decide))
  · exact (ends 9 (by decide +kernel) (by decide +kernel)).mpr rfl

/-- A view with a join, in which another view is declared, and a variable between the ends. -/
def nestedViews : Tokens :=
  [{ kind := .label, value := "V1", line := 0, start := 0 },
    { kind := .structureWord, value := "VIEW", line := 0, start := 8 },
    { kind := .structureWord, value := "JOIN", line := 1, start := 2 },
    { kind := .label, value := "V2", line := 2, start := 0 },
    { kind := .structureWord, value := "VIEW", line := 2, start := 8 },
    { kind := .endStatement, value := "END", line := 3, start := 2 },
    { kind := .label, value := "X", line := 4, start := 0 },
    { kind := .typeName, value := "LONG", line := 4, start := 8 },
    { kind := .endStatement, value := "END", line := 5, start := 2 },
    { kind := .endStatement, value := "END", line := 6, start := 0 }]

theorem join_takes_end_of_inner_view :
    ¬∀ tokens index closer, ViewBlock tokens index closer →
      ∀ inner ∈ blockIndices tokens index, tokens.endsAt inner →
        (inner ∉ (after tokens inner).handled ↔ inner = closer) := by
  intro only
  have block : ViewBlock nestedViews 4 5 :=
    ⟨by decide +kernel, by decide +kernel, by decide +kernel, by decide +kernel, by decide +kernel,
      by decide +kernel, by decide +kernel⟩
  have left := (only _ _ _ block 5 block.inside block.endsAt_closer).mpr rfl
  have dealt : DealtBy nestedViews 1 5 :=
    .view rfl rfl (by decide +kernel) (by decide +kernel) (.inr ⟨by decide +kernel, by decide +kernel⟩)
  exact left ((mem_handled_iff ..).mpr ⟨1, by decide, dealt⟩)

end Clarion.Outline.State
