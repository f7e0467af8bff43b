import Clarion.Proofs.Pass

/-! What a look ahead shows, and what it leaves behind. The looks through a file and through a view
are one walk over the indices of a block. Each of its steps passes a token over, or makes one node
for it and marks it: as dealt with, or by a record that waits for its turn. Marks are kept until the
pass comes to the token, which then makes nothing. -/
namespace Clarion.Outline.State

variable {state before middle after : State} {tokens : Tokens} {index stop turn : Nat}
  {token opener : Token}

/-! ### One walk for files and views -/

/-- The words for what stands in a view: joins and projected field lists. -/
def declaresJoin (token : Token) : Bool :=
  token.kind == .structureWord && token.reads "JOIN" || token.reads "PROJECT"

/-- A look ahead from the given opener makes a node for the token at the index. -/
def showsAhead (tokens : Tokens) (opener : Token) (index : Nat) : Bool :=
  tokens[index]?.any fun token =>
    if opener.reads "FILE" then
      declaresRecord token || declaresMember token && isLineHead tokens index
    else opener.reads "VIEW" && declaresJoin token

/-- A look ahead from the given opener may mark the token as dealt with. -/
def dealsWith (opener token : Token) : Bool :=
  if opener.reads "FILE" then declaresMember token
  else opener.reads "VIEW" && (declaresJoin token || token.kind == .endStatement)

/-- One token inside the block of a structure that looks ahead. -/
def aheadStep (tokens : Tokens) (opener : Token) (node : NodeId) (walk : State × List NodeId)
    (index : Nat) : State × List NodeId :=
  if opener.reads "FILE" then (walk.1.fileStep tokens node index, walk.2)
  else if opener.reads "VIEW" then viewStep tokens node walk index
  else walk

/-- What a look ahead does at a token: nothing, or it closes a join, or it makes the node of a
record, or of a member that it deals with for good. -/
inductive Looks (tokens : Tokens) (opener : Token) (index : Nat) (before : State) :
    State → Prop where
  | passes (hidden : showsAhead tokens opener index = false) :
    Looks tokens opener index before before
  | closes (hidden : showsAhead tokens opener index = false)
    (deals : tokens[index]?.any (dealsWith opener)) :
    Looks tokens opener index before (before.markHandled index)
  | record (parent : Option NodeId) (info : Info) (shown : showsAhead tokens opener index)
    (word : tokens[index]?.any declaresRecord) :
    Looks tokens opener index before { (before.add parent info).1 with
      prebuilt := (index, before.arena.nodes.size) :: before.prebuilt }
  | member (parent : Option NodeId) (info : Info) (shown : showsAhead tokens opener index)
    (deals : tokens[index]?.any (dealsWith opener)) :
    Looks tokens opener index before ((before.addLeaf parent info).markHandled index)

theorem fileStep_looks (reads : opener.reads "FILE") (file : NodeId) (index : Nat) :
    Looks tokens opener index state (state.fileStep tokens file index) := by
  unfold fileStep
  split
  · rename_i missing
    exact .passes (by simp [showsAhead, missing])
  · rename_i token found
    split
    · rename_i isRecord
      have word : declaresRecord token := isRecord
      have made : Looks tokens opener index state _ :=
        .record (some file) (recordInfo tokens index token)
          (by simp [showsAhead, found, reads, word]) (by simp [found, word])
      rwa [← add_id state (some file) (recordInfo tokens index token)] at made
    · rename_i noRecord
      have noRecord : declaresRecord token = false := by simpa [declaresRecord] using noRecord
      have member (isMember : declaresMember token) (head : isLineHead tokens index) (info : Info) :
          Looks tokens opener index state ((state.addLeaf (some file) info).markHandled index) :=
        .member _ _ (by simp [showsAhead, found, reads, isMember, head])
          (by simp [found, dealsWith, reads, isMember])
      split
      · rename_i isKey
        simp only [Bool.and_eq_true, Bool.or_eq_true] at isKey
        exact member (by simp [declaresMember, isKey.1]) isKey.2 _
      · rename_i noKey
        split
        · rename_i isMemo
          simp only [Bool.and_eq_true, Bool.or_eq_true] at isMemo
          exact member (by rcases isMemo.1 with memo | blob <;> simp [declaresMember, *]) isMemo.2 _
        · rename_i noMemo
          refine .passes ?_
          simp only [showsAhead, found, Option.any_some, reads, if_true, noRecord, Bool.false_or,
            declaresMember]
          cases head : isLineHead tokens index <;> simp_all

theorem viewStep_looks (noFile : opener.reads "FILE" = false) (reads : opener.reads "VIEW")
    (view : NodeId) (joins : List NodeId) (index : Nat) :
    Looks tokens opener index state (viewStep tokens view (state, joins) index).1 := by
  unfold viewStep
  dsimp only
  split
  · rename_i missing
    exact .passes (by simp [showsAhead, missing])
  · rename_i token found
    have member (isJoin : declaresJoin token) (info : Info) : Looks tokens opener index state
        ((state.addLeaf (some (joins.head?.getD view)) info).markHandled index) :=
      .member _ _ (by simp [showsAhead, found, noFile, reads, isJoin])
        (by simp [found, dealsWith, noFile, reads, isJoin])
    split
    · rename_i isJoin
      exact member (by simp [declaresJoin, isJoin]) _
    · rename_i noJoin
      split
      · rename_i isProject
        exact member (by simp [declaresJoin, isProject]) _
      · rename_i noProject
        have hidden : showsAhead tokens opener index = false := by
          simp_all [showsAhead, declaresJoin]
        split
        · rename_i isEnd
          have isEnd := ((Bool.and_eq_true _ _).mp isEnd).1
          exact .closes hidden (by simp [found, dealsWith, noFile, reads, isEnd])
        · exact .passes hidden

theorem aheadStep_looks (tokens : Tokens) (opener : Token) (node : NodeId)
    (walk : State × List NodeId) (index : Nat) :
    Looks tokens opener index walk.1 (aheadStep tokens opener node walk index).1 := by
  unfold aheadStep
  split
  · rename_i reads
    exact fileStep_looks reads node index
  · rename_i noFile
    split
    · rename_i reads
      exact viewStep_looks (by simpa using noFile) reads node walk.2 index
    · rename_i noView
      exact .passes (by simp_all [showsAhead])

theorem Looks.grows (looks : Looks tokens opener index before after) :
    before.arena.Grows after.arena := by
  cases looks with
  | passes hidden => exact .refl _
  | closes hidden deals => exact .refl _
  | record parent info shown word => exact (add_adds ..).grows
  | member parent info shown deals => exact (addLeaf_adds ..).grows

/-- A token that is shown gets one node, and any other none. -/
theorem Looks.size (looks : Looks tokens opener index before after) :
    after.arena.nodes.size =
      before.arena.nodes.size + if showsAhead tokens opener index then 1 else 0 := by
  cases looks with
  | passes hidden => simp [hidden]
  | closes hidden deals => simp [hidden, markHandled]
  | record parent info shown word =>
    rw [if_pos shown]
    exact Arena.add_size ..
  | member parent info shown deals =>
    rw [if_pos shown]
    exact Arena.add_size ..

/-- The node of a token that is shown is an ordinary one. -/
theorem Looks.ordinary (looks : Looks tokens opener index before after)
    (shown : showsAhead tokens opener index) :
    ∃ node, after.arena.node? before.arena.nodes.size = some node ∧ node.group = none := by
  have made (parent : Option NodeId) (info : Info) : ∃ node,
      (before.add parent info).1.arena.node? before.arena.nodes.size = some node ∧
        node.group = none := by
    obtain ⟨children, made⟩ := Arena.push_made before.arena parent info none
    exact ⟨_, made, rfl⟩
  cases looks with
  | passes hidden => simp [hidden] at shown
  | closes hidden deals => simp [hidden] at shown
  | record parent info shown word => exact made ..
  | member parent info shown deals => exact made ..

/-- The walk of the structure at an index, when it comes to the token at `stop`. -/
def lookedTo (tokens : Tokens) (index : Nat) (token : Token) (state : State) (stop : Nat) :
    State × List NodeId :=
  let made := state.structureMade tokens index token
  (List.range' (index + 1) (stop - (index + 1))).foldl (aheadStep tokens token made.2) (made.1, [])

theorem lookedTo_start (tokens : Tokens) (token : Token) (state : State)
    (order : stop ≤ index + 1) :
    state.lookedTo tokens index token stop = ((state.structureMade tokens index token).1, []) := by
  simp [lookedTo, Nat.sub_eq_zero_of_le order]

/-- The indices up to a token and on to the next one. -/
theorem range'_next (order : index < stop) :
    List.range' (index + 1) (stop + 1 - (index + 1)) =
      List.range' (index + 1) (stop - (index + 1)) ++ [stop] := by
  have length : stop + 1 - (index + 1) = (stop - (index + 1)) + 1 := by omega
  have last : index + 1 + (stop - (index + 1)) = stop := by omega
  rw [length, List.range'_1_concat, last]

theorem lookedTo_succ (tokens : Tokens) (token : Token) (state : State) (order : index < stop) :
    state.lookedTo tokens index token (stop + 1) =
      aheadStep tokens token (state.structureMade tokens index token).2
        (state.lookedTo tokens index token stop) stop := by
  rw [lookedTo, range'_next order, List.foldl_append]
  rfl

theorem lookedTo_looks (tokens : Tokens) (token : Token) (state : State) (order : index < stop) :
    Looks tokens token stop (state.lookedTo tokens index token stop).1
      (state.lookedTo tokens index token (stop + 1)).1 := by
  rw [lookedTo_succ tokens token state order]
  exact aheadStep_looks ..

/-- What each step of the walk keeps, the walk keeps from any place to any later one. -/
theorem lookedTo_related {related : State → State → Prop} (refl : ∀ state, related state state)
    (trans : ∀ before middle after, related before middle → related middle after →
      related before after)
    (step : ∀ inner before after, Looks tokens token inner before after → related before after)
    (index : Nat) (state : State) {later : Nat} (order : stop ≤ later) :
    related (state.lookedTo tokens index token stop).1
      (state.lookedTo tokens index token later).1 := by
  induction order with
  | refl => exact refl _
  | @step later order ih =>
    rcases Nat.lt_or_ge index later with inside | outside
    · exact trans _ _ _ ih (step _ _ _ (lookedTo_looks tokens token state inside))
    · rw [lookedTo_start tokens token state (Nat.succ_le_succ outside),
        ← lookedTo_start tokens token state (Nat.le_succ_of_le outside)]
      exact ih

theorem lookedTo_grows (tokens : Tokens) (index : Nat) (token : Token) (state : State) {later : Nat}
    (order : stop ≤ later) : (state.lookedTo tokens index token stop).1.arena.Grows
      (state.lookedTo tokens index token later).1.arena :=
  lookedTo_related (fun state => .refl state.arena) (fun _ _ _ => .trans)
    (fun _ _ _ looks => looks.grows) index state order

private theorem fileSteps_ahead (reads : opener.reads "FILE") (node : NodeId) (indices : List Nat)
    (walk : State × List NodeId) :
    (indices.foldl (aheadStep tokens opener node) walk).1 =
      indices.foldl (fileStep tokens node) walk.1 := by
  induction indices generalizing walk with
  | nil => rfl
  | cons inner rest ih =>
    rw [List.foldl_cons, List.foldl_cons, ih, aheadStep, if_pos reads]

/-- A file or a view is furnished by walking to the end of its block. -/
theorem furnish_walks (looks : token.reads "FILE" ∨ token.reads "VIEW") (state : State) :
    (state.structureMade tokens index token).1.furnish tokens index token
        (state.structureMade tokens index token).2 =
      (state.lookedTo tokens index token (tokens.blockEnd index)).1 := by
  rcases looks with reads | reads
  · have others : token.readsOneOf ["CLASS", "INTERFACE", "MAP", "MODULE"] = false :=
      readsOneOf_of_reads reads (by decide)
    simp only [Token.readsOneOf, List.any_cons, List.any_nil, Bool.or_false,
      Bool.or_eq_false_iff] at others
    simp only [furnish, others, reads, lookThroughFile, lookedTo, fileSteps_ahead reads]
    rfl
  · have others : token.readsOneOf ["CLASS", "INTERFACE", "MAP", "MODULE", "FILE"] = false :=
      readsOneOf_of_reads reads (by decide)
    simp only [Token.readsOneOf, List.any_cons, List.any_nil, Bool.or_false,
      Bool.or_eq_false_iff] at others
    have step : aheadStep tokens token = viewStep tokens := by
      funext node walk inner
      simp [aheadStep, others, reads]
    simp only [furnish, others, reads, lookThroughView, lookedTo, step]
    rfl

/-- A structure that does not look ahead marks nothing. -/
theorem furnish_marks (blind : ¬(token.reads "FILE" ∨ token.reads "VIEW")) (node : NodeId)
    (state : State) :
    (state.furnish tokens index token node).handled = state.handled ∧
      (state.furnish tokens index token node).prebuilt = state.prebuilt := by
  rw [not_or] at blind
  have recorded (label : Option String) (state : State) :
      (state.recordClass label node).handled = state.handled ∧
        (state.recordClass label node).prebuilt = state.prebuilt := by
    cases label <;> exact ⟨rfl, rfl⟩
  unfold furnish
  dsimp only
  rw [if_neg blind.1, if_neg blind.2]
  split
  · exact recorded ..
  · split
    · exact recorded ..
    · split <;> exact ⟨rfl, rfl⟩

/-! ### Marks -/

/-- A look ahead may deal with the token at the index. -/
def DealtAhead (tokens : Tokens) (index : Nat) : Prop :=
  ∃ opener ∈ tokens, opener.kind = .structureWord ∧ tokens[index]?.any (dealsWith opener)

/-- What the token at `turn` changes about marks: it adds some to the words that looks ahead mark,
and it may use up the record that waits for itself. -/
structure Notes (tokens : Tokens) (turn : Nat) (before after : State) : Prop where
  handled : before.handled ⊆ after.handled
  waiting : ∀ entry ∈ before.prebuilt, entry.1 ≠ turn → entry ∈ after.prebuilt
  dealt : ∀ index ∈ after.handled, index ∈ before.handled ∨ DealtAhead tokens index
  records : ∀ entry ∈ after.prebuilt, entry ∈ before.prebuilt ∨ tokens[entry.1]?.any declaresRecord

namespace Notes

theorem same (handled : after.handled = before.handled)
    (prebuilt : after.prebuilt = before.prebuilt) : Notes tokens turn before after where
  handled := handled ▸ List.Subset.refl _
  waiting _ member _ := prebuilt ▸ member
  dealt _ member := .inl (handled ▸ member)
  records _ member := .inl (prebuilt ▸ member)

theorem trans (first : Notes tokens turn before middle) (second : Notes tokens turn middle after) :
    Notes tokens turn before after where
  handled := List.Subset.trans first.handled second.handled
  waiting entry member other := second.waiting entry (first.waiting entry member other) other
  dealt index member := (second.dealt index member).elim (first.dealt index) .inr
  records entry member := (second.records entry member).elim (first.records entry) .inr

end Notes

theorem Looks.notes (looks : Looks tokens opener index before after) (listed : opener ∈ tokens)
    (word : opener.kind = .structureWord) : Notes tokens turn before after := by
  have marked {marked : State} (handled : marked.handled = index :: before.handled)
      (prebuilt : marked.prebuilt = before.prebuilt)
      (deals : tokens[index]?.any (dealsWith opener)) : Notes tokens turn before marked := by
    refine ⟨handled ▸ List.subset_cons_self .., fun _ member _ => prebuilt ▸ member, ?_,
      fun _ member => .inl (prebuilt ▸ member)⟩
    intro dealt member
    rw [handled] at member
    rcases List.mem_cons.mp member with rfl | member
    · exact .inr ⟨opener, listed, word, deals⟩
    · exact .inl member
  cases looks with
  | passes hidden => exact .same rfl rfl
  | closes hidden deals => exact marked rfl rfl deals
  | record parent info shown isRecord =>
    refine ⟨List.Subset.refl _, fun _ member _ => List.mem_cons_of_mem _ member,
      fun _ member => .inl member, fun entry member => ?_⟩
    rcases List.mem_cons.mp member with rfl | member
    · exact .inr isRecord
    · exact .inl member
  | member parent info shown deals => exact marked rfl rfl deals

theorem lookedTo_notes (turn : Nat) (found : tokens[index]? = some token)
    (word : token.kind = .structureWord) (state : State) {later : Nat} (order : stop ≤ later) :
    Notes tokens turn (state.lookedTo tokens index token stop).1
      (state.lookedTo tokens index token later).1 :=
  lookedTo_related (fun _ => .same rfl rfl) (fun _ _ _ => .trans)
    (fun _ _ _ looks => looks.notes (List.mem_of_getElem? found) word) index state order

theorem furnish_notes (found : tokens[index]? = some token) (word : token.kind = .structureWord)
    (state : State) : Notes tokens turn (state.structureMade tokens index token).1
      ((state.structureMade tokens index token).1.furnish tokens index token
        (state.structureMade tokens index token).2) := by
  by_cases looks : token.reads "FILE" ∨ token.reads "VIEW"
  · have walked := lookedTo_notes turn found word state (Nat.zero_le (tokens.blockEnd index))
    rwa [lookedTo_start tokens token state (Nat.zero_le _), ← furnish_walks looks] at walked
  · obtain ⟨handled, prebuilt⟩ := furnish_marks looks (state.structureMade tokens index token).2
      (state.structureMade tokens index token).1
    exact .same handled prebuilt

/-- Every token notes in this way. -/
theorem Sound.dispatch_notes (sound : state.Sound) (found : tokens[index]? = some token) :
    Notes tokens index state (state.dispatch tokens index token) := by
  have acts := sound.acts found
  generalize state.dispatch tokens index token = after at acts
  cases acts with
  | files neutral filed => exact .same filed.adds.handled filed.adds.prebuilt
  | block opens silent => exact .same rfl rfl
  | record opens word loud recorded =>
    refine ⟨List.Subset.refl _, fun entry member other => ?_, fun _ member => .inl member,
      fun _ member => .inl (List.mem_filter.mp member).1⟩
    exact List.mem_filter.mpr ⟨member, by simpa using other⟩
  | declares opens word loud fresh =>
    have files := (structureMade_files tokens index token state).adds
    have made : Notes tokens index state (state.structureMade tokens index token).1 :=
      .same files.handled files.prebuilt
    rw [openStructure_eq]
    exact (made.trans (furnish_notes found word state)).trans (.same rfl rfl)
  | globalBody word use => exact .same (atRoot_handled ..) (atRoot_prebuilt ..)
  | enclosedBody word use => exact .same rfl rfl
  | @method className methodName word use =>
    have adds := atMethods_adds tokens index token className methodName state
    rw [openMethod_eq]
    exact .same (adds.handled.trans (shut_handled ..)) (adds.prebuilt.trans (shut_prebuilt ..))
  | routine word =>
    have kept : Notes tokens index state (state.atRoutine tokens) :=
      .same (shut_handled ..) (shut_prebuilt ..)
    rw [onRoutine_eq]
    dsimp only
    split <;> exact kept.trans (.same rfl rfl)
  | marker word =>
    obtain ⟨_, _, _, _, same⟩ := onMarker_frame token state
    rw [same]
    exact .same rfl rfl
  | loopStop stops =>
    obtain ⟨_, same⟩ := onLoopTerminator_frame tokens index state
    rw [same]
    exact .same rfl rfl
  | ends word =>
    obtain ⟨_, _, _, _, same⟩ := onEnd_frame token state
    rw [same]
    exact .same rfl rfl

theorem after_succ_notes (tokens : Tokens) (turn : Nat) :
    Notes tokens turn (State.after tokens turn) (State.after tokens (turn + 1)) := by
  have reached (token : Token) : Notes tokens turn (State.after tokens turn)
      ((State.after tokens turn).reach tokens token) :=
    .same (reach_settles ..).handled (reach_settles ..).prebuilt
  rcases after_succ_cases tokens turn with same | ⟨token, same⟩ | ⟨token, state, here, same⟩
  · exact .same (by rw [same]) (by rw [same])
  · exact same ▸ reached token
  · rw [same]
    exact (here.reached ▸ reached token).trans (here.sound.dispatch_notes here.found)

/-- Only what looks ahead deal with is ever marked as dealt with. -/
theorem dealtAhead_of_handled {count : Nat} (member : index ∈ (State.after tokens count).handled) :
    DealtAhead tokens index := by
  induction count with
  | zero => simp at member
  | succ count ih => exact ((after_succ_notes tokens count).dealt index member).elim ih id

/-- Only the words for records wait with a record made ahead. -/
theorem record_of_prebuilt {count : Nat} {entry : Nat × NodeId}
    (member : entry ∈ (State.after tokens count).prebuilt) :
    tokens[entry.1]?.any declaresRecord := by
  induction count with
  | zero => simp at member
  | succ count ih => exact ((after_succ_notes tokens count).records entry member).elim ih id

/-- A look ahead has dealt with the token at the index, or made its record. -/
def Marked (state : State) (index : Nat) : Prop :=
  index ∈ state.handled ∨ ∃ node, (index, node) ∈ state.prebuilt

theorem Looks.marked (looks : Looks tokens opener index before after)
    (shown : showsAhead tokens opener index) : after.Marked index := by
  cases looks with
  | passes hidden => simp [hidden] at shown
  | closes hidden deals => simp [hidden] at shown
  | record parent info shown word => exact .inr ⟨_, List.mem_cons_self⟩
  | member parent info shown deals => exact .inl List.mem_cons_self

theorem Marked.notes (marked : before.Marked index) (notes : Notes tokens turn before after)
    (later : index ≠ turn) : after.Marked index := by
  rcases marked with handled | ⟨node, waits⟩
  · exact .inl (notes.handled handled)
  · exact .inr ⟨node, notes.waiting _ waits later⟩

/-- A mark stays until the pass comes to its token. -/
theorem Marked.lasts {first : Nat} (marked : (State.after tokens first).Marked index)
    (start : first ≤ turn) (order : turn ≤ index) : (State.after tokens turn).Marked index := by
  induction start with
  | refl => exact marked
  | @step turn start ih =>
    exact (ih (Nat.le_of_succ_le order)).notes (after_succ_notes tokens turn) (Nat.ne_of_gt order)

/-- A structure whose record is there makes no node. -/
theorem onStructure_waiting {node : NodeId} (waits : (index, node) ∈ state.prebuilt) :
    (state.onStructure tokens index token).arena = state.arena := by
  unfold onStructure
  split
  · rfl
  · split
    · rfl
    · split
      · rfl
      · rename_i fresh
        simpa using List.lookup_eq_none_iff.mp fresh _ waits

/-- A token that is marked when its turn comes makes no node. -/
theorem Marked.makes_nothing (marked : (State.after tokens index).Marked index) :
    (State.after tokens (index + 1)).arena.nodes.size =
      (State.after tokens index).arena.nodes.size := by
  rcases after_succ_cases tokens index with same | ⟨token, same⟩ | ⟨token, state, here, same⟩
  · rw [same]
  · rw [same, (reach_settles ..).size]
  · have settles := reach_settles tokens (State.after tokens index) token
    rw [← here.reached] at settles
    rcases marked with handled | ⟨node, waits⟩
    · exact absurd (settles.handled ▸ handled) here.fresh
    · have word := record_of_prebuilt waits
      simp only [here.found, Option.any_some, declaresRecord, Bool.and_eq_true, beq_iff_eq] at word
      rw [same, ← settles.size]
      simp only [dispatch, word.1]
      rw [onStructure_waiting (settles.prebuilt ▸ waits)]

/-! ### The openers of looks ahead -/

theorem looks_of_showsAhead (shown : showsAhead tokens token index) :
    token.reads "FILE" ∨ token.reads "VIEW" := by
  obtain ⟨inner, -, shown⟩ := (Option.any_eq_true ..).mp shown
  split at shown
  · rename_i reads
    exact .inl reads
  · exact .inr ((Bool.and_eq_true _ _).mp shown).1

/-- A file or a view reads as no word that a look ahead deals with, and as no silent one. -/
theorem opener_words (looks : token.reads "FILE" ∨ token.reads "VIEW") :
    token.readsOneOf Tokens.silentWords = false ∧ token.reads "MODULE" = false ∧
      declaresRecord token = false ∧ declaresMember token = false ∧
      token.reads "JOIN" = false ∧ token.reads "PROJECT" = false := by
  have loud : token.readsOneOf Tokens.silentWords = false := by
    rcases looks with reads | reads <;> exact readsOneOf_of_reads reads (by decide)
  have others : token.readsOneOf ["MODULE", "RECORD", "KEY", "INDEX", "MEMO", "BLOB", "JOIN",
      "PROJECT"] = false := by
    rcases looks with reads | reads <;> exact readsOneOf_of_reads reads (by decide)
  simp only [Token.readsOneOf, List.any_cons, List.any_nil, Bool.or_false,
    Bool.or_eq_false_iff] at others
  simp [loud, declaresRecord, declaresMember, others]

/-- No look ahead passes over a file or a view. -/
theorem opener_dispatches (found : tokens[index]? = some token)
    (word : token.kind = .structureWord) (looks : token.reads "FILE" ∨ token.reads "VIEW") :
    Dispatches tokens index token ((State.after tokens index).reach tokens token) := by
  obtain ⟨-, -, -, noMember, noJoin, noProject⟩ := opener_words looks
  refine ⟨found, rfl, fun handled => ?_⟩
  rw [(reach_settles ..).handled] at handled
  obtain ⟨opener, -, -, deals⟩ := dealtAhead_of_handled handled
  simp [found, dealsWith, declaresJoin, word, noMember, noJoin, noProject] at deals

/-- A structure that is no record opens at its turn. -/
theorem Dispatches.opens (here : Dispatches tokens index token state)
    (word : token.kind = .structureWord) (loud : token.readsOneOf Tokens.silentWords = false)
    (declares : tokens.isModuleAttribute index = false) (noRecord : declaresRecord token = false) :
    State.after tokens (index + 1) = state.openStructure tokens index token := by
  have unrecorded : state.prebuilt.lookup index = none := by
    rw [here.reached, (reach_settles ..).prebuilt, List.lookup_eq_none_iff]
    intro entry member
    have isRecord := record_of_prebuilt member
    by_contra same
    obtain rfl : index = entry.1 := by simpa using same
    simp [here.found, noRecord] at isRecord
  rw [here.after_succ]
  simp [dispatch, word, onStructure, loud, declares, unrecorded]

/-- A file or a view is made at its turn, and then walks to the end of its block. -/
theorem Dispatches.walks (here : Dispatches tokens index token state)
    (word : token.kind = .structureWord) (looks : token.reads "FILE" ∨ token.reads "VIEW") :
    State.after tokens (index + 1) =
      (state.lookedTo tokens index token (tokens.blockEnd index)).1.openScope
        (state.structureMade tokens index token).2 token.finishesAt := by
  obtain ⟨loud, noModule, noRecord, -⟩ := opener_words looks
  have declares : tokens.isModuleAttribute index = false := by
    simp [Tokens.isModuleAttribute, here.found, noModule]
  rw [here.opens word loud declares noRecord, openStructure_eq, ← furnish_walks looks]

/-! ### The indices of a block -/

theorem mem_blockIndices :
    index ∈ blockIndices tokens turn ↔ turn < index ∧ index < tokens.blockEnd turn := by
  rw [blockIndices, List.mem_range'_1]
  omega

end Clarion.Outline.State
