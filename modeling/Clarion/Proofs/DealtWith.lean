import Clarion.Proofs.ViewBlocks

/-! What the pass finds dealt with. A look through a file deals with the keys, memos and blobs that
head a line. A look through a view deals with all that it shows, and with an end for each join that
it has open, whichever block the end closes. So a token is dealt with exactly when the block of an
earlier file or view holds it and the look there deals with it. -/
namespace Clarion.Outline.State

variable {tokens : Tokens} {index inner other outer stop turn : Nat} {token opener : Token}
  {view file : NodeId} {state : State} {joins : List NodeId}

/-! ### One token of a view -/

/-- The symbol of a join or of a projected field list. -/
def viewInfo (tokens : Tokens) (index : Nat) (token : Token) : Info :=
  if joinAt tokens index then joinInfo tokens index token else projectInfo tokens index token

/-- A token that is shown goes under the innermost open join and is dealt with; a join is open from
then on. -/
theorem viewStep_shown (found : tokens[inner]? = some token) (shown : shownAt tokens inner) :
    viewStep tokens view (state, joins) inner =
      ((state.addLeaf (some (joins.head?.getD view)) (viewInfo tokens inner token)).markHandled inner,
        if joinAt tokens inner then state.arena.nodes.size :: joins else joins) := by
  have isJoin : joinAt tokens inner = (token.kind == .structureWord && token.reads "JOIN") := by
    simp [joinAt, found]
  have isProject : projectAt tokens inner = token.reads "PROJECT" := by
    simp [projectAt, found]
  simp only [viewStep, viewInfo, found, ← isJoin, ← isProject]
  cases join : joinAt tokens inner with
  | true => rw [← add_id state (some (joins.head?.getD view))]; rfl
  | false =>
    have project : projectAt tokens inner := by simpa [shownAt, join] using shown
    rw [if_pos project]
    rfl

/-- An end that is not shown closes the innermost open join, if there is one, and is dealt with
then. -/
theorem viewStep_end (hidden : shownAt tokens inner = false) (ends : tokens.endsAt inner) :
    viewStep tokens view (state, joins) inner =
      if joins = [] then (state, joins) else (state.markHandled inner, joins.tail) := by
  obtain ⟨token, found, word⟩ := (Option.any_eq_true ..).mp ends
  simp only [shownAt, joinAt, projectAt, found, Option.any_some, Bool.or_eq_false_iff] at hidden
  cases joins <;> simp [viewStep, found, hidden, word]

theorem viewStep_passes (hidden : shownAt tokens inner = false) (noEnd : ¬tokens.endsAt inner) :
    viewStep tokens view (state, joins) inner = (state, joins) := by
  cases found : tokens[inner]? with
  | none => simp [viewStep, found]
  | some token =>
    simp only [shownAt, joinAt, projectAt, Tokens.endsAt, found, Option.any_some,
      Bool.or_eq_false_iff] at hidden noEnd
    simp [viewStep, found, hidden, noEnd]

/-! ### What a look deals with -/

/-- The token at the index is a member that a file shows, other than a record. -/
def memberAt (tokens : Tokens) (index : Nat) : Bool :=
  tokens[index]?.any fun token => declaresMember token && isLineHead tokens index

/-- The joins that are open after a token of a view, when so many were open before. -/
def joinsAfter (tokens : Tokens) (joins index : Nat) : Nat :=
  if joinAt tokens index then joins + 1
  else if !projectAt tokens index && tokens.endsAt index then joins - 1
  else joins

/-- The joins that the look through the view at `index` has open when it comes to the token at
`stop`. Each join opens one, and each end closes one, if there is any. -/
def joinsOpen (tokens : Tokens) (index stop : Nat) : Nat :=
  (List.range' (index + 1) (stop - (index + 1))).foldl (joinsAfter tokens) 0

theorem joinsOpen_succ (after : index < stop) :
    joinsOpen tokens index (stop + 1) = joinsAfter tokens (joinsOpen tokens index stop) stop := by
  rw [joinsOpen, range'_next after, List.foldl_append]
  rfl

/-- The look ahead of the structure at `outer` deals with the token at `inner`. -/
inductive DealtBy (tokens : Tokens) (outer inner : Nat) : Prop where
  | file {opener : Token} (found : tokens[outer]? = some opener)
    (word : opener.kind = .structureWord) (reads : opener.reads "FILE")
    (inside : inner ∈ blockIndices tokens outer) (member : memberAt tokens inner)
  | view {opener : Token} (found : tokens[outer]? = some opener)
    (word : opener.kind = .structureWord) (reads : opener.reads "VIEW")
    (inside : inner ∈ blockIndices tokens outer)
    (deals : shownAt tokens inner ∨ tokens.endsAt inner ∧ 0 < joinsOpen tokens outer inner)

theorem mem_fileStep_handled : other ∈ (fileStep tokens file state index).handled ↔
    other ∈ state.handled ∨ other = index ∧ memberAt tokens index := by
  unfold fileStep
  split
  · rename_i missing
    simp [memberAt, missing]
  · rename_i token found
    have marked (head : isLineHead tokens index) (word : declaresMember token) :
        other ∈ index :: state.handled ↔
          other ∈ state.handled ∨ other = index ∧ memberAt tokens index := by
      simp [memberAt, found, head, word, or_comm]
    split
    · rename_i record
      have noMember : declaresMember token = false := by
        have others : token.readsOneOf ["KEY", "INDEX", "MEMO", "BLOB"] = false :=
          readsOneOf_of_reads ((Bool.and_eq_true _ _).mp record).2 (by decide)
        simpa [Token.readsOneOf, declaresMember, or_assoc, and_assoc] using others
      simp [memberAt, found, noMember, add, Arena.add]
    · split
      · rename_i key
        simp only [Bool.and_eq_true, Bool.or_eq_true] at key
        exact marked key.2 (by simp [declaresMember, key.1])
      · split
        · rename_i memo
          simp only [Bool.and_eq_true, Bool.or_eq_true] at memo
          exact marked memo.2 (by rcases memo.1 with memo | blob <;> simp [declaresMember, *])
        · rename_i noKey noMemo
          have noMember : memberAt tokens index = false := by
            simp only [memberAt, found, Option.any_some, declaresMember]
            cases head : isLineHead tokens index <;> simp_all
          simp [noMember]

theorem token_of_shown (shown : shownAt tokens index) : ∃ token, tokens[index]? = some token := by
  cases found : tokens[index]? with
  | none => simp [shownAt, joinAt, projectAt, found] at shown
  | some token => exact ⟨token, rfl⟩

/-- One token of a view, as far as joins and marks go. -/
theorem viewStep_deals (tokens : Tokens) (view : NodeId) (walk : State × List NodeId)
    (index : Nat) :
    (viewStep tokens view walk index).2.length = joinsAfter tokens walk.2.length index ∧
    ∀ other, other ∈ (viewStep tokens view walk index).1.handled ↔ other ∈ walk.1.handled ∨
      other = index ∧ (shownAt tokens index ∨ tokens.endsAt index ∧ 0 < walk.2.length) := by
  obtain ⟨state, joins⟩ := walk
  cases shown : shownAt tokens index with
  | true =>
    obtain ⟨token, found⟩ := token_of_shown shown
    rw [viewStep_shown found shown]
    refine ⟨?_, fun other => by simp [markHandled, addLeaf, add, or_comm]⟩
    cases join : joinAt tokens index with
    | true => simp [joinsAfter, join]
    | false =>
      have project : projectAt tokens index := by simpa [shownAt, join] using shown
      simp [joinsAfter, join, project]
  | false =>
    obtain ⟨noJoin, noProject⟩ := (Bool.or_eq_false_iff).mp shown
    by_cases ends : tokens.endsAt index
    · rw [viewStep_end shown ends]
      cases joins with
      | nil => simp [joinsAfter, noJoin]
      | cons join outer =>
        refine ⟨by simp [joinsAfter, noJoin, noProject, ends], fun other => ?_⟩
        simp [markHandled, ends, or_comm]
    · rw [viewStep_passes shown ends]
      simp [joinsAfter, noJoin, ends]

/-! ### A whole look -/

theorem passed_succ (after : index < stop) :
    (index < inner ∧ inner < stop) ∨ inner = stop ↔ index < inner ∧ inner < stop + 1 := by
  omega

/-- Where each step of a walk deals with its own token only, and just if the rule says so, the walk
deals with the tokens that the rule names. -/
theorem lookedTo_dealt (deals : Nat → Prop)
    (each : ∀ stop, index < stop → ∀ other,
      other ∈ (state.lookedTo tokens index token (stop + 1)).1.handled ↔
        other ∈ (state.lookedTo tokens index token stop).1.handled ∨ other = stop ∧ deals stop)
    (stop : Nat) : inner ∈ (state.lookedTo tokens index token stop).1.handled ↔
      inner ∈ state.handled ∨ (index < inner ∧ inner < stop) ∧ deals inner := by
  have made := (structureMade_files tokens index token state).adds.handled
  induction stop with
  | zero => simp [lookedTo_start tokens token state (Nat.zero_le _), made]
  | succ stop ih =>
    rcases Nat.lt_or_ge index stop with after | early
    · have here : inner = stop ∧ deals stop ↔ inner = stop ∧ deals inner :=
        and_congr_right fun same => same ▸ .rfl
      rw [each stop after, here, ← passed_succ after, or_and_right, ← or_assoc]
      exact or_congr_left ih
    · rw [lookedTo_start tokens token state (Nat.succ_le_succ early), made]
      refine (or_iff_left ?_).symm
      rintro ⟨⟨later, before⟩, -⟩
      omega

theorem fileLook_dealt (reads : token.reads "FILE") (state : State) (stop : Nat) :
    inner ∈ (state.lookedTo tokens index token stop).1.handled ↔
      inner ∈ state.handled ∨ (index < inner ∧ inner < stop) ∧ memberAt tokens inner := by
  refine lookedTo_dealt (fun inner => memberAt tokens inner) (fun stop after other => ?_) stop
  rw [lookedTo_succ tokens token state after, aheadStep, if_pos reads]
  exact mem_fileStep_handled

theorem viewLook_step (reads : token.reads "VIEW") (state : State) (after : index < stop) :
    state.lookedTo tokens index token (stop + 1) =
      viewStep tokens (state.structureMade tokens index token).2
        (state.lookedTo tokens index token stop) stop := by
  have noFile : token.reads "FILE" = false := reads_other reads (by decide)
  rw [lookedTo_succ tokens token state after, aheadStep, noFile, if_neg Bool.false_ne_true,
    if_pos reads]

theorem viewLook_joins (reads : token.reads "VIEW") (state : State) (after : index < stop) :
    (state.lookedTo tokens index token stop).2.length = joinsOpen tokens index stop := by
  induction after with
  | refl => simp [lookedTo_start tokens token state (Nat.le_refl _), joinsOpen]
  | @step stop after ih =>
    rw [viewLook_step reads state after, (viewStep_deals ..).1, ih, joinsOpen_succ after]

theorem viewLook_dealt (reads : token.reads "VIEW") (state : State) (stop : Nat) :
    inner ∈ (state.lookedTo tokens index token stop).1.handled ↔
      inner ∈ state.handled ∨ (index < inner ∧ inner < stop) ∧
        (shownAt tokens inner ∨ tokens.endsAt inner ∧ 0 < joinsOpen tokens index inner) := by
  refine lookedTo_dealt (fun inner => shownAt tokens inner ∨
    tokens.endsAt inner ∧ 0 < joinsOpen tokens index inner) (fun stop after other => ?_) stop
  rw [viewLook_step reads state after, (viewStep_deals ..).2, viewLook_joins reads state after]

/-! ### The pass -/

/-- The token at the index is a file or a view, which looks ahead. -/
def looksAt (tokens : Tokens) (index : Nat) : Bool :=
  tokens[index]?.any fun token =>
    token.kind == .structureWord && (token.reads "FILE" || token.reads "VIEW")

theorem DealtBy.looksAt (dealt : DealtBy tokens outer inner) : looksAt tokens outer := by
  cases dealt with
  | file found word reads | view found word reads => simp [State.looksAt, found, word, reads]

theorem dealtBy_file (found : tokens[outer]? = some opener) (word : opener.kind = .structureWord)
    (reads : opener.reads "FILE") : DealtBy tokens outer inner ↔
      inner ∈ blockIndices tokens outer ∧ memberAt tokens inner := by
  refine ⟨fun dealt => ?_, fun ⟨inside, member⟩ => .file found word reads inside member⟩
  cases dealt with
  | file _ _ _ inside member => exact ⟨inside, member⟩
  | view again _ readsView =>
    cases again.symm.trans found
    have noView : opener.reads "VIEW" = false := reads_other reads (by decide)
    simp [noView] at readsView

theorem dealtBy_view (found : tokens[outer]? = some opener) (word : opener.kind = .structureWord)
    (reads : opener.reads "VIEW") : DealtBy tokens outer inner ↔
      inner ∈ blockIndices tokens outer ∧
        (shownAt tokens inner ∨ tokens.endsAt inner ∧ 0 < joinsOpen tokens outer inner) := by
  refine ⟨fun dealt => ?_, fun ⟨inside, deals⟩ => .view found word reads inside deals⟩
  cases dealt with
  | file again _ readsFile =>
    cases again.symm.trans found
    have noFile : opener.reads "FILE" = false := reads_other reads (by decide)
    simp [noFile] at readsFile
  | view _ _ _ inside deals => exact ⟨inside, deals⟩

/-- A token that is no file and no view deals with no other. -/
theorem Sound.dispatch_handled (sound : state.Sound) (found : tokens[index]? = some token)
    (blind : ¬looksAt tokens index) :
    (state.dispatch tokens index token).handled = state.handled := by
  have acts := sound.acts found
  generalize state.dispatch tokens index token = after at acts
  cases acts with
  | files neutral filed => exact filed.adds.handled
  | block opens silent => rfl
  | record opens word loud recorded => rfl
  | declares opens word loud fresh =>
    have looks : ¬(token.reads "FILE" ∨ token.reads "VIEW") := by
      simpa [looksAt, found, word] using blind
    rw [openStructure_eq]
    exact (furnish_marks looks ..).1.trans (structureMade_files ..).adds.handled
  | globalBody word use => exact atRoot_handled ..
  | enclosedBody word use => rfl
  | method word use =>
    rw [openMethod_eq]
    exact (atMethods_adds ..).handled.trans (shut_handled ..)
  | routine word =>
    rw [onRoutine_eq]
    dsimp only
    split <;> exact shut_handled ..
  | marker word =>
    obtain ⟨_, _, _, _, same⟩ := onMarker_frame token state
    rw [same]
  | loopStop stops =>
    obtain ⟨_, same⟩ := onLoopTerminator_frame tokens index state
    rw [same]
  | ends word =>
    obtain ⟨_, _, _, _, same⟩ := onEnd_frame token state
    rw [same]

/-- At its turn a token deals with what its look ahead deals with. -/
theorem handled_after_succ (tokens : Tokens) (turn inner : Nat) :
    inner ∈ (State.after tokens (turn + 1)).handled ↔
      inner ∈ (State.after tokens turn).handled ∨ DealtBy tokens turn inner := by
  by_cases look : looksAt tokens turn
  · -- No look ahead deals with a file or a view, so that its own look is made at its turn.
    obtain ⟨token, found, words⟩ := (Option.any_eq_true ..).mp look
    simp only [Bool.and_eq_true, beq_iff_eq, Bool.or_eq_true] at words
    obtain ⟨word, reads⟩ := words
    rw [(opener_dispatches found word reads).walks word reads,
      ← (reach_settles tokens (State.after tokens turn) token).handled]
    rcases reads with reads | reads
    · rw [dealtBy_file found word reads, mem_blockIndices]
      exact fileLook_dealt reads ..
    · rw [dealtBy_view found word reads, mem_blockIndices]
      exact viewLook_dealt reads ..
  · rw [or_iff_left fun dealt => look dealt.looksAt]
    rcases after_succ_cases tokens turn with same | ⟨token, same⟩ | ⟨token, state, here, same⟩
    · rw [same]
    · rw [same, (reach_settles ..).handled]
    · rw [same, here.sound.dispatch_handled here.found look, here.reached,
        (reach_settles ..).handled]

/-- A token is dealt with before a turn exactly when the look ahead of a token before deals with
it. -/
theorem mem_handled_iff (tokens : Tokens) (count inner : Nat) :
    inner ∈ (State.after tokens count).handled ↔ ∃ outer < count, DealtBy tokens outer inner := by
  induction count with
  | zero => simp
  | succ count ih =>
    rw [handled_after_succ, ih]
    constructor
    · rintro (⟨outer, before, dealt⟩ | dealt)
      · exact ⟨outer, Nat.lt_succ_of_lt before, dealt⟩
      · exact ⟨count, Nat.lt_succ_self _, dealt⟩
    · rintro ⟨outer, before, dealt⟩
      rcases Nat.lt_succ_iff_lt_or_eq.mp before with before | rfl
      · exact .inl ⟨outer, before, dealt⟩
      · exact .inr dealt

end Clarion.Outline.State
