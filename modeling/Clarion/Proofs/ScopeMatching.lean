import Clarion.Proofs.BlockMatching
import Clarion.Proofs.ScopeStack

/-! The outline keeps two stacks, one for the scopes of structures and one for executable blocks,
where the matching of blocks keeps one. In a document of declarations alone the two agree exactly
when every end closes a scope if and only if the innermost open block is one. -/
namespace Clarion.Outline.State

variable {state : State} {tokens : Tokens} {index : Nat} {token : Token}

/-! ### Documents of declarations -/

/-- No closing line is known, and there is neither a procedure nor a routine. -/
structure Declarative (tokens : Tokens) : Prop where
  openEnded : ∀ token ∈ tokens, token.finishesAt = none
  noProcedure : ∀ token ∈ tokens, token.kind ≠ .procedure
  noRoutine : ∀ token ∈ tokens,
    ¬(token.kind = .routine ∨ token.kind = .keyword ∧ token.reads "ROUTINE")

/-- Every open scope is that of a structure. -/
def Structural (state : State) : Prop :=
  ∀ scope ∈ state.scopes, state.scopeKindIs (fun kind => !kind.isCallable && kind != .routine) scope

/-- How a token of such a document moves the two stacks. -/
inductive Moves (tokens : Tokens) (index : Nat) (token : Token) (scopes : Scopes)
    (blocks : List Token) (after : State) : Prop where
  | opensScope (scope : Scope) (opens : tokens.opensBlock index) (word : token.kind = .structureWord)
    (loud : token.readsOneOf Tokens.silentWords = false)
    (pushed : after.scopes = scopes ++ [scope]) (kept : after.openBlocks = blocks)
  | opensBlock (opens : tokens.opensBlock index) (silent : token.readsOneOf Tokens.silentWords)
    (kept : after.scopes = scopes) (pushed : after.openBlocks = token :: blocks)
  | closesScope (scope : Scope) (word : token.kind = .endStatement) (noBlock : blocks = [])
    (popped : scopes = after.scopes ++ [scope]) (kept : after.openBlocks = blocks)
  | closesBlock (block : Token) (closes : tokens.closesBlock index block)
    (plain : tokens.opensBlock index = false) (kept : after.scopes = scopes)
    (popped : blocks = block :: after.openBlocks)
  | rests (plain : tokens.opensBlock index = false)
    (ends : token.kind = .endStatement → blocks = [] ∧ scopes = [])
    (stays : ∀ block ∈ blocks.head?, tokens.closesBlock index block = false)
    (kept : after.scopes = scopes) (still : after.openBlocks = blocks)

theorem Neutral.closesBlock (neutral : Neutral tokens index token)
    (found : tokens[index]? = some token) (block : Token) :
    tokens.closesBlock index block = false := by
  simp [Tokens.closesBlock, found, neutral.ends, neutral.stops]

/-- A condition that closes a loop neither opens a block nor ends one. -/
theorem loopStop_plain (found : tokens[index]? = some token)
    (stops : tokens.isLoopTerminator index) :
    tokens.opensBlock index = false ∧ token.kind ≠ .endStatement := by
  simp only [Tokens.isLoopTerminator, found, Bool.and_eq_true, beq_iff_eq, Bool.or_eq_true] at stops
  obtain ⟨⟨word, reads⟩, -⟩ := stops
  refine ⟨?_, by simp [word]⟩
  simp only [Tokens.opensBlock, found, word]
  rcases reads with reads | reads <;> exact readsOneOf_of_reads reads (by decide)

/-- The closing condition of a loop closes the innermost executable block if that is a loop. -/
theorem onLoopTerminator_cases (tokens : Tokens) (index : Nat) (state : State) :
    (∃ block outer, state.openBlocks = block :: outer ∧ tokens.closesBlock index block ∧
      state.onLoopTerminator tokens index = { state with openBlocks := outer }) ∨
    ((∀ block ∈ state.openBlocks.head?, tokens.closesBlock index block = false) ∧
      state.onLoopTerminator tokens index = state) := by
  unfold onLoopTerminator
  cases state.openBlocks with
  | nil => exact .inr ⟨by simp, rfl⟩
  | cons block outer =>
    cases closes : tokens.closesBlock index block with
    | true => exact .inl ⟨block, outer, rfl, closes, by simp [closes]⟩
    | false => exact .inr ⟨by simp [closes], by simp [closes]⟩

theorem openStructure_openBlocks (tokens : Tokens) (index : Nat) (token : Token) (state : State) :
    (state.openStructure tokens index token).openBlocks = state.openBlocks := by
  rw [openStructure_eq]
  exact (furnish_furnishes ..).openBlocks.trans
    (structureMade_files tokens index token state).adds.openBlocks

/-- The innermost scope of such a document may close at an end. -/
theorem Structural.closesAtEnd (structural : state.Structural) (openEnded : state.OpenEnded)
    {top : Scope} (last : state.scopes.getLast? = some top) : state.ClosesAtEnd top :=
  ⟨openEnded top (List.mem_of_getLast? last), structural top (List.mem_of_getLast? last)⟩

/-- A token that opens no block opens no scope. -/
theorem Moves.shrinks {scopes : Scopes} {blocks : List Token} {after : State}
    (moves : Moves tokens index token scopes blocks after)
    (noOpener : tokens.opensBlock index = false) : ∀ scope ∈ after.scopes, scope ∈ scopes := by
  intro scope isOpen
  cases moves with
  | opensScope _ opens _ _ _ _ => simp [noOpener] at opens
  | opensBlock opens _ _ _ => simp [noOpener] at opens
  | closesScope _ _ _ popped _ =>
    rw [popped]
    exact List.mem_append_left _ isOpen
  | closesBlock _ _ _ kept _ => exact kept ▸ isOpen
  | rests _ _ _ kept _ => exact kept ▸ isOpen

theorem Structural.keep {after : State} (structural : state.Structural) (sound : state.Sound)
    (grows : state.arena.Grows after.arena) (kept : ∀ scope ∈ after.scopes, scope ∈ state.scopes) :
    after.Structural := by
  intro scope isOpen
  have old := kept scope isOpen
  rw [scopeKindIs, grows.kind?_eq (sound.scopes scope old)]
  exact structural scope old

theorem Structural.push {after : State} (structural : state.Structural) (sound : state.Sound)
    (grows : state.arena.Grows after.arena) {scope : Scope} {kind : Kind}
    (pushed : after.scopes = state.scopes ++ [scope])
    (found : after.arena.kind? scope.node = some kind)
    (inner : kind.isCallable = false ∧ kind ≠ .routine) : after.Structural := by
  intro other isOpen
  rw [pushed] at isOpen
  rcases List.mem_append.mp isOpen with old | fresh
  · rw [scopeKindIs, grows.kind?_eq (sound.scopes other old)]
    exact structural other old
  · rw [List.mem_singleton.mp fresh]
    simp [scopeKindIs, found, inner]

theorem onLoopTerminator_moves (found : tokens[index]? = some token)
    (stops : tokens.isLoopTerminator index) (state : State) :
    Moves tokens index token state.scopes state.openBlocks
      (state.onLoopTerminator tokens index) := by
  obtain ⟨noOpener, noEnd⟩ := loopStop_plain found stops
  rcases onLoopTerminator_cases tokens index state with ⟨block, outer, blocks, closes, same⟩ |
    ⟨stays, same⟩
  · rw [same]
    exact .closesBlock block closes noOpener rfl blocks
  · rw [same]
    exact .rests noOpener (fun ends => absurd ends noEnd) stays rfl rfl

/-- An end closes a block if there is one, else a scope if there is one. -/
theorem onEnd_moves (openEnded : state.OpenEnded) (structural : state.Structural)
    (found : tokens[index]? = some token) (word : token.kind = .endStatement) :
    Moves tokens index token state.scopes state.openBlocks (state.onEnd token) := by
  have ends : tokens.endsAt index := by simp [Tokens.endsAt_eq found, word]
  have noOpener := Tokens.opensBlock_end ends
  rcases onEnd_cases token state with ⟨block, outer, blocks, same⟩ | ⟨none, stays, same⟩ |
    ⟨none, top, last, closes, same⟩
  · rw [same]
    exact .closesBlock block (Tokens.closesBlock_end ends block) noOpener rfl blocks
  · have noScope : state.scopes = [] := by
      rw [← List.getLast?_eq_none_iff, Option.eq_none_iff_forall_ne_some]
      intro top last
      exact stays top last (structural.closesAtEnd openEnded last)
    rw [same]
    exact .rests noOpener (fun _ => ⟨none, noScope⟩) (by simp [none]) rfl rfl
  · rw [same]
    exact .closesScope top word none (List.dropLast_append_getLast? top last).symm rfl

theorem dispatch_moves (plain : Declarative tokens) (sound : state.Sound)
    (records : ∀ entry ∈ state.prebuilt, state.arena.kind? entry.2 = some .structureDecl)
    (openEnded : state.OpenEnded) (structural : state.Structural)
    (found : tokens[index]? = some token) :
    Moves tokens index token state.scopes state.openBlocks (state.dispatch tokens index token) ∧
      (state.dispatch tokens index token).Structural := by
  have member := List.mem_of_getElem? found
  have grows := (sound.dispatch found).2
  have acts := sound.acts found
  generalize state.dispatch tokens index token = after at acts grows
  have rests (neutral : Neutral tokens index token) (scopes : after.scopes = state.scopes)
      (blocks : after.openBlocks = state.openBlocks) :
      Moves tokens index token state.scopes state.openBlocks after :=
    .rests neutral.opens (fun ends => absurd ends neutral.ends)
      (fun block _ => neutral.closesBlock found block) scopes blocks
  cases acts with
  | files neutral filed =>
    have moves := rests neutral filed.adds.scopes filed.adds.openBlocks
    exact ⟨moves, structural.keep sound grows (moves.shrinks neutral.opens)⟩
  | block opens silent =>
    exact ⟨.opensBlock opens silent rfl rfl, structural.keep sound grows fun _ => id⟩
  | @record node opens word loud recorded =>
    have kind := records (index, node) (mem_of_lookup recorded)
    exact ⟨.opensScope _ opens word loud rfl rfl,
      structural.push sound grows rfl kind ⟨rfl, by decide⟩⟩
  | declares opens word loud fresh =>
    obtain ⟨scope, scopes, -, -, kind, -⟩ := openStructure_opens tokens index token state
    exact ⟨.opensScope scope opens word loud scopes (openStructure_openBlocks ..),
      structural.push sound grows scopes kind (Kind.ofStructureWord_inner _)⟩
  | globalBody word use => exact absurd word (plain.noProcedure token member)
  | enclosedBody word use => exact absurd word (plain.noProcedure token member)
  | method word use => exact absurd word (plain.noProcedure token member)
  | routine word => exact absurd word (plain.noRoutine token member)
  | marker word =>
    have neutral := neutral_of_kind found (by simp [word]) (by simp [word]) (by simp [word])
    obtain ⟨_, _, _, _, same⟩ := onMarker_frame token state
    have moves := rests neutral (by rw [same]) (by rw [same])
    exact ⟨moves, structural.keep sound grows (moves.shrinks neutral.opens)⟩
  | loopStop stops =>
    have moves := onLoopTerminator_moves found stops state
    exact ⟨moves, structural.keep sound grows (moves.shrinks (loopStop_plain found stops).1)⟩
  | ends word =>
    have ends : tokens.endsAt index := by simp [Tokens.endsAt_eq found, word]
    have moves := onEnd_moves openEnded structural found word
    exact ⟨moves, structural.keep sound grows (moves.shrinks (Tokens.opensBlock_end ends))⟩

/-! ### The pass over such a document -/

theorem startsGlobal_onLine (noProcedure : ∀ token ∈ tokens, token.kind ≠ .procedure) (line : Nat) :
    Scopes.startsGlobal (tokens.onLine line) = false := by
  rw [Scopes.startsGlobal, List.any_eq_false]
  intro token member
  have inside : token ∈ tokens := by
    unfold Tokens.onLine at member
    split at member
    · exact List.mem_of_mem_take (List.mem_of_mem_drop member)
    · simp at member
  simp [noProcedure token inside]

/-- Coming to a token of such a document changes nothing that an end looks at. -/
theorem Declarative.reach (plain : Declarative tokens) (openEnded : state.OpenEnded)
    (token : Token) :
    (state.reach tokens token).scopes = state.scopes ∧
      (state.reach tokens token).openBlocks = state.openBlocks ∧
      (state.reach tokens token).handled = state.handled := by
  refine ⟨openEnded.reach_same fun enters => ?_, ?_, ?_⟩
  · simp [EntersGlobal, startsGlobal_onLine plain.noProcedure] at enters
  · rw [(reach_settles tokens state token).frame]
  · rw [(reach_settles tokens state token).frame]

/-- A token moves the two stacks unless a look ahead has dealt with it, and then changes neither. -/
theorem Declarative.step (plain : Declarative tokens) (structural : (after tokens index).Structural)
    (found : tokens[index]? = some token) :
    (index ∈ (after tokens index).handled ∧
        (after tokens (index + 1)).scopes = (after tokens index).scopes ∧
        (after tokens (index + 1)).openBlocks = (after tokens index).openBlocks ∨
      index ∉ (after tokens index).handled ∧
        Moves tokens index token (after tokens index).scopes (after tokens index).openBlocks
          (after tokens (index + 1))) ∧
    (after tokens (index + 1)).Structural := by
  have openEnded := openEnded_after plain.openEnded index
  obtain ⟨scopes, blocks, handled⟩ := plain.reach openEnded token
  have sound := sound_after tokens index
  have settles := reach_settles tokens (after tokens index) token
  have reached := structural.keep sound settles.grows fun scope isOpen => scopes ▸ isOpen
  rw [State.after_succ, step_eq found, handled]
  by_cases dealt : index ∈ (after tokens index).handled
  · rw [if_pos (by simpa using dealt)]
    exact ⟨.inl ⟨dealt, scopes, blocks⟩, reached⟩
  · rw [if_neg (by simpa using dealt), ← scopes, ← blocks]
    have records : ∀ entry ∈ ((after tokens index).reach tokens token).prebuilt,
        ((after tokens index).reach tokens token).arena.kind? entry.2 = some .structureDecl := by
      intro entry member
      rw [settles.prebuilt] at member
      exact settles.grows.kind? (prebuilt_after tokens index member).1
    obtain ⟨moves, still⟩ := dispatch_moves plain (sound.reach tokens token) records
      (fun scope isOpen => openEnded scope (scopes ▸ isOpen)) reached found
    exact ⟨.inr ⟨dealt, moves⟩, still⟩

theorem Declarative.structural (plain : Declarative tokens) (count : Nat) :
    (after tokens count).Structural := by
  induction count with
  | zero => simp [Structural]
  | succ count ih =>
    cases found : tokens[count]? with
    | none =>
      rw [State.after_succ, step_none found]
      exact ih
    | some token => exact (plain.step ih found).2

/-- The token opens a scope. -/
def OpensScope (tokens : Tokens) (index : Nat) : Prop :=
  ∃ scope, (after tokens (index + 1)).scopes = (after tokens index).scopes ++ [scope]

/-- An end that nothing has dealt with meets an open scope and no open executable block. -/
structure EndsScope (tokens : Tokens) (index : Nat) : Prop where
  word : tokens.endsAt index
  fresh : index ∉ (after tokens index).handled
  noBlock : (after tokens index).openBlocks = []
  someScope : (after tokens index).scopes ≠ []

/-- A declaration that opens a block. -/
structure Declares (tokens : Tokens) (index : Nat) : Prop where
  opens : tokens.opensBlock index
  loud : ∀ token, tokens[index]? = some token → token.readsOneOf Tokens.silentWords = false

/-- A token of such a document opens a scope, closes the innermost one, or leaves them alone. -/
theorem Declarative.scopes_cases (plain : Declarative tokens) (index : Nat) :
    (OpensScope tokens index ∧ Declares tokens index) ∨
    (EndsScope tokens index ∧ ∃ scope,
      (after tokens index).scopes = (after tokens (index + 1)).scopes ++ [scope]) ∨
    (¬EndsScope tokens index ∧
      (after tokens (index + 1)).scopes = (after tokens index).scopes) := by
  cases found : tokens[index]? with
  | none =>
    refine .inr (.inr ⟨fun ends => by simpa [Tokens.endsAt, found] using ends.word, ?_⟩)
    rw [State.after_succ, step_none found]
  | some token =>
    rcases (plain.step (plain.structural index) found).1 with ⟨dealt, same, -⟩ | ⟨fresh, moves⟩
    · exact .inr (.inr ⟨fun ends => ends.fresh dealt, same⟩)
    · have notEnding (opens : tokens.opensBlock index) : ¬EndsScope tokens index := by
        intro ends
        simp [Tokens.opensBlock_end ends.word] at opens
      cases moves with
      | opensScope scope opens word loud pushed kept =>
        refine .inl ⟨⟨scope, pushed⟩, opens, fun other here => ?_⟩
        cases found.symm.trans here
        exact loud
      | opensBlock opens silent kept pushed => exact .inr (.inr ⟨notEnding opens, kept⟩)
      | closesScope scope word noBlock popped kept =>
        refine .inr (.inl ⟨⟨by simp [Tokens.endsAt_eq found, word], fresh, noBlock, ?_⟩, scope, popped⟩)
        simp [popped]
      | closesBlock block closes _ kept popped =>
        refine .inr (.inr ⟨fun ends => ?_, kept⟩)
        simp [ends.noBlock] at popped
      | rests _ ends stays kept still =>
        refine .inr (.inr ⟨fun closes => ?_, kept⟩)
        exact closes.someScope (ends (by simpa [Tokens.endsAt_eq found] using closes.word)).2

theorem OpensScope.lt_length (opens : OpensScope tokens index) :
    (after tokens index).scopes.length < (after tokens (index + 1)).scopes.length := by
  obtain ⟨scope, pushed⟩ := opens
  simp [pushed]

theorem Declarative.declares (plain : Declarative tokens) (opens : OpensScope tokens index) :
    Declares tokens index := by
  have longer := opens.lt_length
  rcases plain.scopes_cases index with ⟨-, declares⟩ | ⟨-, _, popped⟩ | ⟨-, same⟩
  · exact declares
  · rw [popped, List.length_append, List.length_singleton] at longer
    omega
  · rw [same] at longer
    omega

/-! ### The two ways to match -/

/-- The token at `closer` closes the scope opened at `opener`, which was open all the while. -/
structure ClosesScope (tokens : Tokens) (opener closer : Nat) : Prop where
  later : opener < closer
  isOpen : ∀ count, opener < count → count ≤ closer →
    (after tokens (opener + 1)).scopes <+: (after tokens count).scopes
  closed : (after tokens (closer + 1)).scopes = (after tokens opener).scopes

/-- The scope opened at the index stays open until the document ends. -/
def LastsToEnd (tokens : Tokens) (opener : Nat) : Prop :=
  ∀ count, opener < count → count ≤ tokens.length →
    (after tokens (opener + 1)).scopes <+: (after tokens count).scopes

/-- Scopes close where the matching of blocks closes them, and stay open where it leaves them. -/
structure Agrees (tokens : Tokens) : Prop where
  closes : ∀ opener, OpensScope tokens opener → ∀ closer,
    ClosesScope tokens opener closer ↔ tokens.Pairs opener closer
  stays : ∀ opener, OpensScope tokens opener →
    (LastsToEnd tokens opener ↔ opener ∈ tokens.openersAt tokens.length)

/-- An end is left to a scope exactly when the innermost open block is one. -/
def Aligned (tokens : Tokens) : Prop :=
  ∀ index, tokens.endsAt index →
    ((∃ opener ∈ (tokens.openersAt index).head?, OpensScope tokens opener) ↔
      EndsScope tokens index)

/-- The scopes are those opened by the blocks, in their order. -/
inductive Chain (tokens : Tokens) : List Nat → Scopes → Prop where
  | nil : Chain tokens [] []
  | scope {opener : Nat} {outer : List Nat} (opens : OpensScope tokens opener)
    (below : Chain tokens outer (after tokens opener).scopes) :
    Chain tokens (opener :: outer) (after tokens (opener + 1)).scopes
  | block {opener : Nat} {outer : List Nat} {scopes : Scopes} (silent : ¬OpensScope tokens opener)
    (below : Chain tokens outer scopes) : Chain tokens (opener :: outer) scopes

theorem Chain.unique {openers : List Nat} {scopes others : Scopes}
    (first : Chain tokens openers scopes) (second : Chain tokens openers others) :
    scopes = others := by
  induction first with
  | nil =>
    cases second
    rfl
  | scope opens below ih =>
    cases second with
    | scope _ _ => rfl
    | block silent _ => exact absurd opens silent
  | block silent below ih =>
    cases second with
    | scope opens _ => exact absurd opens silent
    | block _ others => exact ih others

theorem Chain.initial {openers : List Nat} {scopes : Scopes} {opener : Nat}
    (chain : Chain tokens openers scopes) (member : opener ∈ openers)
    (opens : OpensScope tokens opener) : (after tokens (opener + 1)).scopes <+: scopes := by
  induction chain with
  | nil => simp at member
  | @scope inner outer inside below ih =>
    rcases List.mem_cons.mp member with rfl | member
    · exact List.prefix_refl _
    · obtain ⟨scope, pushed⟩ := inside
      rw [pushed]
      exact (ih member).trans (List.prefix_append _ _)
  | @block inner outer scopes silent below ih =>
    rcases List.mem_cons.mp member with rfl | member
    · exact absurd opens silent
    · exact ih member

theorem Chain.below_scope {opener : Nat} {outer : List Nat} {scopes : Scopes}
    (chain : Chain tokens (opener :: outer) scopes) (opens : OpensScope tokens opener) :
    scopes = (after tokens (opener + 1)).scopes ∧
      Chain tokens outer (after tokens opener).scopes := by
  cases chain with
  | scope _ below => exact ⟨rfl, below⟩
  | block silent _ => exact absurd opens silent

theorem Chain.below_block {opener : Nat} {outer : List Nat} {scopes : Scopes}
    (chain : Chain tokens (opener :: outer) scopes) (silent : ¬OpensScope tokens opener) :
    Chain tokens outer scopes := by
  cases chain with
  | scope opens _ => exact absurd opens silent
  | block _ below => exact below

/-- A scope is no loop, so only an end closes it. -/
theorem Declares.closesAt {opener : Nat} (declares : Declares tokens opener)
    (closes : tokens.closesAt index opener) : tokens.endsAt index := by
  obtain ⟨start, found⟩ := Tokens.token_of_opens declares.opens
  have loud := declares.loud start found
  rw [Tokens.closesAt_eq found, Tokens.closesBlock, Bool.or_eq_true] at closes
  rcases closes with ends | loops
  · exact ends
  · have reads := ((Bool.and_eq_true _ _).mp loops).1
    have silent : start.readsOneOf Tokens.silentWords :=
      List.any_eq_true.mpr ⟨"LOOP", by decide, reads⟩
    simp [loud] at silent

/-- While every end is left to the right stack, the scopes are those of the open blocks. -/
theorem Aligned.chain (aligned : Aligned tokens) (plain : Declarative tokens) (count : Nat) :
    Chain tokens (tokens.openersAt count) (after tokens count).scopes := by
  induction count with
  | zero => exact .nil
  | succ index ih =>
    rcases plain.scopes_cases index with ⟨opens, declares⟩ | ⟨ends, scope, popped⟩ | ⟨noEnd, same⟩
    · rw [Tokens.openersAt_opens declares.opens]
      exact .scope opens ih
    · obtain ⟨opener, top, opens⟩ := (aligned index ends.word).mpr ends
      obtain ⟨outer, stack⟩ := List.head?_eq_some_iff.mp top
      have pairs := Tokens.pairs_of_end ends.word stack
      rw [pairs] at ih
      obtain ⟨shape, below⟩ := ih.below_scope opens
      obtain ⟨opened, pushed⟩ := opens
      rw [popped, pushed] at shape
      rw [(List.append_inj' shape rfl).1]
      exact below
    · rw [same]
      rcases Tokens.openersAt_cases tokens index with ⟨opens, pushed⟩ | ⟨opener, _, pairs, closes⟩ |
        ⟨_, stays, _⟩
      · rw [pushed]
        refine .block (fun opensScope => ?_) ih
        exact Nat.ne_of_lt opensScope.lt_length (by rw [same])
      · rw [pairs] at ih
        refine ih.below_block fun opens => noEnd ?_
        have word := (plain.declares opens).closesAt closes
        exact (aligned index word).mp ⟨opener, by rw [pairs]; rfl, opens⟩
      · rw [stays]
        exact ih

theorem OpensScope.not_initial (opens : OpensScope tokens index) :
    ¬(after tokens (index + 1)).scopes <+: (after tokens index).scopes :=
  fun initial => Nat.not_lt_of_le initial.length_le opens.lt_length

theorem Aligned.agrees (aligned : Aligned tokens) (plain : Declarative tokens) :
    Agrees tokens := by
  have chain := aligned.chain plain
  have initial {opener count : Nat} (opens : OpensScope tokens opener)
      (member : opener ∈ tokens.openersAt count) :
      (after tokens (opener + 1)).scopes <+: (after tokens count).scopes :=
    (chain count).initial member opens
  have closes {opener closer : Nat} (opens : OpensScope tokens opener)
      (pairs : tokens.Pairs opener closer) : ClosesScope tokens opener closer := by
    refine ⟨pairs.lt, ?_, ?_⟩
    · intro count after before
      apply initial opens
      exact Tokens.mem_openersAt_earlier (pairs ▸ List.mem_cons_self) after before
    · have whole := chain closer
      rw [pairs] at whole
      exact (chain (closer + 1)).unique (whole.below_scope opens).2
  have starts {opener : Nat} (opens : OpensScope tokens opener) :
      opener ∈ tokens.openersAt (opener + 1) := by
    rw [Tokens.openersAt_opens (plain.declares opens).opens]
    exact List.mem_cons_self
  constructor
  · intro opener opens closer
    constructor
    · intro closed
      have gone : opener ∉ tokens.openersAt (closer + 1) := by
        intro member
        exact opens.not_initial (closed.closed ▸ initial opens member)
      obtain ⟨first, after, before, pairs⟩ :=
        Tokens.exists_pairs (starts opens) (Nat.succ_le_succ (Nat.le_of_lt closed.later)) gone
      rcases Nat.eq_or_lt_of_le (Nat.le_of_lt_succ before) with rfl | earlier
      · exact pairs
      · have still := closed.isOpen (first + 1) (Nat.lt_succ_of_lt after) earlier
        exact absurd ((closes opens pairs).closed ▸ still) opens.not_initial
    · exact closes opens
  · intro opener opens
    constructor
    · intro stays
      by_contra gone
      obtain ⟨token, found⟩ := Tokens.token_of_opens (plain.declares opens).opens
      have bound := (List.getElem?_eq_some_iff.mp found).1
      obtain ⟨closer, after, before, pairs⟩ := Tokens.exists_pairs (starts opens) bound gone
      have still := stays (closer + 1) (Nat.lt_succ_of_lt after) before
      exact absurd ((closes opens pairs).closed ▸ still) opens.not_initial
    · intro member count after before
      exact initial opens (Tokens.mem_openersAt_earlier member after before)

/-- Every part of the stack of scopes that is not empty was left by the token that opened the scope
on top of it, and has been there since. -/
theorem Declarative.exists_opener (plain : Declarative tokens) {count : Nat} {scopes : Scopes}
    (part : scopes <+: (after tokens count).scopes) (some : scopes ≠ []) :
    ∃ opener < count, OpensScope tokens opener ∧ (after tokens (opener + 1)).scopes = scopes ∧
      ∀ later, opener < later → later ≤ count → scopes <+: (after tokens later).scopes := by
  induction count with
  | zero => exact absurd (List.prefix_nil.mp part) some
  | succ count ih =>
    have older (part : scopes <+: (after tokens count).scopes)
        (still : scopes <+: (after tokens (count + 1)).scopes) :
        ∃ opener < count + 1, OpensScope tokens opener ∧
          (after tokens (opener + 1)).scopes = scopes ∧
          ∀ later, opener < later → later ≤ count + 1 → scopes <+: (after tokens later).scopes := by
      obtain ⟨opener, before, opens, top, since⟩ := ih part
      refine ⟨opener, Nat.lt_succ_of_lt before, opens, top, ?_⟩
      intro later after order
      rcases Nat.eq_or_lt_of_le order with rfl | earlier
      · exact still
      · exact since later after (Nat.le_of_lt_succ earlier)
    rcases plain.scopes_cases count with ⟨opens, -⟩ | ⟨-, scope, popped⟩ | ⟨-, same⟩
    · obtain ⟨scope, pushed⟩ := opens
      rcases List.prefix_concat_iff.mp (pushed ▸ part) with whole | inside
      · refine ⟨count, Nat.lt_succ_self _, ⟨scope, pushed⟩, pushed.trans whole.symm, ?_⟩
        intro later after order
        rw [Nat.le_antisymm order after]
        exact part
      · exact older inside part
    · exact older (popped ▸ part.trans (List.prefix_append _ _)) part
    · exact older (same ▸ part) part

theorem Agrees.aligned (agrees : Agrees tokens) (plain : Declarative tokens) : Aligned tokens := by
  intro index ends
  constructor
  · rintro ⟨opener, top, opens⟩
    obtain ⟨outer, stack⟩ := List.head?_eq_some_iff.mp top
    have closed := (agrees.closes opener opens index).mpr (Tokens.pairs_of_end ends stack)
    rcases plain.scopes_cases index with ⟨-, declares⟩ | ⟨endsScope, -⟩ | ⟨-, same⟩
    · exact absurd declares.opens (by simp [Tokens.opensBlock_end ends])
    · exact endsScope
    · have still := closed.isOpen index closed.later (Nat.le_refl _)
      rw [← same, closed.closed] at still
      exact absurd still opens.not_initial
  · intro endsScope
    rcases plain.scopes_cases index with ⟨-, declares⟩ | ⟨-, scope, popped⟩ | ⟨noEnd, -⟩
    · exact absurd declares.opens (by simp [Tokens.opensBlock_end ends])
    · obtain ⟨opener, before, opens, top, since⟩ :=
        plain.exists_opener (List.prefix_refl _) endsScope.someScope
      obtain ⟨opened, pushed⟩ := opens
      have closed : (after tokens (index + 1)).scopes = (after tokens opener).scopes := by
        rw [popped, pushed] at top
        exact ((List.append_inj' top rfl).1).symm
      have pairs := (agrees.closes opener ⟨opened, pushed⟩ index).mp
        ⟨before, fun count after order => top ▸ since count after order, closed⟩
      exact ⟨opener, by rw [pairs]; rfl, opened, pushed⟩
    · exact absurd endsScope noEnd

/-- In a document of declarations, scopes close where the matching of blocks closes them exactly
when every end is left to a scope if and only if the innermost open block is one. The folds of the
document and the ends of its blocks are those of the same matching. -/
theorem scopes_close_as_blocks_iff (plain : Declarative tokens) :
    (Agrees tokens ↔ Aligned tokens) ∧
    (∀ fold, fold ∈ Fold.blocks tokens ↔
      ∃ opener closer, tokens.Pairs opener closer ∧ Fold.Spans tokens opener closer fold) ∧
    ∀ opener, tokens.opensBlock opener →
      (∃ closer, tokens.Pairs opener closer ∧
        tokens.blockEnd opener = tokens.stopAfter closer) ∨
      (opener ∈ tokens.openersAt tokens.length ∧ tokens.blockEnd opener = tokens.length) := by
  refine ⟨?_, ?_, ?_⟩
  · constructor
    · intro agrees
      exact agrees.aligned plain
    · intro aligned
      exact aligned.agrees plain
  · intro fold
    rw [Fold.mem_blocks]
    apply or_iff_left
    rintro ⟨opener, -, start, last, found, known, -⟩
    simp [plain.openEnded start (List.mem_of_getElem? found)] at known
  · intro opener opens
    obtain ⟨token, found⟩ := Tokens.token_of_opens opens
    exact Tokens.blockEnd_pairs opens found (plain.openEnded token (List.mem_of_getElem? found))

/-- A report with a detail inside its break. -/
def breakWithDetail : Tokens :=
  [{ kind := .label, value := "Rep", line := 0, start := 0 },
    { kind := .structureWord, value := "REPORT", line := 0, start := 8 },
    { kind := .structureWord, value := "BREAK", line := 1, start := 2 },
    { kind := .label, value := "Head", line := 2, start := 0 },
    { kind := .structureWord, value := "HEADER", line := 2, start := 8 },
    { kind := .endStatement, value := "END", line := 3, start := 2 },
    { kind := .label, value := "Line", line := 4, start := 0 },
    { kind := .structureWord, value := "DETAIL", line := 4, start := 8 },
    { kind := .endStatement, value := "END", line := 5, start := 2 },
    { kind := .endStatement, value := "END", line := 6, start := 2 },
    { kind := .endStatement, value := "END", line := 7, start := 2 }]

private theorem breakWithDetail_declarative : Declarative breakWithDetail :=
  ⟨by decide +kernel, by decide +kernel, by decide +kernel⟩

private theorem header_opens : OpensScope breakWithDetail 4 :=
  ⟨⟨1, none, .ordinaryStructure⟩, by decide +kernel⟩

private theorem header_pairs : breakWithDetail.Pairs 4 5 := by
  unfold Tokens.Pairs
  decide +kernel

private theorem header_stays : ¬ClosesScope breakWithDetail 4 5 := by
  intro closes
  exact absurd closes.closed (by decide +kernel)

theorem break_with_detail_misaligned :
    Declarative breakWithDetail ∧ ¬Aligned breakWithDetail := by
  refine ⟨breakWithDetail_declarative, fun aligned => header_stays ?_⟩
  have agrees := (scopes_close_as_blocks_iff breakWithDetail_declarative).1.mpr aligned
  exact (agrees.closes 4 header_opens 5).mpr header_pairs

/-- The end of the header closes the break around it, and the header stays open. -/
theorem header_inside_break_stays_open :
    Declarative breakWithDetail ∧
    (∀ token ∈ breakWithDetail, token.kind = .structureWord → ¬token.reads "VIEW") ∧
    OpensScope breakWithDetail 4 ∧ breakWithDetail.Pairs 4 5 ∧ ¬ClosesScope breakWithDetail 4 5 ∧
    ¬Agrees breakWithDetail :=
  ⟨breakWithDetail_declarative, by decide +kernel, header_opens, header_pairs, header_stays,
    fun agrees => header_stays ((agrees.closes 4 header_opens 5).mpr header_pairs)⟩

end Clarion.Outline.State
