import Clarion.Proofs.LookAheadMarks
import Clarion.Proofs.ScopeMatching

/-! A document is layered when no declaration stands inside an executable block and nothing that a
look ahead deals with opens or closes one. Then the two stacks of the outline stand one on top of
the other, and together they are the stack of the matching. -/
namespace Clarion.Outline.State

variable {state : State} {tokens : Tokens} {index : Nat} {token : Token}

/-! ### What a look ahead deals with -/

/-- Without views, only members of files are dealt with ahead. -/
theorem handled_after
    (noView : ∀ token ∈ tokens, token.kind = .structureWord → token.reads "VIEW" = false)
    {count dealt : Nat} (member : dealt ∈ (after tokens count).handled) :
    tokens[dealt]?.any declaresMember := by
  obtain ⟨opener, listed, word, deals⟩ := dealtAhead_of_handled member
  obtain ⟨token, found, deals⟩ := (Option.any_eq_true ..).mp deals
  unfold dealsWith at deals
  split at deals
  · simp [found, deals]
  · simp [noView opener listed word] at deals

/-! ### Layers -/

/-- No declaration stands inside an executable block, there is no view, and no word that declares a
member of a file opens or closes a block. -/
structure Layered (tokens : Tokens) : Prop where
  noView : ∀ token ∈ tokens, token.kind = .structureWord → token.reads "VIEW" = false
  members : ∀ token ∈ tokens, declaresMember token →
    token.kind ≠ .structureWord ∧ token.kind ≠ .endStatement
  outside : ∀ index, Declares tokens index → ∀ opener ∈ tokens.openersAt index,
    Declares tokens opener

/-- What a look ahead deals with takes no part in the matching. -/
theorem Layered.neutral (layered : Layered tokens)
    (found : tokens[index]? = some token) (dealt : index ∈ (after tokens index).handled) :
    Neutral tokens index token := by
  have word : declaresMember token := by
    simpa [found] using handled_after layered.noView dealt
  obtain ⟨noStructure, noEnd⟩ := layered.members token (List.mem_of_getElem? found) word
  by_cases keyword : token.kind = .keyword
  · have reads : ∀ words : List String, words = Tokens.compoundWords ∨ words = ["UNTIL", "WHILE"] →
        token.readsOneOf words = false := by
      simp only [declaresMember, Bool.or_eq_true] at word
      rintro _ (rfl | rfl) <;> rcases word with ((word | word) | word) | word <;>
        exact readsOneOf_of_reads word (by decide)
    refine ⟨?_, noEnd, isLoopTerminator_reads found (reads _ (.inr rfl))⟩
    simp [Tokens.opensBlock, found, keyword, reads _ (.inl rfl)]
  · exact neutral_of_kind found noStructure keyword noEnd

theorem Neutral.openersAt (neutral : Neutral tokens index token)
    (found : tokens[index]? = some token) :
    tokens.openersAt (index + 1) = tokens.openersAt index := by
  rcases Tokens.openersAt_cases tokens index with ⟨opens, -⟩ | ⟨opener, -, pairs, closes⟩ |
    ⟨-, same, -⟩
  · simp [neutral.opens] at opens
  · obtain ⟨start, starts⟩ := Tokens.token_of_opens pairs.opens
    simp [Tokens.closesAt_eq starts, neutral.closesBlock found] at closes
  · exact same

/-- The executable blocks lie on top of the declarations. -/
structure Stacked (tokens : Tokens) (count : Nat) (blocks rest : List Nat) : Prop where
  stack : tokens.openersAt count = blocks ++ rest
  silent : ∀ opener ∈ blocks, ¬Declares tokens opener
  loud : ∀ opener ∈ rest, Declares tokens opener
  openBlocks : (after tokens count).openBlocks = tokens.tokensAt blocks
  scopes : (after tokens count).scopes.length = rest.length

theorem Stacked.innermost {blocks rest : List Nat} {opener : Nat}
    (stacked : Stacked tokens index (opener :: blocks) rest) :
    ∃ start, tokens[opener]? = some start ∧
      (after tokens index).openBlocks = start :: tokens.tokensAt blocks := by
  have member : opener ∈ tokens.openersAt index := by simp [stacked.stack]
  obtain ⟨start, found⟩ := Tokens.token_of_opens (Tokens.opensBlock_of_mem member).2
  exact ⟨start, found, by rw [stacked.openBlocks, Tokens.tokensAt_cons found]⟩

theorem Stacked.blocks_nil {blocks rest : List Nat} (stacked : Stacked tokens index blocks rest)
    (none : (after tokens index).openBlocks = []) : blocks = [] := by
  cases blocks with
  | nil => rfl
  | cons opener blocks =>
    obtain ⟨start, -, shape⟩ := stacked.innermost
    simp [none] at shape

/-- A declaration never opens on top of an executable block. -/
theorem Stacked.opensScope {blocks rest : List Nat} (stacked : Stacked tokens index blocks rest)
    (layered : Layered tokens) (declares : Declares tokens index) {scope : Scope}
    (pushed : (after tokens (index + 1)).scopes = (after tokens index).scopes ++ [scope])
    (kept : (after tokens (index + 1)).openBlocks = (after tokens index).openBlocks) :
    Stacked tokens (index + 1) [] (index :: rest) := by
  obtain rfl : blocks = [] := by
    rw [List.eq_nil_iff_forall_not_mem]
    intro opener member
    refine stacked.silent opener member (layered.outside index declares opener ?_)
    simp [stacked.stack, member]
  refine ⟨?_, by simp, ?_, ?_, ?_⟩
  · rw [Tokens.openersAt_opens declares.opens, stacked.stack]
    rfl
  · exact List.forall_mem_cons.mpr ⟨declares, stacked.loud⟩
  · rw [kept, stacked.openBlocks]
  · simp [pushed, stacked.scopes]

theorem Stacked.opensBlock {blocks rest : List Nat} (stacked : Stacked tokens index blocks rest)
    (found : tokens[index]? = some token) (opens : tokens.opensBlock index)
    (silent : token.readsOneOf Tokens.silentWords)
    (kept : (after tokens (index + 1)).scopes = (after tokens index).scopes)
    (pushed : (after tokens (index + 1)).openBlocks = token :: (after tokens index).openBlocks) :
    Stacked tokens (index + 1) (index :: blocks) rest := by
  refine ⟨?_, ?_, stacked.loud, ?_, ?_⟩
  · rw [Tokens.openersAt_opens opens, stacked.stack]
    rfl
  · refine List.forall_mem_cons.mpr ⟨?_, stacked.silent⟩
    intro declares
    simp [declares.loud token found] at silent
  · rw [pushed, stacked.openBlocks, Tokens.tokensAt_cons found]
  · rw [kept, stacked.scopes]

theorem Stacked.closesScope {blocks rest : List Nat} (stacked : Stacked tokens index blocks rest)
    (ends : tokens.endsAt index) (noBlock : (after tokens index).openBlocks = []) {scope : Scope}
    (popped : (after tokens index).scopes = (after tokens (index + 1)).scopes ++ [scope])
    (kept : (after tokens (index + 1)).openBlocks = (after tokens index).openBlocks) :
    Stacked tokens (index + 1) [] rest.tail := by
  obtain rfl := stacked.blocks_nil noBlock
  have height := stacked.scopes
  rw [popped, List.length_append, List.length_singleton] at height
  obtain ⟨opener, outer, rfl⟩ := List.exists_cons_of_length_eq_add_one height.symm
  have pairs := Tokens.pairs_of_end ends stacked.stack
  refine ⟨?_, by simp, ?_, ?_, by simpa using height⟩
  · exact (List.cons.inj (pairs.symm.trans stacked.stack)).2
  · intro other member
    exact stacked.loud other (List.mem_cons_of_mem _ member)
  · rw [kept, stacked.openBlocks]

theorem Stacked.closesBlock {blocks rest : List Nat} (stacked : Stacked tokens index blocks rest)
    {block : Token} (closes : tokens.closesBlock index block)
    (noOpener : tokens.opensBlock index = false)
    (kept : (after tokens (index + 1)).scopes = (after tokens index).scopes)
    (popped : (after tokens index).openBlocks = block :: (after tokens (index + 1)).openBlocks) :
    Stacked tokens (index + 1) blocks.tail rest := by
  cases blocks with
  | nil => simp [stacked.openBlocks, Tokens.tokensAt] at popped
  | cons opener blocks =>
    obtain ⟨start, starts, shape⟩ := stacked.innermost
    obtain ⟨rfl, below⟩ := List.cons.inj (shape.symm.trans popped)
    refine ⟨?_, ?_, stacked.loud, below.symm, by rw [kept, stacked.scopes]⟩
    · rw [Tokens.openersAt_succ, stacked.stack]
      simp [Tokens.matchStep, noOpener, Tokens.closesAt_eq starts, closes]
    · intro other member
      exact stacked.silent other (List.mem_cons_of_mem _ member)

/-- A token that leaves the scopes and the blocks alone pairs with none of them. -/
theorem Stacked.openersAt_rests {blocks rest : List Nat}
    (stacked : Stacked tokens index blocks rest) (found : tokens[index]? = some token)
    (noOpener : tokens.opensBlock index = false)
    (ends : token.kind = .endStatement →
      (after tokens index).openBlocks = [] ∧ (after tokens index).scopes = [])
    (stays : ∀ block ∈ (after tokens index).openBlocks.head?, tokens.closesBlock index block = false) :
    tokens.openersAt (index + 1) = tokens.openersAt index := by
  rcases Tokens.openersAt_cases tokens index with ⟨opens, -⟩ | ⟨opener, -, pairs, closes⟩ |
    ⟨-, same, -⟩
  · simp [noOpener] at opens
  · have top := pairs.symm.trans stacked.stack
    cases blocks with
    | nil =>
      -- the innermost block is a declaration, which only an end closes; but then no scope is open
      have declares := stacked.loud opener (by rw [← List.nil_append rest, ← top]; simp)
      have word := declares.closesAt closes
      have noScope := (ends (by simpa [Tokens.endsAt_eq found] using word)).2
      have height := stacked.scopes
      rw [noScope, ← List.nil_append rest, ← top] at height
      simp at height
    | cons inner blocks =>
      obtain rfl := (List.cons.inj top).1
      obtain ⟨start, starts, shape⟩ := stacked.innermost
      simp [Tokens.closesAt_eq starts, stays start (by simp [shape])] at closes
  · exact same

theorem Stacked.rests {blocks rest : List Nat} (stacked : Stacked tokens index blocks rest)
    (same : tokens.openersAt (index + 1) = tokens.openersAt index)
    (scopes : (after tokens (index + 1)).scopes = (after tokens index).scopes)
    (openBlocks : (after tokens (index + 1)).openBlocks = (after tokens index).openBlocks) :
    Stacked tokens (index + 1) blocks rest :=
  ⟨same.trans stacked.stack, stacked.silent, stacked.loud, openBlocks.trans stacked.openBlocks,
    by rw [scopes, stacked.scopes]⟩

/-- One token keeps the layers. -/
theorem Layered.step (layered : Layered tokens) (plain : Declarative tokens) {blocks rest : List Nat}
    (stacked : Stacked tokens index blocks rest) (found : tokens[index]? = some token) :
    ∃ blocks rest, Stacked tokens (index + 1) blocks rest := by
  rcases (plain.step (plain.structural index) found).1 with ⟨dealt, scopes, openBlocks⟩ | ⟨-, moves⟩
  · have same := (layered.neutral found dealt).openersAt found
    exact ⟨_, _, stacked.rests same scopes openBlocks⟩
  · cases moves with
    | opensScope scope opens word isLoud pushed kept =>
      have declares : Declares tokens index := by
        refine ⟨opens, ?_⟩
        intro other here
        cases found.symm.trans here
        exact isLoud
      exact ⟨_, _, stacked.opensScope layered declares pushed kept⟩
    | opensBlock opens silent kept pushed =>
      exact ⟨_, _, stacked.opensBlock found opens silent kept pushed⟩
    | closesScope scope word noBlock popped kept =>
      have ends : tokens.endsAt index := by simp [Tokens.endsAt_eq found, word]
      exact ⟨_, _, stacked.closesScope ends noBlock popped kept⟩
    | closesBlock block closes noOpener kept popped =>
      exact ⟨_, _, stacked.closesBlock closes noOpener kept popped⟩
    | rests noOpener ends stays kept still =>
      have same := stacked.openersAt_rests found noOpener ends stays
      exact ⟨_, _, stacked.rests same kept still⟩

theorem Layered.stacked (layered : Layered tokens) (plain : Declarative tokens) (count : Nat) :
    ∃ blocks rest, Stacked tokens count blocks rest := by
  induction count with
  | zero => exact ⟨[], [], rfl, by simp, by simp, rfl, rfl⟩
  | succ count ih =>
    obtain ⟨blocks, rest, stacked⟩ := ih
    cases found : tokens[count]? with
    | some token => exact layered.step plain stacked found
    | none =>
      have still : after tokens (count + 1) = after tokens count := by
        rw [State.after_succ, step_none found]
      refine ⟨blocks, rest, stacked.rests ?_ (by rw [still]) (by rw [still])⟩
      rcases Tokens.openersAt_cases tokens count with ⟨opens, -⟩ | ⟨opener, -, pairs, -⟩ |
        ⟨-, same, -⟩
      · simp [Tokens.opensBlock, found] at opens
      · exact absurd pairs.bound (by simpa using found)
      · exact same

/-- In a layered document every declaration opens a scope. -/
theorem Layered.opensScope_iff (layered : Layered tokens) (plain : Declarative tokens) :
    OpensScope tokens index ↔ Declares tokens index := by
  constructor
  · exact plain.declares
  · intro declares
    have opens := declares.opens
    obtain ⟨token, found⟩ := Tokens.token_of_opens opens
    rcases (plain.step (plain.structural index) found).1 with ⟨dealt, -⟩ | ⟨-, moves⟩
    · simp [(layered.neutral found dealt).opens] at opens
    · cases moves with
      | opensScope scope _ _ _ pushed _ => exact ⟨scope, pushed⟩
      | opensBlock _ silent _ _ => simp [declares.loud token found] at silent
      | closesScope _ word _ _ _ => simp [Tokens.opensBlock, found, word] at opens
      | closesBlock _ _ noOpener _ _ => simp [noOpener] at opens
      | rests noOpener _ _ _ _ => simp [noOpener] at opens

/-- Scopes close where the matching of blocks closes them, as long as no declaration stands inside
an executable block. -/
theorem layered_scopes_close_as_blocks (layered : Layered tokens) (plain : Declarative tokens) :
    Agrees tokens := by
  apply Aligned.agrees ?_ plain
  intro index ends
  obtain ⟨blocks, rest, stacked⟩ := layered.stacked plain index
  constructor
  · rintro ⟨opener, top, opens⟩
    obtain ⟨token, found, word⟩ := (Option.any_eq_true ..).mp ends
    have fresh : index ∉ (after tokens index).handled := fun dealt =>
      (layered.neutral found dealt).ends (by simpa using word)
    rw [stacked.stack] at top
    cases blocks with
    | cons inner blocks =>
      obtain rfl : inner = opener := by simpa using top
      exact absurd (plain.declares opens) (stacked.silent inner List.mem_cons_self)
    | nil =>
      refine ⟨ends, fresh, stacked.openBlocks, ?_⟩
      intro noScope
      have height := stacked.scopes
      rw [noScope, List.length_nil, eq_comm, List.length_eq_zero_iff] at height
      simp [height] at top
  · intro endsScope
    obtain rfl := stacked.blocks_nil endsScope.noBlock
    obtain ⟨opener, outer, rfl⟩ := List.exists_cons_of_length_pos
      (stacked.scopes ▸ List.length_pos_of_ne_nil endsScope.someScope)
    refine ⟨opener, by simp [stacked.stack], ?_⟩
    exact (layered.opensScope_iff plain).mpr (stacked.loud opener List.mem_cons_self)

end Clarion.Outline.State
