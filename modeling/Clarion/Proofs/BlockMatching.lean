import Clarion.Folding

/-! The matching of blocks, by the indices of their tokens: one stack of open blocks, on which every
block word is put and from which the innermost one is taken when something closes it. The folds of a
document and the ends of its blocks are both read off this matching. -/
namespace Clarion.Tokens

variable {tokens : Tokens} {opener index count : Nat} {openers outer : List Nat}

/-- The token at the index closes the block opened at another. -/
def closesAt (tokens : Tokens) (index opener : Nat) : Bool :=
  tokens[opener]?.any (tokens.closesBlock index)

/-- The open blocks after one more token, innermost first. -/
def matchStep (tokens : Tokens) (openers : List Nat) (index : Nat) : List Nat :=
  if tokens.opensBlock index then index :: openers
  else
    match openers with
    | [] => []
    | opener :: outer => if tokens.closesAt index opener then outer else opener :: outer

/-- The blocks that are open after the first `count` tokens, innermost first. -/
def openersAt (tokens : Tokens) (count : Nat) : List Nat :=
  (List.range count).foldl tokens.matchStep []

/-- The token at `index` takes the block opened at `opener` off the stack. -/
def Pairs (tokens : Tokens) (opener index : Nat) : Prop :=
  tokens.openersAt index = opener :: tokens.openersAt (index + 1)

@[simp] theorem openersAt_zero (tokens : Tokens) : tokens.openersAt 0 = [] :=
  rfl

theorem openersAt_succ (tokens : Tokens) (count : Nat) :
    tokens.openersAt (count + 1) = tokens.matchStep (tokens.openersAt count) count := by
  simp [openersAt, List.range_succ]

/-- A token opens a block, takes the innermost one off, or leaves the stack alone. -/
theorem openersAt_cases (tokens : Tokens) (index : Nat) :
    (tokens.opensBlock index ∧ tokens.openersAt (index + 1) = index :: tokens.openersAt index) ∨
    (∃ opener, tokens.opensBlock index = false ∧ tokens.Pairs opener index ∧
      tokens.closesAt index opener) ∨
    (tokens.opensBlock index = false ∧ tokens.openersAt (index + 1) = tokens.openersAt index ∧
      ∀ opener ∈ (tokens.openersAt index).head?, tokens.closesAt index opener = false) := by
  unfold Pairs
  rw [openersAt_succ]
  cases opens : tokens.opensBlock index with
  | true => exact .inl ⟨rfl, by simp [matchStep, opens]⟩
  | false =>
    cases stack : tokens.openersAt index with
    | nil => exact .inr (.inr ⟨rfl, by simp [matchStep, opens], by simp⟩)
    | cons opener outer =>
      cases closes : tokens.closesAt index opener with
      | true => exact .inr (.inl ⟨opener, rfl, by simp [matchStep, opens, closes], closes⟩)
      | false => exact .inr (.inr ⟨rfl, by simp [matchStep, opens, closes], by simp [closes]⟩)

theorem openersAt_opens (opens : tokens.opensBlock index) :
    tokens.openersAt (index + 1) = index :: tokens.openersAt index := by
  simp [openersAt_succ, matchStep, opens]

theorem opensBlock_of_mem (member : opener ∈ tokens.openersAt count) :
    opener < count ∧ tokens.opensBlock opener := by
  induction count with
  | zero => simp at member
  | succ count ih =>
    have older (member : opener ∈ tokens.openersAt count) :
        opener < count + 1 ∧ tokens.opensBlock opener :=
      ⟨Nat.lt_succ_of_lt (ih member).1, (ih member).2⟩
    rcases openersAt_cases tokens count with ⟨opens, pushed⟩ | ⟨_, _, popped, _⟩ | ⟨_, same, _⟩
    · rw [pushed] at member
      rcases List.mem_cons.mp member with rfl | old
      · exact ⟨Nat.lt_succ_self _, opens⟩
      · exact older old
    · exact older (popped ▸ List.mem_cons_of_mem _ member)
    · exact older (same ▸ member)

/-- Every open block was opened after those around it. -/
theorem openersAt_sorted (tokens : Tokens) (count : Nat) :
    (tokens.openersAt count).Pairwise (· > ·) := by
  induction count with
  | zero => simp
  | succ count ih =>
    rcases openersAt_cases tokens count with ⟨_, pushed⟩ | ⟨_, _, popped, _⟩ | ⟨_, same, _⟩
    · rw [pushed]
      exact List.pairwise_cons.mpr ⟨fun _ member => (opensBlock_of_mem member).1, ih⟩
    · exact (List.pairwise_cons.mp (popped ▸ ih)).2
    · exact same ▸ ih

theorem Pairs.lt (pairs : tokens.Pairs opener index) : opener < index :=
  (opensBlock_of_mem (pairs ▸ List.mem_cons_self)).1

theorem Pairs.opens (pairs : tokens.Pairs opener index) : tokens.opensBlock opener :=
  (opensBlock_of_mem (pairs ▸ List.mem_cons_self)).2

theorem Pairs.gone (pairs : tokens.Pairs opener index) :
    opener ∉ tokens.openersAt (index + 1) := by
  intro member
  have sorted := tokens.openersAt_sorted index
  rw [pairs] at sorted
  exact Nat.lt_irrefl _ ((List.pairwise_cons.mp sorted).1 opener member)

/-- A block leaves the stack only where it is closed. -/
theorem pairs_of_gone (here : opener ∈ tokens.openersAt index)
    (gone : opener ∉ tokens.openersAt (index + 1)) : tokens.Pairs opener index := by
  rcases openersAt_cases tokens index with ⟨_, pushed⟩ | ⟨other, _, popped, _⟩ | ⟨_, same, _⟩
  · exact absurd (pushed ▸ List.mem_cons_of_mem _ here) gone
  · rcases List.mem_cons.mp (popped ▸ here) with rfl | outer
    · exact popped
    · exact absurd outer gone
  · exact absurd (same ▸ here) gone

/-- A block that is on the stack at one moment and off it later is closed in between. -/
theorem exists_pairs {first last : Nat} (here : opener ∈ tokens.openersAt first)
    (order : first ≤ last) (gone : opener ∉ tokens.openersAt last) :
    ∃ closer, first ≤ closer ∧ closer < last ∧ tokens.Pairs opener closer := by
  induction order with
  | refl => exact absurd here gone
  | @step last order ih =>
    by_cases still : opener ∈ tokens.openersAt last
    · exact ⟨last, order, Nat.lt_succ_self _, pairs_of_gone still gone⟩
    · obtain ⟨closer, after, before, pairs⟩ := ih still
      exact ⟨closer, after, Nat.lt_succ_of_lt before, pairs⟩

/-- A block that is open now was open ever since it was opened. -/
theorem mem_openersAt_earlier {later : Nat} (member : opener ∈ tokens.openersAt later)
    (after : opener < count) (order : count ≤ later) : opener ∈ tokens.openersAt count := by
  induction order with
  | refl => exact member
  | @step later order ih =>
    refine ih ?_
    rcases openersAt_cases tokens later with ⟨_, pushed⟩ | ⟨_, _, popped, _⟩ | ⟨_, same, _⟩
    · rcases List.mem_cons.mp (pushed ▸ member) with rfl | old
      · exact absurd after (Nat.not_lt_of_le order)
      · exact old
    · exact popped ▸ List.mem_cons_of_mem _ member
    · exact same ▸ member

/-- A block once closed stays closed. -/
theorem Pairs.not_mem_later (pairs : tokens.Pairs opener index) {later : Nat}
    (order : index < later) : opener ∉ tokens.openersAt later := by
  intro member
  exact pairs.gone (mem_openersAt_earlier member (Nat.lt_succ_of_lt pairs.lt) order)

/-- A block is closed at most once. -/
theorem Pairs.unique {other : Nat} (first : tokens.Pairs opener index)
    (second : tokens.Pairs opener other) : index = other := by
  rcases Nat.lt_trichotomy index other with less | same | greater
  · exact absurd (second ▸ List.mem_cons_self) (first.not_mem_later less)
  · exact same
  · exact absurd (first ▸ List.mem_cons_self) (second.not_mem_later greater)

/-! ### The tokens of the open blocks -/

theorem token_of_opens (opens : tokens.opensBlock index) : ∃ token, tokens[index]? = some token := by
  cases found : tokens[index]? with
  | none => simp [opensBlock, found] at opens
  | some token => exact ⟨token, rfl⟩

theorem closesAt_bound (closes : tokens.closesAt index opener) : index < tokens.length := by
  apply Nat.lt_of_not_le
  intro outside
  have missing : tokens[index]? = none := List.getElem?_eq_none outside
  obtain ⟨start, -, closes⟩ := (Option.any_eq_true ..).mp closes
  simp [closesBlock, isLoopTerminator, missing] at closes

theorem Pairs.closes (pairs : tokens.Pairs opener index) :
    tokens.opensBlock index = false ∧ tokens.closesAt index opener := by
  rcases openersAt_cases tokens index with ⟨_, pushed⟩ | ⟨other, plain, popped, closes⟩ |
    ⟨_, same, _⟩
  · have length := congrArg List.length (pairs.trans (congrArg (opener :: ·) pushed))
    simp only [List.length_cons] at length
    omega
  · obtain rfl := (List.cons.inj (pairs.symm.trans popped)).1
    exact ⟨plain, closes⟩
  · have length := congrArg List.length (pairs.trans (congrArg (opener :: ·) same))
    simp at length

theorem Pairs.bound (pairs : tokens.Pairs opener index) : index < tokens.length :=
  closesAt_bound pairs.closes.2

/-- The block that the token at the index closes, if it closes any. -/
def closedAt? (tokens : Tokens) (index : Nat) : Option Nat :=
  (tokens.openersAt index).head?.filter fun opener =>
    !tokens.opensBlock index && tokens.closesAt index opener

theorem closedAt?_eq_some_iff :
    tokens.closedAt? index = some opener ↔ tokens.Pairs opener index := by
  rw [closedAt?, Option.filter_eq_some_iff, Bool.and_eq_true, Bool.not_eq_true']
  constructor
  · rintro ⟨first, plain, closes⟩
    obtain ⟨outer, stack⟩ := List.head?_eq_some_iff.mp first
    rw [Pairs, openersAt_succ, stack]
    simp [matchStep, plain, closes]
  · intro pairs
    exact ⟨by rw [pairs, List.head?_cons], pairs.closes⟩

theorem drop_eq_nil (here : tokens.drop index = []) (bound : index ≤ tokens.length) :
    index = tokens.length :=
  Nat.le_antisymm bound (List.drop_eq_nil_iff.mp here)

theorem drop_eq_cons {token : Token} {rest : Tokens} (here : tokens.drop index = token :: rest) :
    tokens[index]? = some token ∧ tokens.drop (index + 1) = rest := by
  rw [← List.head?_drop, ← List.tail_drop, here]
  exact ⟨rfl, rfl⟩

/-- The tokens that opened the blocks at the indices. -/
def tokensAt (tokens : Tokens) (indices : List Nat) : Tokens :=
  indices.filterMap (tokens[·]?)

theorem tokensAt_cons {token : Token} (found : tokens[index]? = some token) (indices : List Nat) :
    tokens.tokensAt (index :: indices) = token :: tokens.tokensAt indices := by
  simp [tokensAt, found]

theorem closesAt_eq {token : Token} (found : tokens[opener]? = some token) (index : Nat) :
    tokens.closesAt index opener = tokens.closesBlock index token := by
  simp [closesAt, found]

/-- The token at the index is an end. -/
def endsAt (tokens : Tokens) (index : Nat) : Bool :=
  tokens[index]?.any (·.kind == .endStatement)

theorem endsAt_eq {token : Token} (found : tokens[index]? = some token) :
    tokens.endsAt index = (token.kind == .endStatement) := by
  simp [endsAt, found]

theorem closesBlock_end (ends : tokens.endsAt index) (start : Token) :
    tokens.closesBlock index start := by
  simp [closesBlock, show tokens[index]?.any (·.kind == .endStatement) = true from ends]

theorem opensBlock_end (ends : tokens.endsAt index) : tokens.opensBlock index = false := by
  obtain ⟨token, found, word⟩ := (Option.any_eq_true ..).mp ends
  simp [opensBlock, found, show token.kind = .endStatement by simpa using word]

/-- An end closes the innermost open block, whatever that is. -/
theorem pairs_of_end (ends : tokens.endsAt index)
    (stack : tokens.openersAt index = opener :: outer) : tokens.Pairs opener index := by
  obtain ⟨start, found⟩ :=
    token_of_opens (opensBlock_of_mem (stack ▸ List.mem_cons_self)).2
  rcases openersAt_cases tokens index with ⟨opens, -⟩ | ⟨other, -, pairs, -⟩ | ⟨-, -, stays⟩
  · simp [opensBlock_end ends] at opens
  · obtain rfl := (List.cons.inj (pairs.symm.trans stack)).1
    exact pairs
  · have unclosed := stays opener (by simp [stack])
    simp [closesAt_eq found, closesBlock_end ends] at unclosed

/-- The stack of tokens with which a scan goes on after one more token. -/
theorem tokensAt_succ {token : Token} (found : tokens[index]? = some token) :
    (tokens.opensBlock index ∧ tokens.tokensAt (tokens.openersAt (index + 1)) =
      token :: tokens.tokensAt (tokens.openersAt index)) ∨
    (∃ opener start, tokens.opensBlock index = false ∧ tokens.Pairs opener index ∧
      tokens[opener]? = some start ∧ tokens.closesBlock index start ∧
      tokens.tokensAt (tokens.openersAt index) =
        start :: tokens.tokensAt (tokens.openersAt (index + 1))) ∨
    (tokens.opensBlock index = false ∧ tokens.openersAt (index + 1) = tokens.openersAt index ∧
      ∀ start ∈ (tokens.tokensAt (tokens.openersAt index)).head?,
        tokens.closesBlock index start = false) := by
  rcases openersAt_cases tokens index with ⟨opens, pushed⟩ | ⟨opener, plain, popped, closes⟩ |
    ⟨plain, same, stays⟩
  · exact .inl ⟨opens, by rw [pushed, tokensAt_cons found]⟩
  · obtain ⟨start, here⟩ := token_of_opens popped.opens
    refine .inr (.inl ⟨opener, start, plain, popped, here, closesAt_eq here index ▸ closes, ?_⟩)
    rw [popped, tokensAt_cons here]
  · refine .inr (.inr ⟨plain, same, ?_⟩)
    cases stack : tokens.openersAt index with
    | nil => simp [tokensAt]
    | cons opener outer =>
      have member : opener ∈ tokens.openersAt index := stack ▸ List.mem_cons_self
      obtain ⟨start, here⟩ := token_of_opens (opensBlock_of_mem member).2
      rw [tokensAt_cons here]
      rintro _ ⟨⟩
      rw [← closesAt_eq here]
      exact stays opener (by simp [stack])

end Clarion.Tokens

namespace Clarion.Fold

variable {tokens : Tokens} {index : Nat}

private theorem blocksFrom_opens (opens : tokens.opensBlock index) (openers : List Token)
    (token : Token) (rest : Tokens) :
    blocksFrom tokens openers index (token :: rest) =
      blocksFrom tokens (token :: openers) (index + 1) rest := by
  cases openers <;> simp [blocksFrom, opens]

private theorem blocksFrom_stays (plain : tokens.opensBlock index = false) {openers : List Token}
    (stays : ∀ start ∈ openers.head?, tokens.closesBlock index start = false) (token : Token)
    (rest : Tokens) :
    blocksFrom tokens openers index (token :: rest) = blocksFrom tokens openers (index + 1) rest := by
  cases openers with
  | nil => simp [blocksFrom, plain]
  | cons start outer => simp [blocksFrom, plain, stays start (by simp)]

/-- The block opened at one index and closed at another has the fold. -/
def Spans (tokens : Tokens) (opener closer : Nat) (fold : Fold) : Prop :=
  ∃ start stop, tokens[opener]? = some start ∧ tokens[closer]? = some stop ∧
    fold ∈ Fold.of start.line (start.finishesAt.getD stop.line) .region

/-- The fold of the block that the token at the index closes. -/
def closedAt (tokens : Tokens) (index : Nat) : List Fold :=
  match (tokens.closedAt? index).bind (tokens[·]?), tokens[index]? with
  | some start, some stop => Fold.of start.line (start.finishesAt.getD stop.line) .region
  | _, _ => []

theorem mem_closedAt {fold : Fold} : fold ∈ closedAt tokens index ↔
    ∃ opener, tokens.Pairs opener index ∧ Spans tokens opener index fold := by
  unfold closedAt Spans
  constructor
  · intro member
    split at member
    · rename_i start stop starts stops
      obtain ⟨opener, closed, starts⟩ := Option.bind_eq_some_iff.mp starts
      exact ⟨opener, Tokens.closedAt?_eq_some_iff.mp closed, start, stop, starts, stops, member⟩
    · cases member
  · rintro ⟨opener, pairs, start, stop, starts, stops, member⟩
    simpa [Tokens.closedAt?_eq_some_iff.mpr pairs, starts, stops] using member

theorem closedAt_of_pairs {opener : Nat} {start stop : Token} (pairs : tokens.Pairs opener index)
    (starts : tokens[opener]? = some start) (stops : tokens[index]? = some stop) :
    closedAt tokens index =
      Fold.of start.line (start.finishesAt.getD stop.line) .region := by
  simp [closedAt, Tokens.closedAt?_eq_some_iff.mpr pairs, starts, stops]

theorem closedAt_of_no_pair (noPair : ∀ opener, ¬tokens.Pairs opener index) :
    closedAt tokens index = [] := by
  have nothing : tokens.closedAt? index = none :=
    Option.eq_none_iff_forall_ne_some.mpr fun opener closed =>
      noPair opener (Tokens.closedAt?_eq_some_iff.mp closed)
  simp [closedAt, nothing]

/-- A scan from an index on folds what the tokens from there on close, one after the other, and
leaves open what the matching leaves open. -/
theorem blocksFrom_eq (rest : Tokens) (here : tokens.drop index = rest)
    (bound : index ≤ tokens.length) :
    blocksFrom tokens (tokens.tokensAt (tokens.openersAt index)) index rest =
      ((List.range' index rest.length).flatMap (closedAt tokens),
        tokens.tokensAt (tokens.openersAt tokens.length)) := by
  induction rest generalizing index with
  | nil =>
    obtain rfl := Tokens.drop_eq_nil here bound
    rfl
  | cons token rest ih =>
    obtain ⟨found, later⟩ := Tokens.drop_eq_cons here
    have scanned := ih later (List.getElem?_eq_some_iff.mp found).1
    rw [List.length_cons, List.range'_succ, List.flatMap_cons]
    rcases Tokens.tokensAt_succ found with ⟨opens, pushed⟩ |
      ⟨opener, start, plain, pairs, starts, closes, popped⟩ | ⟨plain, same, stays⟩
    · have noPair : ∀ opener, ¬tokens.Pairs opener index := by
        intro opener pairs
        simp [pairs.closes.1] at opens
      rw [blocksFrom_opens opens, ← pushed, scanned, closedAt_of_no_pair noPair, List.nil_append]
    · rw [popped]
      simp only [blocksFrom, plain, closes, ↓reduceIte, Bool.false_eq_true]
      rw [scanned, closedAt_of_pairs pairs starts found]
    · have noPair : ∀ opener, ¬tokens.Pairs opener index := by
        intro opener pairs
        have length := congrArg List.length (pairs.trans (congrArg (opener :: ·) same))
        simp at length
      rw [blocksFrom_stays plain stays, ← same, scanned, closedAt_of_no_pair noPair,
        List.nil_append]

/-- A document folds at each token that closes a block, and then at the blocks that stay open with a
known closing line, from the outermost to the innermost. -/
theorem blocks_eq (tokens : Tokens) : blocks tokens =
    (List.range tokens.length).flatMap (closedAt tokens) ++
      (tokens.tokensAt (tokens.openersAt tokens.length)).reverse.flatMap fun opener =>
        opener.finishesAt.elim [] fun last => Fold.of opener.line last .region := by
  have scanned := blocksFrom_eq tokens List.drop_zero (Nat.zero_le _)
  have start : tokens.tokensAt (tokens.openersAt 0) = [] := rfl
  rw [start] at scanned
  rw [blocks, scanned, List.range_eq_range']

/-- A document folds at the pairs of its blocks, and at the blocks that stay open with a known
closing line. -/
theorem mem_blocks (tokens : Tokens) (fold : Fold) :
    fold ∈ blocks tokens ↔
      (∃ opener closer, tokens.Pairs opener closer ∧ Spans tokens opener closer fold) ∨
      ∃ opener ∈ tokens.openersAt tokens.length, ∃ start last, tokens[opener]? = some start ∧
        start.finishesAt = some last ∧ fold ∈ Fold.of start.line last .region := by
  rw [blocks_eq, List.mem_append]
  simp only [List.mem_flatMap, List.mem_range, mem_closedAt, List.mem_reverse, Tokens.tokensAt,
    List.mem_filterMap]
  refine or_congr ⟨?_, ?_⟩ ⟨?_, ?_⟩
  · rintro ⟨closer, -, opener, pairs, spans⟩
    exact ⟨opener, closer, pairs, spans⟩
  · rintro ⟨opener, closer, pairs, spans⟩
    exact ⟨closer, pairs.bound, opener, pairs, spans⟩
  · rintro ⟨start, ⟨opener, member, found⟩, folded⟩
    cases last : start.finishesAt with
    | none => simp [last] at folded
    | some line => exact ⟨opener, member, start, line, found, last, by simpa [last] using folded⟩
  · rintro ⟨opener, member, start, line, found, last, folded⟩
    exact ⟨start, ⟨opener, member, found⟩, by simpa [last] using folded⟩

end Clarion.Fold

namespace Clarion.Tokens

variable {tokens : Tokens} {index opener : Nat}

private theorem blockStopFrom_opens (opens : tokens.opensBlock index) (openers : List Token)
    (token : Token) (rest : Tokens) :
    blockStopFrom tokens openers index (token :: rest) =
      blockStopFrom tokens (token :: openers) (index + 1) rest := by
  cases openers <;> simp [blockStopFrom, opens]

private theorem blockStopFrom_stays (plain : tokens.opensBlock index = false)
    {openers : List Token}
    (stays : ∀ start ∈ openers.head?, tokens.closesBlock index start = false) (token : Token)
    (rest : Tokens) :
    blockStopFrom tokens openers index (token :: rest) =
      blockStopFrom tokens openers (index + 1) rest := by
  cases openers with
  | nil => simp [blockStopFrom, plain]
  | cons start outer => simp [blockStopFrom, plain, stays start (by simp)]

/-- What does not close the innermost of all blocks does not close the innermost of those from an
open block on. -/
private theorem innermost_stays {upper base : List Nat}
    (stack : tokens.openersAt index = upper ++ opener :: base)
    (stays : ∀ opener ∈ (tokens.openersAt index).head?, tokens.closesAt index opener = false) :
    ∀ start ∈ (tokens.tokensAt (upper ++ [opener])).head?,
      tokens.closesBlock index start = false := by
  obtain ⟨first, others, split⟩ : ∃ first others, upper ++ [opener] = first :: others := by
    cases upper with
    | nil => exact ⟨opener, [], rfl⟩
    | cons first others => exact ⟨first, others ++ [opener], rfl⟩
  have top : tokens.openersAt index = first :: (others ++ base) := by
    rw [stack, ← List.singleton_append, ← List.append_assoc, split, List.cons_append]
  obtain ⟨start, starts⟩ := token_of_opens (opensBlock_of_mem (top ▸ List.mem_cons_self)).2
  rw [split, tokensAt_cons starts]
  rintro _ ⟨⟩
  rw [← closesAt_eq starts]
  exact stays first (by simp [top])

/-- The index just past a block that a token closes: an end closes by itself, a condition with its
whole line. -/
def stopAfter (tokens : Tokens) (closer : Nat) : Nat :=
  if tokens.endsAt closer then closer + 1 else tokens.logicalLineEnd closer

/-- A scan that looks for the end of one block finds the token that closes it, or comes to the end
of the document with the block still open. The blocks inside it lie above it on the stack. -/
theorem blockStopFrom_pairs (rest : Tokens) (here : tokens.drop index = rest)
    (bound : index ≤ tokens.length) {upper base : List Nat}
    (stack : tokens.openersAt index = upper ++ opener :: base) :
    (∃ closer, tokens.Pairs opener closer ∧
      blockStopFrom tokens (tokens.tokensAt (upper ++ [opener])) index rest =
        tokens.stopAfter closer) ∨
    (opener ∈ tokens.openersAt tokens.length ∧
      blockStopFrom tokens (tokens.tokensAt (upper ++ [opener])) index rest = tokens.length) := by
  induction rest generalizing index upper with
  | nil =>
    obtain rfl := drop_eq_nil here bound
    exact .inr ⟨by simp [stack], rfl⟩
  | cons token rest ih =>
    obtain ⟨found, later⟩ := drop_eq_cons here
    have inside := (List.getElem?_eq_some_iff.mp found).1
    rcases openersAt_cases tokens index with ⟨opens, pushed⟩ | ⟨other, plain, popped, closes⟩ |
      ⟨plain, same, stays⟩
    · rw [blockStopFrom_opens opens, ← tokensAt_cons found, ← List.cons_append]
      exact ih later inside (by rw [pushed, stack, List.cons_append])
    · obtain ⟨start, starts⟩ := token_of_opens popped.opens
      rw [closesAt_eq starts] at closes
      cases upper with
      | nil =>
        obtain rfl : other = opener := (List.cons.inj (popped.symm.trans stack)).1
        have only : tokens.tokensAt ([] ++ [other]) = [start] := by simp [tokensAt, starts]
        refine .inl ⟨index, popped, ?_⟩
        rw [only]
        simp [blockStopFrom, plain, closes, stopAfter, endsAt_eq found]
      | cons inner upper =>
        obtain ⟨rfl, below⟩ := List.cons.inj (popped.symm.trans stack)
        have opens := opensBlock_of_mem (stack ▸ List.mem_append_right _ List.mem_cons_self)
        obtain ⟨outermost, foundOutermost⟩ := token_of_opens opens.2
        have more : (tokens.tokensAt (upper ++ [opener])).isEmpty = false := by
          simp [tokensAt, foundOutermost]
        rw [List.cons_append, tokensAt_cons starts, blockStopFrom, if_neg (by simp [plain])]
        simp only [closes, ↓reduceIte, more, Bool.false_eq_true]
        exact ih later inside below
    · rw [blockStopFrom_stays plain (innermost_stays stack stays)]
      exact ih later inside (same.trans stack)

/-- The end of a block without a known closing line is where the matching closes it, and the end of
the document when nothing does. -/
theorem blockEnd_pairs {token : Token} (opens : tokens.opensBlock opener)
    (found : tokens[opener]? = some token) (openEnded : token.finishesAt = none) :
    (∃ closer, tokens.Pairs opener closer ∧ tokens.blockEnd opener = tokens.stopAfter closer) ∨
    (opener ∈ tokens.openersAt tokens.length ∧ tokens.blockEnd opener = tokens.length) := by
  have inside := (List.getElem?_eq_some_iff.mp found).1
  have stack : tokens.openersAt (opener + 1) = [] ++ opener :: tokens.openersAt opener := by
    simp [openersAt_opens opens]
  have here : tokens.drop opener = token :: tokens.drop (opener + 1) := by
    rw [List.drop_eq_getElem_cons inside, (List.getElem?_eq_some_iff.mp found).2]
  have stop : tokens.blockEnd opener =
      blockStopFrom tokens (tokens.tokensAt ([] ++ [opener])) (opener + 1)
        (tokens.drop (opener + 1)) := by
    simp [blockEnd, here, openEnded, tokensAt, found]
  rw [stop]
  exact blockStopFrom_pairs _ rfl inside stack

end Clarion.Tokens
