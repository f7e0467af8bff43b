import Clarion.Proofs.BlockMatching
import Clarion.Proofs.LookAheadMarks

/-! The joins of a view. The look through a view keeps a stack of its own for the joins that are
open; where no other block opens inside the view, that stack is what the matching of the whole
document has open above the view. So the joins around a token and the ends of joins can be told by
the matching alone. -/
namespace Clarion.Tokens

variable {tokens : Tokens} {index opener stop : Nat} {rest : List Nat}

instance (tokens : Tokens) (opener index : Nat) : Decidable (tokens.Pairs opener index) :=
  inferInstanceAs (Decidable (_ = _))

/-! ### The blocks opened inside a block -/

/-- The blocks that are open before the token at `stop` and were opened after the one at `index`,
innermost first. -/
def openedSince (tokens : Tokens) (index stop : Nat) : List Nat :=
  (tokens.openersAt stop).filter (index < ·)

theorem mem_openedSince :
    opener ∈ tokens.openedSince index stop ↔ opener ∈ tokens.openersAt stop ∧ index < opener := by
  simp [openedSince]

theorem openedSince_start (tokens : Tokens) (index : Nat) :
    tokens.openedSince index (index + 1) = [] := by
  refine List.filter_eq_nil_iff.mpr fun opener member => ?_
  simpa using Nat.le_of_lt_succ (opensBlock_of_mem member).1

theorem openedSince_opens (opens : tokens.opensBlock stop) (after : index < stop) :
    tokens.openedSince index (stop + 1) = stop :: tokens.openedSince index stop := by
  simp [openedSince, openersAt_opens opens, after]

/-- Under a block that was open before lie only blocks that were. -/
private theorem filter_below (stack : tokens.openersAt stop = opener :: rest)
    (old : opener ≤ index) : rest.filter (index < ·) = [] := by
  have sorted := tokens.openersAt_sorted stop
  rw [stack] at sorted
  refine List.filter_eq_nil_iff.mpr fun deeper member => ?_
  have below := (List.pairwise_cons.mp sorted).1 deeper member
  simpa using Nat.le_trans (Nat.le_of_lt below) old

/-- The innermost of the blocks opened since is the innermost of all. -/
theorem openersAt_of_openedSince (since : tokens.openedSince index stop = opener :: rest) :
    ∃ outer, tokens.openersAt stop = opener :: outer := by
  cases stack : tokens.openersAt stop with
  | nil => simp [openedSince, stack] at since
  | cons top outer =>
    by_cases new : index < top
    · rw [openedSince, stack, List.filter_cons_of_pos (by simpa using new)] at since
      exact ⟨outer, by rw [(List.cons.inj since).1]⟩
    · rw [openedSince, stack, List.filter_cons_of_neg (by simpa using new),
        filter_below stack (Nat.le_of_not_lt new)] at since
      cases since

/-- What closes a block opened since is taken off; what closes an older one changes nothing. -/
theorem openedSince_closes (pairs : tokens.Pairs opener stop) :
    tokens.openedSince index (stop + 1) =
      if index < opener then (tokens.openedSince index stop).tail
      else tokens.openedSince index stop := by
  rw [openedSince, openedSince, pairs]
  split
  · rename_i new
    rw [List.filter_cons_of_pos (by simpa using new), List.tail_cons]
  · rename_i old
    rw [List.filter_cons_of_neg (by simpa using old)]

/-- An end takes off the innermost of the blocks opened since, if there is any. -/
theorem openedSince_end (ends : tokens.endsAt stop) :
    tokens.openedSince index (stop + 1) = (tokens.openedSince index stop).tail := by
  cases stack : tokens.openersAt stop with
  | nil =>
    have later : tokens.openersAt (stop + 1) = [] := by
      simp [openersAt_succ, matchStep, opensBlock_end ends, stack]
    simp [openedSince, stack, later]
  | cons opener outer =>
    rw [openedSince_closes (pairs_of_end ends stack)]
    split
    · rfl
    · rename_i old
      rw [openedSince, stack, List.filter_cons_of_neg (by simpa using old),
        filter_below stack (Nat.le_of_not_lt old), List.tail_nil]

/-- A token that is no end and opens nothing leaves the blocks opened since alone, unless one of
them is a loop. -/
theorem openedSince_passes (plain : tokens.opensBlock stop = false) (noEnd : ¬tokens.endsAt stop)
    (noLoop : ∀ opener token, index < opener → opener < stop → tokens.opensBlock opener →
      tokens[opener]? = some token → token.reads "LOOP" = false) :
    tokens.openedSince index (stop + 1) = tokens.openedSince index stop := by
  rcases openersAt_cases tokens stop with ⟨opens, -⟩ | ⟨opener, -, pairs, closes⟩ | ⟨-, same, -⟩
  · simp [plain] at opens
  · rw [openedSince_closes pairs, if_neg]
    intro new
    obtain ⟨token, found⟩ := token_of_opens pairs.opens
    have ended : tokens[stop]?.any (·.kind == .endStatement) = false := by simpa [endsAt] using noEnd
    simp [closesAt_eq found, closesBlock, ended, noLoop opener token new pairs.lt pairs.opens found]
      at closes
  · rw [openedSince, same, openedSince]

/-- The first of the blocks opened since is the one opened last. -/
theorem head?_openedSince :
    (tokens.openedSince index stop).head? = some opener ↔
      opener ∈ tokens.openedSince index stop ∧
        ∀ other ∈ tokens.openedSince index stop, other ≤ opener := by
  have sorted : (tokens.openedSince index stop).Pairwise (· > ·) :=
    (tokens.openersAt_sorted stop).filter _
  cases since : tokens.openedSince index stop with
  | nil => simp
  | cons first others =>
    rw [since] at sorted
    have below := (List.pairwise_cons.mp sorted).1
    rw [List.head?_cons, Option.some.injEq]
    constructor
    · rintro rfl
      refine ⟨List.mem_cons_self, fun other member => ?_⟩
      rcases List.mem_cons.mp member with rfl | deeper
      · exact Nat.le_refl _
      · exact Nat.le_of_lt (below other deeper)
    · rintro ⟨member, greatest⟩
      rcases List.mem_cons.mp member with same | deeper
      · exact same.symm
      · exact absurd (below opener deeper) (Nat.not_lt_of_le (greatest first List.mem_cons_self))

end Clarion.Tokens

namespace Clarion.Outline.State

variable {tokens : Tokens} {index closer opener inner stop : Nat}

/-! ### Views that hold nothing but joins -/

/-- The token at the index is a join. -/
def joinAt (tokens : Tokens) (index : Nat) : Bool :=
  tokens[index]?.any fun token => token.kind == .structureWord && token.reads "JOIN"

/-- The token at the index is a projected field list. -/
def projectAt (tokens : Tokens) (index : Nat) : Bool :=
  tokens[index]?.any (·.reads "PROJECT")

/-- The token at `index` is a view, and no block opens inside its own but those of joins. Every join
has its end there; the last end, at `closer`, is that of the view. -/
structure ViewBlock (tokens : Tokens) (index closer : Nat) : Prop where
  view : tokens[index]?.any fun token => token.kind == .structureWord && token.reads "VIEW"
  openers : ∀ inner ∈ blockIndices tokens index, tokens.opensBlock inner → joinAt tokens inner
  joins : ∀ join ∈ blockIndices tokens index, joinAt tokens join →
    ∃ stop ∈ blockIndices tokens index, tokens.Pairs join stop
  closes : tokens.Pairs index closer
  inside : closer ∈ blockIndices tokens index
  last : ∀ inner ∈ blockIndices tokens index, tokens.endsAt inner → inner ≤ closer
  ends : ∀ inner ∈ blockIndices tokens index, tokens.endsAt inner → projectAt tokens inner = false

/-- The token stands between a join and its end. -/
def JoinAround (tokens : Tokens) (opener inner : Nat) : Prop :=
  joinAt tokens opener ∧ opener < inner ∧ ∃ stop, tokens.Pairs opener stop ∧ inner < stop

/-- The look through the view at `index` shows the token. -/
def shownAt (tokens : Tokens) (index : Nat) : Bool :=
  joinAt tokens index || projectAt tokens index

theorem opensBlock_join (join : joinAt tokens index) : tokens.opensBlock index := by
  obtain ⟨token, found, isJoin⟩ := (Option.any_eq_true ..).mp join
  obtain ⟨word, reads⟩ := (Bool.and_eq_true _ _).mp isJoin
  have word : token.kind = .structureWord := by simpa using word
  have noModule : token.reads "MODULE" = false := reads_other reads (by decide)
  simp [Tokens.opensBlock, Tokens.isModuleAttribute, found, word, noModule]

/-- What closes a structure is an end. -/
theorem endsAt_of_structure (word : String) (apart : Text.sameFold word "LOOP" = false)
    (reads : tokens[opener]?.any fun token => token.kind == .structureWord && token.reads word)
    (pairs : tokens.Pairs opener stop) : tokens.endsAt stop := by
  obtain ⟨token, found, isStructure⟩ := (Option.any_eq_true ..).mp reads
  have noLoop : token.reads "LOOP" = false :=
    reads_other ((Bool.and_eq_true _ _).mp isStructure).2 apart
  have closes := pairs.closes.2
  rw [Tokens.closesAt_eq found] at closes
  simpa [Tokens.closesBlock, noLoop, Tokens.endsAt] using closes

theorem endsAt_of_join (join : joinAt tokens opener) (pairs : tokens.Pairs opener stop) :
    tokens.endsAt stop :=
  endsAt_of_structure "JOIN" (by decide) join pairs

namespace ViewBlock

variable (block : ViewBlock tokens index closer)
include block

theorem join_of_mem (member : opener ∈ tokens.openedSince index stop)
    (bound : stop ≤ tokens.blockEnd index) :
    joinAt tokens opener ∧ index < opener ∧ opener < stop := by
  obtain ⟨opened, after⟩ := Tokens.mem_openedSince.mp member
  obtain ⟨before, opens⟩ := Tokens.opensBlock_of_mem opened
  have inside := mem_blockIndices.mpr ⟨after, Nat.lt_of_lt_of_le before bound⟩
  exact ⟨block.openers opener inside opens, after, before⟩

/-- The blocks opened since the view, where the look comes to a token that is shown, are the joins
around it. -/
theorem mem_openedSince (inside : inner ∈ blockIndices tokens index) (noEnd : ¬tokens.endsAt inner) :
    opener ∈ tokens.openedSince index inner ↔ index < opener ∧ JoinAround tokens opener inner := by
  have bound := (mem_blockIndices.mp inside).2
  constructor
  · intro member
    obtain ⟨join, after, before⟩ := block.join_of_mem member (Nat.le_of_lt bound)
    obtain ⟨stop, -, pairs⟩ :=
      block.joins opener (mem_blockIndices.mpr ⟨after, Nat.lt_trans before bound⟩) join
    refine ⟨after, join, before, stop, pairs, Nat.lt_of_le_of_ne ?_ ?_⟩
    · apply Nat.le_of_not_lt
      intro early
      exact pairs.not_mem_later early (Tokens.mem_openedSince.mp member).1
    · rintro rfl
      exact noEnd (endsAt_of_join join pairs)
  · rintro ⟨after, -, before, stop, pairs, later⟩
    have opened : opener ∈ tokens.openersAt stop := pairs ▸ List.mem_cons_self
    exact Tokens.mem_openedSince.mpr
      ⟨Tokens.mem_openersAt_earlier opened before (Nat.le_of_lt later), after⟩

theorem noEnd (inside : inner ∈ blockIndices tokens index) (shown : shownAt tokens inner) :
    ¬tokens.endsAt inner := by
  intro ends
  rcases (Bool.or_eq_true _ _).mp shown with join | project
  · exact absurd (opensBlock_join join) (by simp [Tokens.opensBlock_end ends])
  · simp [block.ends inner inside ends] at project

/-- What opens no block and is no end leaves the open joins alone. -/
theorem openedSince_passes (inside : inner ∈ blockIndices tokens index)
    (noJoin : joinAt tokens inner = false) (noEnd : ¬tokens.endsAt inner) :
    tokens.openedSince index (inner + 1) = tokens.openedSince index inner := by
  refine Tokens.openedSince_passes ?_ noEnd fun opener token after before opens found => ?_
  · rw [Bool.eq_false_iff]
    intro opens
    simp [block.openers inner inside opens] at noJoin
  · have bound := Nat.lt_trans before (mem_blockIndices.mp inside).2
    have join := block.openers opener (mem_blockIndices.mpr ⟨after, bound⟩) opens
    simp only [joinAt, found, Option.any_some, Bool.and_eq_true] at join
    exact reads_other join.2 (by decide)

/-- A join opens, and a projected field list leaves the open joins alone. -/
theorem openedSince_shown (inside : inner ∈ blockIndices tokens index)
    (shown : shownAt tokens inner) : tokens.openedSince index (inner + 1) =
      if joinAt tokens inner then inner :: tokens.openedSince index inner
      else tokens.openedSince index inner := by
  split
  · rename_i join
    exact Tokens.openedSince_opens (opensBlock_join join) (mem_blockIndices.mp inside).1
  · rename_i noJoin
    exact block.openedSince_passes inside (by simpa using noJoin) (block.noEnd inside shown)

end ViewBlock

/-- The end of a join of the view at `index`. -/
def ClosesJoin (tokens : Tokens) (index inner : Nat) : Prop :=
  ∃ join, index < join ∧ joinAt tokens join ∧ tokens.Pairs join inner

/-- An end closes a join of the view when one is open. -/
theorem ViewBlock.closesJoin_iff (block : ViewBlock tokens index closer)
    (inside : inner ∈ blockIndices tokens index) (ends : tokens.endsAt inner) :
    ClosesJoin tokens index inner ↔ tokens.openedSince index inner ≠ [] := by
  constructor
  · rintro ⟨join, after, -, pairs⟩
    exact List.ne_nil_of_mem (Tokens.mem_openedSince.mpr ⟨pairs ▸ List.mem_cons_self, after⟩)
  · intro opened
    obtain ⟨join, rest, since⟩ := List.exists_cons_of_ne_nil opened
    have member : join ∈ tokens.openedSince index inner := since ▸ List.mem_cons_self
    obtain ⟨isJoin, after, -⟩ :=
      block.join_of_mem member (Nat.le_of_lt (mem_blockIndices.mp inside).2)
    obtain ⟨outer, stack⟩ := Tokens.openersAt_of_openedSince since
    exact ⟨join, after, isJoin, Tokens.pairs_of_end ends stack⟩

/-! ### The innermost join, and the end of the view -/

/-- The join is the innermost one inside the view at `index` that the token stands in. -/
def InnermostJoin (tokens : Tokens) (index join inner : Nat) : Prop :=
  (index < join ∧ JoinAround tokens join inner) ∧
    ∀ other, JoinAround tokens other inner → other ≤ join

namespace ViewBlock

variable (block : ViewBlock tokens index closer)
include block

theorem innermostJoin_iff (inside : inner ∈ blockIndices tokens index)
    (noEnd : ¬tokens.endsAt inner) :
    (tokens.openedSince index inner).head? = some opener ↔
      InnermostJoin tokens index opener inner := by
  rw [Tokens.head?_openedSince, block.mem_openedSince inside noEnd, InnermostJoin]
  refine and_congr_right fun here => forall_congr' fun other => ?_
  rw [block.mem_openedSince inside noEnd]
  refine ⟨fun greatest around => ?_, fun greatest ⟨_, around⟩ => greatest around⟩
  by_cases later : index < other
  · exact greatest ⟨later, around⟩
  · exact Nat.le_trans (Nat.le_of_not_lt later) (Nat.le_of_lt here.1)

/-- The end of the view is an end of the block that closes no join, and every other end closes
one. -/
theorem closesJoin_iff_ne (inside : inner ∈ blockIndices tokens index)
    (ends : tokens.endsAt inner) : ClosesJoin tokens index inner ↔ inner ≠ closer := by
  constructor
  · rintro ⟨join, after, -, pairs⟩ rfl
    obtain rfl := (List.cons.inj (pairs.symm.trans block.closes)).1
    exact absurd after (Nat.lt_irrefl _)
  · -- The view is still open there, so that the end would close it if no join were.
    intro other
    have before := Nat.lt_of_le_of_ne (block.last inner inside ends) other
    have opened : index ∈ tokens.openersAt inner :=
      Tokens.mem_openersAt_earlier (block.closes ▸ List.mem_cons_self) (mem_blockIndices.mp inside).1
        (Nat.le_of_lt before)
    refine (block.closesJoin_iff inside ends).mpr fun nothing => ?_
    cases stack : tokens.openersAt inner with
    | nil => simp [stack] at opened
    | cons top outer =>
      have pairs := Tokens.pairs_of_end ends stack
      have notNewer : ¬index < top := fun newer =>
        absurd (Tokens.mem_openedSince.mpr ⟨stack ▸ List.mem_cons_self, newer⟩) (by simp [nothing])
      have sorted := tokens.openersAt_sorted inner
      rw [stack] at opened sorted
      rcases List.mem_cons.mp opened with rfl | deeper
      · exact other (pairs.unique block.closes)
      · exact notNewer ((List.pairwise_cons.mp sorted).1 index deeper)

theorem endsAt_closer : tokens.endsAt closer :=
  endsAt_of_structure "VIEW" (by decide) block.view block.closes

end ViewBlock

end Clarion.Outline.State
