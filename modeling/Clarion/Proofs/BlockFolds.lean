import Clarion.Proofs.BlockMatching

/-! The folds of blocks and the ends of blocks. Folding keeps one stack over a whole document, while
the end of a block is looked for with a stack of its own; both find the same closing token. In a
document ordered by line the folds of two blocks lie one inside the other or apart. -/
namespace Clarion

namespace Tokens

variable {tokens : Tokens} {opener closer inner other : Nat}

/-- No token stands on an earlier line than those before it. -/
def ByLine (tokens : Tokens) : Prop :=
  tokens.Pairwise fun left right => left.line ≤ right.line

instance (tokens : Tokens) : Decidable tokens.ByLine :=
  inferInstanceAs (Decidable (tokens.Pairwise _))

theorem ByLine.line_le (byLine : tokens.ByLine) {first second : Nat} {left right : Token}
    (foundLeft : tokens[first]? = some left) (foundRight : tokens[second]? = some right)
    (order : first ≤ second) : left.line ≤ right.line := by
  obtain ⟨inLeft, rfl⟩ := List.getElem?_eq_some_iff.mp foundLeft
  obtain ⟨inRight, rfl⟩ := List.getElem?_eq_some_iff.mp foundRight
  rcases Nat.eq_or_lt_of_le order with rfl | before
  · exact Nat.le_refl _
  · exact List.pairwise_iff_getElem.mp byLine first second inLeft inRight before

/-- A token on an earlier line stands before. -/
theorem ByLine.lt_of_line_lt (byLine : tokens.ByLine) {first second : Nat} {left right : Token}
    (foundLeft : tokens[first]? = some left) (foundRight : tokens[second]? = some right)
    (lines : left.line < right.line) : first < second := by
  apply Nat.lt_of_not_le
  intro order
  exact absurd (byLine.line_le foundRight foundLeft order) (Nat.not_le_of_lt lines)

/-- A block that is opened inside another is closed before it. -/
theorem Pairs.nested (outerPairs : tokens.Pairs opener closer) (innerPairs : tokens.Pairs inner other)
    (after : opener < inner) (before : inner < closer) : other < closer := by
  have opened : inner ∈ tokens.openersAt (inner + 1) := by
    rw [openersAt_opens innerPairs.opens]
    exact List.mem_cons_self
  have gone : inner ∉ tokens.openersAt closer := by
    intro still
    have sorted := tokens.openersAt_sorted closer
    rw [outerPairs] at still sorted
    rcases List.mem_cons.mp still with same | deeper
    · exact absurd same (Nat.ne_of_gt after)
    · exact absurd ((List.pairwise_cons.mp sorted).1 inner deeper) (Nat.lt_asymm after)
  obtain ⟨found, -, bound, pairs⟩ := exists_pairs opened before gone
  exact innerPairs.unique pairs ▸ bound

/-- What closes a block is an end, or the condition of a loop. -/
theorem Pairs.ends_or_terminates (pairs : tokens.Pairs opener closer) :
    tokens.endsAt closer ∨ tokens.isLoopTerminator closer := by
  obtain ⟨start, -, closes⟩ := (Option.any_eq_true ..).mp pairs.closes.2
  rw [closesBlock, Bool.or_eq_true, Bool.and_eq_true] at closes
  exact closes.imp_right And.right

theorem not_endsAt_of_terminates (terminates : tokens.isLoopTerminator closer) :
    ¬tokens.endsAt closer := by
  unfold isLoopTerminator at terminates
  unfold endsAt
  split at terminates
  · cases terminates
  · rename_i token found
    have keyword : token.kind = .keyword := by
      simp only [Bool.and_eq_true, beq_iff_eq] at terminates
      exact terminates.1.1
    simp [found, keyword]

end Tokens

namespace Fold

variable {tokens : Tokens} {start stop : Nat} {kind : FoldKind} {fold : Fold}

theorem mem_of : fold ∈ Fold.of start stop kind ↔ start < stop ∧ fold = ⟨start, stop, kind⟩ := by
  unfold Fold.of
  split
  · rename_i order
    simp [order]
  · rename_i order
    simp [order]

/-- Where no closing line is known, each fold runs from the line of a block's opener to the line of
what closes it. -/
theorem pairs_of_mem_blocks (unknown : ∀ token ∈ tokens, token.finishesAt = none)
    (member : fold ∈ blocks tokens) :
    ∃ opener closer first last, tokens.Pairs opener closer ∧ tokens[opener]? = some first ∧
      tokens[closer]? = some last ∧ fold.startLine = first.line ∧ fold.endLine = last.line := by
  rcases (mem_blocks tokens fold).mp member with
    ⟨opener, closer, pairs, first, last, starts, stops, folded⟩ |
    ⟨opener, -, first, line, starts, known, -⟩
  · rw [unknown first (List.mem_of_getElem? starts), Option.getD_none] at folded
    obtain ⟨-, rfl⟩ := mem_of.mp folded
    exact ⟨opener, closer, first, last, pairs, starts, stops, rfl, rfl⟩
  · rw [unknown first (List.mem_of_getElem? starts)] at known
    cases known

theorem blocks_nest (byLine : tokens.ByLine)
    (unknown : ∀ token ∈ tokens, token.finishesAt = none) {first second : Fold}
    (inFirst : first ∈ blocks tokens) (inSecond : second ∈ blocks tokens)
    (after : first.startLine < second.startLine) (before : second.startLine < first.endLine) :
    second.endLine ≤ first.endLine := by
  obtain ⟨opener, closer, start, stop, pairs, starts, stops, startLine, stopLine⟩ :=
    pairs_of_mem_blocks unknown inFirst
  obtain ⟨inner, other, innerStart, innerStop, innerPairs, innerStarts, innerStops, innerLine,
    otherLine⟩ := pairs_of_mem_blocks unknown inSecond
  rw [startLine, innerLine] at after
  rw [innerLine, stopLine] at before
  rw [otherLine, stopLine]
  have closed := pairs.nested innerPairs (byLine.lt_of_line_lt starts innerStarts after)
    (byLine.lt_of_line_lt innerStarts stops before)
  exact byLine.line_le innerStops stops (Nat.le_of_lt closed)

/-- A document folds where a token closes a block, and a block without a known closing line ends at
that same token: right after an end, and after the whole line of a condition; a block that no token
closes takes in the rest of the document. When the document is ordered by line and no closing line
is known, no two folds cross. -/
theorem blocks_end_where_they_fold (tokens : Tokens) :
    blocks tokens = (List.range tokens.length).flatMap (closedAt tokens) ++
      (tokens.tokensAt (tokens.openersAt tokens.length)).reverse.flatMap (fun opener =>
        opener.finishesAt.elim [] fun last => Fold.of opener.line last .region) ∧
    (∀ opener token, tokens.opensBlock opener → tokens[opener]? = some token →
      token.finishesAt = none →
      (∀ closer, tokens.closedAt? closer = some opener →
        (tokens.endsAt closer ∨ tokens.isLoopTerminator closer) ∧
        (tokens.endsAt closer → tokens.blockEnd opener = closer + 1) ∧
        (tokens.isLoopTerminator closer →
          tokens.blockEnd opener = tokens.logicalLineEnd closer)) ∧
      ((∀ closer, tokens.closedAt? closer ≠ some opener) →
        tokens.blockEnd opener = tokens.length)) ∧
    (tokens.ByLine → (∀ token ∈ tokens, token.finishesAt = none) →
      ∀ first ∈ blocks tokens, ∀ second ∈ blocks tokens,
        ¬(first.startLine < second.startLine ∧ second.startLine < first.endLine ∧
          first.endLine < second.endLine)) := by
  refine ⟨blocks_eq tokens, fun opener token opens found openEnded => ⟨?_, ?_⟩, ?_⟩
  · intro closer closed
    have pairs := Tokens.closedAt?_eq_some_iff.mp closed
    have stops : tokens.blockEnd opener = tokens.stopAfter closer := by
      rcases Tokens.blockEnd_pairs opens found openEnded with ⟨other, otherPairs, stops⟩ | ⟨still, -⟩
      · rw [stops, pairs.unique otherPairs]
      · exact absurd still (pairs.not_mem_later pairs.bound)
    refine ⟨pairs.ends_or_terminates, fun ends => ?_, fun terminates => ?_⟩
    · rw [stops, Tokens.stopAfter, if_pos ends]
    · rw [stops, Tokens.stopAfter, if_neg (Tokens.not_endsAt_of_terminates terminates)]
  · intro unclosed
    rcases Tokens.blockEnd_pairs opens found openEnded with ⟨closer, pairs, -⟩ | ⟨-, stops⟩
    · exact absurd (Tokens.closedAt?_eq_some_iff.mpr pairs) (unclosed closer)
    · exact stops
  · rintro byLine unknown first inFirst second inSecond ⟨after, before, beyond⟩
    have inside := blocks_nest byLine unknown inFirst inSecond after before
    exact absurd beyond (Nat.not_lt_of_le inside)

/-- A loop that a condition closes, with a block inside it that an end closes, and a block after it
that nothing closes. -/
def loopUntil : Tokens :=
  [{ kind := .keyword, value := "LOOP", line := 0, start := 2 },
    { kind := .keyword, value := "IF", line := 1, start := 4 },
    { kind := .endStatement, value := "END", line := 2, start := 4 },
    { kind := .keyword, value := "UNTIL", line := 3, start := 2 },
    { kind := .variableName, value := "Done", line := 3, start := 8 },
    { kind := .keyword, value := "CASE", line := 4, start := 2 }]

theorem loopUntil_ends :
    loopUntil.blockEnd 0 = 5 ∧ loopUntil.blockEnd 1 = 3 ∧ loopUntil.blockEnd 5 = 6 ∧
      ∀ first ∈ blocks loopUntil, ∀ second ∈ blocks loopUntil,
        ¬(first.startLine < second.startLine ∧ second.startLine < first.endLine ∧
          first.endLine < second.endLine) := by
  obtain ⟨-, ends, nests⟩ := blocks_end_where_they_fold loopUntil
  have unclosed : ∀ closer, loopUntil.closedAt? closer ≠ some 5 := by
    intro closer closed
    have bound := (Tokens.closedAt?_eq_some_iff.mp closed).bound
    have nowhere : ∀ closer < 6, loopUntil.closedAt? closer ≠ some 5 := by decide +kernel
    exact nowhere closer bound closed
  obtain ⟨-, -, byCondition⟩ := (ends 0 _ (by decide +kernel) rfl rfl).1 3 (by decide +kernel)
  obtain ⟨-, byEnd, -⟩ := (ends 1 _ (by decide +kernel) rfl rfl).1 2 (by decide +kernel)
  refine ⟨(byCondition (by decide +kernel)).trans (by decide +kernel), byEnd (by decide +kernel),
    (ends 5 _ (by decide +kernel) rfl rfl).2 unclosed, nests (by decide +kernel) (by decide)⟩

end Fold
end Clarion
