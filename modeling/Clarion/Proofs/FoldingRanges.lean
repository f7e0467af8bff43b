import Clarion.Proofs.CommentFolds
import Clarion.Proofs.Ranges

/-! The folding ranges of a document. Three passes find folds; a stable sort by their lines and the
removal of neighbours with the same lines leave for each span the fold that was found first. In a
document ordered by line without known closing lines, the folds of bodies lie one after the other,
each up to the line before the next body. -/
namespace Clarion

namespace Tokens

variable {tokens : Tokens} {line start stop next other : Nat}

/-- A body starts on the line. -/
def BodyOn (tokens : Tokens) (line : Nat) : Prop :=
  ∃ token ∈ tokens, Fold.startsBody token ∧ token.line = line

/-- The first line after another on which a body starts. -/
structure NextBody (tokens : Tokens) (line next : Nat) : Prop where
  after : line < next
  starts : tokens.BodyOn next
  between : ∀ other, line < other → other < next → ¬tokens.BodyOn other

/-- The last line of the bodies that start on a line: the one before the next line on which a body
starts, and the line of the last token when there is none. -/
def BodyEnds (tokens : Tokens) (start stop : Nat) : Prop :=
  tokens.NextBody start (stop + 1) ∨
    (∀ other, start < other → ¬tokens.BodyOn other) ∧ tokens.getLast?.map Token.line = some stop

theorem NextBody.unique (first : tokens.NextBody line next) (second : tokens.NextBody line other) :
    next = other := by
  rcases Nat.lt_trichotomy next other with less | same | greater
  · exact absurd first.starts (second.between next first.after less)
  · exact same
  · exact absurd second.starts (first.between other second.after greater)

theorem BodyEnds.unique (ends : tokens.BodyEnds start stop) (again : tokens.BodyEnds start other) :
    stop = other := by
  rcases ends with next | ⟨none, last⟩
  · rcases again with second | ⟨none, -⟩
    · exact Nat.succ.inj (next.unique second)
    · exact absurd next.starts (none _ next.after)
  · rcases again with next | ⟨-, again⟩
    · exact absurd next.starts (none _ next.after)
    · exact Option.some.inj (last.symm.trans again)

/-- A body ends before a later one starts. -/
theorem BodyEnds.lt (ends : tokens.BodyEnds start stop) (later : start < other)
    (starts : tokens.BodyOn other) : stop < other := by
  rcases ends with next | ⟨none, -⟩
  · apply Nat.lt_of_not_le
    intro inside
    exact next.between other later (Nat.lt_succ_of_le inside) starts
  · exact absurd starts (none other later)

end Tokens

namespace Fold

variable {tokens rest starts : Tokens} {token : Token} {folds : List Fold} {fold left right : Fold}
  {lastLine start stop : Nat} {kind : FoldKind} {run : Run} {regions : List Nat}
  {previous : Option Nat}

/-! ### Spans -/

/-- The lines of a fold, ordered by the first of them and then by the last. -/
def span (fold : Fold) : Nat ×ₗ Nat :=
  toLex (fold.startLine, fold.endLine)

theorem sameSpan_iff : sameSpan left right ↔ left.span = right.span := by
  simp [sameSpan, span]

theorem sameSpan_eq_false : sameSpan left right = false ↔ left.span ≠ right.span := by
  rw [Bool.eq_false_iff, Ne, sameSpan_iff]

theorem spanLe_iff : spanLe left right ↔ left.span ≤ right.span := by
  simp [spanLe, span, Prod.Lex.toLex_le_toLex]

theorem spanLe_trans (first middle last : Fold) (before : spanLe first middle)
    (after : spanLe middle last) : spanLe first last :=
  spanLe_iff.mpr ((spanLe_iff.mp before).trans (spanLe_iff.mp after))

theorem spanLe_total (left right : Fold) : spanLe left right || spanLe right left := by
  rw [Bool.or_eq_true, spanLe_iff, spanLe_iff]
  exact le_total left.span right.span

theorem sorted_mergeSort (folds : List Fold) :
    (folds.mergeSort spanLe).Pairwise fun left right => left.span ≤ right.span :=
  (List.pairwise_mergeSort spanLe_trans spanLe_total folds).imp spanLe_iff.mp

/-- Sorting does not change which fold of a span comes first. -/
theorem find?_mergeSort (folds : List Fold) (fold : Fold) :
    (folds.mergeSort spanLe).find? (sameSpan fold) = folds.find? (sameSpan fold) := by
  have alike (left right : Fold) (sameLeft : sameSpan fold left) (sameRight : sameSpan fold right) :
      spanLe left right :=
    spanLe_iff.mpr ((sameSpan_iff.mp sameLeft).symm.trans (sameSpan_iff.mp sameRight)).le
  rw [← List.head?_filter, ← List.head?_filter, filter_mergeSort spanLe_trans spanLe_total alike]

/-- The first fold of a sorted list stays, and takes the place of the next one with its span. -/
theorem distinct_cons (fold : Fold) (folds : List Fold) :
    distinct (fold :: folds) =
      fold :: if (distinct folds).head?.any (sameSpan fold) then (distinct folds).tail
        else distinct folds := by
  cases later : distinct folds with
  | nil => simp [distinct, later]
  | cons next others => cases same : sameSpan fold next <;> simp [distinct, later, same]

theorem mem_of_mem_distinct (member : fold ∈ distinct folds) : fold ∈ folds := by
  induction folds with
  | nil => cases member
  | cons first rest ih =>
    rw [distinct_cons] at member
    rcases List.mem_cons.mp member with rfl | member
    · exact List.mem_cons_self
    · split at member
      · exact List.mem_cons_of_mem _ (ih (List.mem_of_mem_tail member))
      · exact List.mem_cons_of_mem _ (ih member)

/-- Of a sorted list the first fold of each span is left, in the order of the spans. -/
theorem distinct_sorted (sorted : folds.Pairwise fun left right => left.span ≤ right.span) :
    (distinct folds).Pairwise (fun left right => left.span < right.span) ∧
    ∀ fold, fold ∈ distinct folds ↔ folds.find? (sameSpan fold) = some fold := by
  induction folds with
  | nil => exact ⟨.nil, by simp [distinct]⟩
  | cons first rest ih =>
    obtain ⟨before, sorted⟩ := List.pairwise_cons.mp sorted
    obtain ⟨ascending, firsts⟩ := ih sorted
    -- What is kept of the rest is all that does not share the span of the first fold, as only the
    -- least of it can.
    have kept : (if (distinct rest).head?.any (sameSpan first) then (distinct rest).tail
        else distinct rest) = (distinct rest).filter fun fold => !sameSpan first fold := by
      have low (fold : Fold) (member : fold ∈ distinct rest) : first.span ≤ fold.span :=
        before fold (mem_of_mem_distinct member)
      cases later : distinct rest with
      | nil => simp
      | cons next others =>
        rw [later] at ascending low
        obtain ⟨above, -⟩ := List.pairwise_cons.mp ascending
        have apart : others.filter (fun fold => !sameSpan first fold) = others := by
          rw [List.filter_eq_self]
          intro fold member
          have beyond := (low next List.mem_cons_self).trans_lt (above fold member)
          simpa [sameSpan_eq_false] using beyond.ne
        cases same : sameSpan first next <;> simp [same, apart]
    rw [distinct_cons, kept]
    refine ⟨List.pairwise_cons.mpr ⟨fun fold member => ?_, ascending.filter _⟩, fun fold => ?_⟩
    · obtain ⟨member, other⟩ := List.mem_filter.mp member
      refine lt_of_le_of_ne (before fold (mem_of_mem_distinct member)) fun same => ?_
      simp [sameSpan_iff.mpr same] at other
    · rw [List.mem_cons, List.mem_filter, firsts]
      cases same : sameSpan fold first with
      | true =>
        have flipped : sameSpan first fold := sameSpan_iff.mpr (sameSpan_iff.mp same).symm
        simp [same, flipped, eq_comm]
      | false =>
        have flipped : sameSpan first fold = false :=
          sameSpan_eq_false.mpr (sameSpan_eq_false.mp same).symm
        have other : fold ≠ first := by
          rintro rfl
          simp [sameSpan] at same
        simp [same, flipped, other]

/-! ### The passes -/

/-- The folds of the passes over a document, in the order of the passes. -/
def passes (tokens : Tokens) : List (List Fold) :=
  [blocks tokens, bodies tokens, comments tokens]

/-- The fold is the first of its span that the passes find. -/
def FirstOfSpan (tokens : Tokens) (fold : Fold) : Prop :=
  ∃ earlier sooner back later, passes tokens = earlier ++ (sooner ++ fold :: back) :: later ∧
    (∀ pass ∈ earlier, ∀ other ∈ pass, other.span ≠ fold.span) ∧
    ∀ other ∈ sooner, other.span ≠ fold.span

theorem all_eq (tokens : Tokens) :
    all tokens = distinct ((passes tokens).flatten.mergeSort spanLe) := by
  simp [all, passes]

theorem mem_all_iff_find? :
    fold ∈ all tokens ↔ (passes tokens).flatten.find? (sameSpan fold) = some fold := by
  rw [all_eq, (distinct_sorted (sorted_mergeSort _)).2, find?_mergeSort]

theorem mem_all : fold ∈ all tokens ↔ FirstOfSpan tokens fold := by
  have other (left : Fold) : (!sameSpan fold left) = true ↔ left.span ≠ fold.span := by
    rw [Bool.not_eq_true', sameSpan_eq_false, ne_comm]
  rw [mem_all_iff_find?, List.find?_flatten_eq_some_iff, FirstOfSpan]
  simp only [other]
  exact and_iff_right (sameSpan_iff.mpr rfl)

/-- The ranges have the spans of all folds, and no others. -/
theorem span_of_all {lines : Nat ×ₗ Nat} :
    (∃ fold ∈ all tokens, fold.span = lines) ↔
      ∃ pass ∈ passes tokens, ∃ fold ∈ pass, fold.span = lines := by
  constructor
  · rintro ⟨fold, member, same⟩
    have listed := List.mem_of_find?_eq_some (mem_all_iff_find?.mp member)
    obtain ⟨pass, inPasses, inPass⟩ := List.mem_flatten.mp listed
    exact ⟨pass, inPasses, fold, inPass, same⟩
  · rintro ⟨pass, inPasses, fold, inPass, rfl⟩
    have listed : fold ∈ (passes tokens).flatten := List.mem_flatten.mpr ⟨pass, inPasses, inPass⟩
    cases first : (passes tokens).flatten.find? (sameSpan fold) with
    | none =>
      have apart := List.find?_eq_none.mp first fold listed
      exact absurd (sameSpan_iff.mpr rfl) apart
    | some kept =>
      have equal : fold.span = kept.span := sameSpan_iff.mp (List.find?_some first)
      have spans : sameSpan kept = sameSpan fold := by
        funext other
        rw [Bool.eq_iff_iff, sameSpan_iff, sameSpan_iff, equal]
      exact ⟨kept, mem_all_iff_find?.mpr (spans ▸ first), equal.symm⟩

theorem lt_of_mem_of (member : fold ∈ Fold.of start stop kind) : fold.startLine < fold.endLine := by
  obtain ⟨order, rfl⟩ := mem_of.mp member
  exact order

theorem lt_of_mem_blocks (member : fold ∈ blocks tokens) : fold.startLine < fold.endLine := by
  rcases (mem_blocks tokens fold).mp member with ⟨_, _, -, _, _, -, -, folded⟩ |
    ⟨_, -, _, _, -, -, folded⟩
  · exact lt_of_mem_of folded
  · exact lt_of_mem_of folded

theorem lt_of_mem_ofRun (member : fold ∈ ofRun run) : fold.startLine < fold.endLine := by
  rcases run with _ | ⟨first, last⟩
  · cases member
  · exact lt_of_mem_of member

theorem lt_of_mem_commentsFrom (member : fold ∈ commentsFrom regions run previous rest) :
    fold.startLine < fold.endLine := by
  induction rest generalizing regions run previous with
  | nil => exact lt_of_mem_ofRun member
  | cons token rest ih =>
    have afterRun {regions : List Nat} {next : Run} {previous : Option Nat}
        (member : fold ∈ ofRun run ++ commentsFrom regions next previous rest) :
        fold.startLine < fold.endLine :=
      (List.mem_append.mp member).elim lt_of_mem_ofRun ih
    unfold commentsFrom at member
    dsimp only at member
    split at member
    · exact afterRun member
    · split at member
      · exact ih member
      · split at member
        · split at member
          · exact afterRun member
          · rw [List.append_assoc] at member
            rcases List.mem_append.mp member with ended | member
            · exact lt_of_mem_ofRun ended
            · exact (List.mem_append.mp member).elim lt_of_mem_of ih
        · split at member
          · exact afterRun member
          · split at member
            · split at member
              · exact ih member
              · exact afterRun member
            · exact ih member

/-! ### Bodies -/

/-- The folds of the bodies are those of the single ones, each seen with the bodies after it. -/
theorem mem_bodiesFrom : fold ∈ bodiesFrom lastLine starts ↔
    ∃ front token back, starts = front ++ token :: back ∧
      fold ∈ Fold.of token.line (token.finishesAt.getD
        (((back.map Token.line).find? (token.line < ·)).elim lastLine (· - 1))) .region := by
  induction starts with
  | nil => simp [bodiesFrom]
  | cons first rest ih =>
    rw [bodiesFrom, List.mem_append, ih]
    constructor
    · rintro (folded | ⟨front, token, back, rfl, folded⟩)
      · exact ⟨[], first, rest, rfl, folded⟩
      · exact ⟨first :: front, token, back, rfl, folded⟩
    · rintro ⟨front, token, back, split, folded⟩
      rcases List.cons_eq_append_iff.mp split with ⟨rfl, same⟩ | ⟨front, rfl, rfl⟩
      · obtain ⟨rfl, rfl⟩ := List.cons.inj same
        exact .inl folded
      · exact .inr ⟨front, token, back, rfl, folded⟩

theorem lt_of_mem_bodies (member : fold ∈ bodies tokens) : fold.startLine < fold.endLine := by
  unfold bodies at member
  split at member
  · cases member
  · obtain ⟨_, _, _, -, folded⟩ := mem_bodiesFrom.mp member
    exact lt_of_mem_of folded

/-- Where tokens are ordered by line, the next body is found among those after a body. -/
theorem next_bodyEnds {front back : Tokens} {last : Token} (byLine : tokens.ByLine)
    (split : tokens.filter startsBody = front ++ token :: back)
    (ends : tokens.getLast? = some last) :
    tokens.BodyEnds token.line
      (((back.map Token.line).find? (token.line < ·)).elim last.line (· - 1)) := by
  have sorted : (front ++ token :: back).Pairwise fun left right => left.line ≤ right.line :=
    split ▸ byLine.filter startsBody
  obtain ⟨-, sorted, before⟩ := List.pairwise_append.mp sorted
  obtain ⟨-, sorted⟩ := List.pairwise_cons.mp sorted
  have listed (other : Nat) (later : token.line < other) :
      tokens.BodyOn other ↔ other ∈ back.map Token.line := by
    have member (start : Token) : (start ∈ tokens ∧ startsBody start) ↔
        start ∈ front ++ token :: back := by rw [← split, List.mem_filter]
    rw [List.mem_map]
    constructor
    · rintro ⟨start, inTokens, starts, rfl⟩
      rcases List.mem_append.mp ((member start).mp ⟨inTokens, starts⟩) with earlier | here
      · exact absurd later (Nat.not_lt_of_le (before start earlier token List.mem_cons_self))
      · rcases List.mem_cons.mp here with rfl | inBack
        · exact absurd later (Nat.lt_irrefl _)
        · exact ⟨start, inBack, rfl⟩
    · rintro ⟨start, inBack, rfl⟩
      obtain ⟨inTokens, starts⟩ :=
        (member start).mpr (List.mem_append_right _ (List.mem_cons_of_mem _ inBack))
      exact ⟨start, inTokens, starts, rfl⟩
  cases found : (back.map Token.line).find? (token.line < ·) with
  | none =>
    refine .inr ⟨fun other later starts => ?_, by rw [ends]; rfl⟩
    have passed := List.find?_eq_none.mp found other ((listed other later).mp starts)
    simp [later] at passed
  | some next =>
    have later : token.line < next := by simpa using List.find?_some found
    have shift : next - 1 + 1 = next := by omega
    rw [Option.elim_some]
    refine .inl ?_
    rw [shift]
    refine ⟨later, (listed next later).mpr (List.mem_of_find?_eq_some found), ?_⟩
    intro other after sooner starts
    obtain ⟨-, passed, remaining, parts, skipped⟩ := List.find?_eq_some_iff_append.mp found
    have inLines := (listed other after).mp starts
    have ascending : (back.map Token.line).Pairwise (· ≤ ·) := List.pairwise_map.mpr sorted
    rw [parts] at inLines ascending
    rcases List.mem_append.mp inLines with inPassed | inRest
    · have notAfter := skipped other inPassed
      simp [after] at notAfter
    · rcases List.mem_cons.mp inRest with rfl | inRemaining
      · exact Nat.lt_irrefl _ sooner
      · have order := (List.pairwise_cons.mp (List.pairwise_append.mp ascending).2.1).1 other inRemaining
        exact absurd sooner (Nat.not_lt_of_le order)

/-- Without known closing lines, a body folds from the line it starts on to the line before the next
one, and the last to the end of the document. -/
theorem mem_bodies (byLine : tokens.ByLine)
    (unknown : ∀ token ∈ tokens, token.finishesAt = none) :
    fold ∈ bodies tokens ↔ fold.kind = .region ∧ fold.startLine < fold.endLine ∧
      tokens.BodyOn fold.startLine ∧ tokens.BodyEnds fold.startLine fold.endLine := by
  unfold bodies
  cases ends : tokens.getLast? with
  | none =>
    obtain rfl := List.getLast?_eq_none_iff.mp ends
    simp [Tokens.BodyOn]
  | some last =>
    dsimp only
    rw [mem_bodiesFrom]
    constructor
    · rintro ⟨front, token, back, split, folded⟩
      have member : token ∈ tokens.filter startsBody := split ▸ List.mem_append_right _ List.mem_cons_self
      obtain ⟨inTokens, starts⟩ := List.mem_filter.mp member
      rw [unknown token inTokens, Option.getD_none] at folded
      obtain ⟨order, rfl⟩ := mem_of.mp folded
      exact ⟨rfl, order, ⟨token, inTokens, starts, rfl⟩, next_bodyEnds byLine split ends⟩
    · obtain ⟨start, stop, kind⟩ := fold
      rintro ⟨rfl, order, ⟨token, inTokens, starts, rfl⟩, bodyEnds⟩
      obtain ⟨front, back, split⟩ :=
        List.append_of_mem (List.mem_filter.mpr ⟨inTokens, starts⟩)
      refine ⟨front, token, back, split, ?_⟩
      rw [unknown token inTokens, Option.getD_none,
        (next_bodyEnds byLine split ends).unique bodyEnds]
      exact mem_of.mpr ⟨order, rfl⟩

theorem bodies_apart (byLine : tokens.ByLine)
    (unknown : ∀ token ∈ tokens, token.finishesAt = none) (inLeft : left ∈ bodies tokens)
    (inRight : right ∈ bodies tokens) (other : left ≠ right) :
    left.endLine < right.startLine ∨ right.endLine < left.startLine := by
  obtain ⟨kindLeft, -, startsLeft, endsLeft⟩ := (mem_bodies byLine unknown).mp inLeft
  obtain ⟨kindRight, -, startsRight, endsRight⟩ := (mem_bodies byLine unknown).mp inRight
  rcases Nat.lt_trichotomy left.startLine right.startLine with before | same | after
  · exact .inl (endsLeft.lt before startsRight)
  · have sameEnd := endsLeft.unique (same ▸ endsRight)
    refine absurd ?_ other
    cases left
    cases right
    simp_all
  · exact .inr (endsRight.lt after startsLeft)

/-- The folding ranges are strictly ordered by their lines, each over more than one line. Their
spans are those that the passes find, and each range is the first fold of its span, so that the
first pass to find the span determines its kind. When the document is ordered by line and no closing
line is known, the bodies fold from the lines they start on to the lines before the next ones, and
their folds lie apart. -/
theorem ranges_merge_passes (tokens : Tokens) :
    (all tokens).Pairwise (fun left right => left.span < right.span) ∧
    (∀ fold ∈ all tokens, fold.startLine < fold.endLine) ∧
    (∀ lines, (∃ fold ∈ all tokens, fold.span = lines) ↔
      ∃ pass ∈ passes tokens, ∃ fold ∈ pass, fold.span = lines) ∧
    (∀ fold, fold ∈ all tokens ↔ FirstOfSpan tokens fold) ∧
    (tokens.ByLine → (∀ token ∈ tokens, token.finishesAt = none) →
      (∀ fold, fold ∈ bodies tokens ↔ fold.kind = .region ∧ fold.startLine < fold.endLine ∧
        tokens.BodyOn fold.startLine ∧ tokens.BodyEnds fold.startLine fold.endLine) ∧
      ∀ left ∈ bodies tokens, ∀ right ∈ bodies tokens, left ≠ right →
        left.endLine < right.startLine ∨ right.endLine < left.startLine) := by
  refine ⟨?_, fun fold member => ?_, fun lines => span_of_all, fun fold => mem_all,
    fun byLine unknown => ⟨fun fold => mem_bodies byLine unknown,
      fun left inLeft right inRight => bodies_apart byLine unknown inLeft inRight⟩⟩
  · rw [all_eq]
    exact (distinct_sorted (sorted_mergeSort _)).1
  · obtain ⟨pass, inPasses, inPass⟩ :=
      List.mem_flatten.mp (List.mem_of_find?_eq_some (mem_all_iff_find?.mp member))
    simp only [passes, List.mem_cons, List.not_mem_nil, or_false] at inPasses
    rcases inPasses with rfl | rfl | rfl
    · exact lt_of_mem_blocks inPass
    · exact lt_of_mem_bodies inPass
    · exact lt_of_mem_commentsFrom inPass

/-- A procedure and a routine, with a loop that starts on the line of the routine and ends on that
of the first of two remarks. -/
def twoBodies : Tokens :=
  [{ kind := .procedure, value := "PROCEDURE", line := 0, start := 6 },
    { kind := .executionMarker, value := "CODE", line := 1, start := 2 },
    { kind := .routine, value := "ROUTINE", line := 3, start := 6 },
    { kind := .keyword, value := "LOOP", line := 3, start := 15 },
    { kind := .endStatement, value := "END", line := 5, start := 2 },
    { kind := .comment, value := "! first", line := 6, start := 0 },
    { kind := .comment, value := "! second", line := 7, start := 0 }]

theorem twoBodies_fold :
    twoBodies.BodyEnds 0 2 ∧ twoBodies.BodyEnds 3 7 ∧
      ∀ left ∈ bodies twoBodies, ∀ right ∈ bodies twoBodies, left ≠ right →
        left.endLine < right.startLine ∨ right.endLine < left.startLine := by
  obtain ⟨-, -, -, -, ofBodies⟩ := ranges_merge_passes twoBodies
  obtain ⟨runs, apart⟩ := ofBodies (by decide) (by decide)
  obtain ⟨-, -, -, first⟩ := (runs ⟨0, 2, .region⟩).mp (by decide +kernel)
  obtain ⟨-, -, -, second⟩ := (runs ⟨3, 7, .region⟩).mp (by decide +kernel)
  exact ⟨first, second, apart⟩

end Fold
end Clarion
