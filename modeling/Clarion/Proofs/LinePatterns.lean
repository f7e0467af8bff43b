/-! Patterns of lines: the maximal runs of lines with a property, and the pairs of opening and
closing lines in which each closing line takes the latest opening line that is free. -/
namespace Clarion

/-- The lines from `first` to `last` all have the property, and the lines right before and right
after them lack it. -/
structure MaximalRun (property : Nat → Prop) (first last : Nat) : Prop where
  order : first ≤ last
  inside : ∀ line, first ≤ line → line ≤ last → property line
  before : ∀ line, line + 1 = first → ¬property line
  after : ¬property (last + 1)

/-- Only the lines of a run and the two around it matter. -/
theorem MaximalRun.congr {left right : Nat → Prop} {first last : Nat}
    (same : ∀ line, first ≤ line + 1 → line ≤ last + 1 → (left line ↔ right line)) :
    MaximalRun left first last ↔ MaximalRun right first last := by
  have carry {left right : Nat → Prop} (run : MaximalRun left first last)
      (same : ∀ line, first ≤ line + 1 → line ≤ last + 1 → (left line ↔ right line)) :
      MaximalRun right first last := by
    have order := run.order
    refine ⟨order, fun line above below => ?_, fun line next found => ?_, fun found => ?_⟩
    · exact (same line (by omega) (by omega)).mp (run.inside line above below)
    · exact run.before line next ((same line (by omega) (by omega)).mpr found)
    · exact run.after ((same (last + 1) (by omega) (by omega)).mpr found)
  exact ⟨fun run => carry run same, fun run => carry run fun line above below =>
    (same line above below).symm⟩

theorem not_maximalRun_of_none {property : Nat → Prop} (lacking : ∀ line, ¬property line)
    {first last : Nat} : ¬MaximalRun property first last :=
  fun run => lacking first (run.inside first (Nat.le_refl _) run.order)

theorem maximalRun_stretch {start stop first last : Nat} (order : start ≤ stop) :
    MaximalRun (fun line => start ≤ line ∧ line ≤ stop) first last ↔
      first = start ∧ last = stop := by
  constructor
  · intro run
    have starts := run.inside first (Nat.le_refl _) run.order
    have stops := run.inside last run.order (Nat.le_refl _)
    have before : first ≤ start := by
      refine Nat.le_of_not_lt fun inside => run.before (first - 1) (by omega) ?_
      omega
    have after : stop ≤ last := by
      refine Nat.le_of_not_lt fun inside => run.after ?_
      omega
    exact ⟨Nat.le_antisymm before starts.1, Nat.le_antisymm stops.2 after⟩
  · rintro ⟨rfl, rfl⟩
    refine ⟨order, fun line above below => ⟨above, below⟩, fun line next within => ?_,
      fun within => ?_⟩
    · omega
    · omega

/-- A stretch of lines that stands apart from the later ones is a maximal run by itself. -/
theorem maximalRun_apart {start stop first last : Nat} {later : Nat → Prop} (order : start ≤ stop)
    (apart : ∀ line, later line → stop + 1 < line) :
    MaximalRun (fun line => (start ≤ line ∧ line ≤ stop) ∨ later line) first last ↔
      (first = start ∧ last = stop) ∨ MaximalRun later first last := by
  have gap : ¬((start ≤ stop + 1 ∧ stop + 1 ≤ stop) ∨ later (stop + 1)) := by
    rintro (within | found)
    · omega
    · exact Nat.lt_irrefl _ (apart _ found)
  constructor
  · intro run
    by_cases beyond : stop + 1 < first
    · exact .inr ((MaximalRun.congr fun line above _ => or_iff_right (by omega)).mp run)
    · have short : last ≤ stop :=
        Nat.le_of_not_lt fun long => gap (run.inside (stop + 1) (Nat.le_of_not_lt beyond) long)
      have near (line : Nat) (below : line ≤ last + 1) : ¬later line := by
        intro found
        have := apart line found
        omega
      exact .inl ((maximalRun_stretch order).mp
        ((MaximalRun.congr fun line _ below => or_iff_left (near line below)).mp run))
  · rintro (⟨rfl, rfl⟩ | run)
    · have near (line : Nat) (below : line ≤ last + 1) : ¬later line := by
        intro found
        exact absurd below (Nat.not_le_of_lt (apart line found))
      exact (MaximalRun.congr fun line _ below => or_iff_left (near line below)).mpr
        ((maximalRun_stretch order).mpr ⟨rfl, rfl⟩)
    · have beyond := apart first (run.inside first (Nat.le_refl _) run.order)
      exact (MaximalRun.congr fun line above _ => or_iff_right (by omega)).mpr run

/-- Each closing line is paired with the latest opening line before it that no earlier line is
paired with, and there are no other pairs. -/
def PairsLatest (opens closes : Nat → Prop) (pairs : Nat → Nat → Prop) : Prop :=
  ∀ start stop, pairs start stop ↔
    closes stop ∧ (opens start ∧ start < stop ∧ ∀ earlier < stop, ¬pairs start earlier) ∧
      ∀ other, opens other → other < stop → (∀ earlier < stop, ¬pairs other earlier) →
        other ≤ start

namespace PairsLatest

variable {opens closes : Nat → Prop} {pairs others : Nat → Nat → Prop} {line region : Nat}

/-- There is one way to pair the lines. -/
theorem unique (left : PairsLatest opens closes pairs) (right : PairsLatest opens closes others)
    (start stop : Nat) : pairs start stop ↔ others start stop := by
  induction stop using Nat.strongRecOn generalizing start with
  | _ stop ih =>
    -- What a line is paired with depends on the pairs of the lines before it alone.
    have unpaired (opener : Nat) : (∀ earlier < stop, ¬pairs opener earlier) ↔
        ∀ earlier < stop, ¬others opener earlier :=
      forall₂_congr fun earlier before => not_congr (ih earlier before opener)
    rw [left start stop, right start stop]
    simp only [unpaired]

theorem congr {starts stops : Nat → Prop} (sameOpens : ∀ line, opens line ↔ starts line)
    (sameCloses : ∀ line, closes line ↔ stops line)
    (samePairs : ∀ start stop, pairs start stop ↔ others start stop) :
    PairsLatest opens closes pairs ↔ PairsLatest starts stops others := by
  obtain rfl : opens = starts := funext fun line => propext (sameOpens line)
  obtain rfl : closes = stops := funext fun line => propext (sameCloses line)
  obtain rfl : pairs = others :=
    funext fun start => funext fun stop => propext (samePairs start stop)
  rfl

/-- A closing line before every opening line is paired with nothing. -/
theorem idle (paired : PairsLatest opens closes pairs)
    (first : ∀ opener, opens opener → line < opener) :
    PairsLatest opens (fun stop => stop = line ∨ closes stop) pairs := by
  intro start stop
  rw [paired start stop]
  constructor
  · rintro ⟨closing, found⟩
    exact ⟨.inr closing, found⟩
  · rintro ⟨rfl | closing, found⟩
    · have := first start found.1.1
      omega
    · exact ⟨closing, found⟩

/-- A closing line takes the latest opening line before it, and the later lines are paired as they
were without these two. -/
theorem taken (paired : PairsLatest opens closes pairs) (before : region < line)
    (later : ∀ stop, closes stop → line < stop)
    (apart : ∀ opener, opens opener → opener < region ∨ line < opener) :
    PairsLatest (fun start => start = region ∨ opens start)
      (fun stop => stop = line ∨ closes stop)
      (fun start stop => (start = region ∧ stop = line) ∨ pairs start stop) := by
  have lateStop {start stop : Nat} (pair : pairs start stop) : line < stop :=
    later stop ((paired start stop).mp pair).1
  have opened {start stop : Nat} (pair : pairs start stop) : start ≠ region := by
    have := apart start ((paired start stop).mp pair).2.1.1
    omega
  have free (opener earlier : Nat) (sooner : earlier < line) :
      ¬((opener = region ∧ earlier = line) ∨ pairs opener earlier) := by
    rintro (⟨-, same⟩ | pair)
    · omega
    · have := lateStop pair
      omega
  intro start stop
  constructor
  · rintro (⟨rfl, rfl⟩ | pair)
    · refine ⟨.inl rfl, ⟨.inl rfl, before, free start⟩, ?_⟩
      rintro other (rfl | opening) sooner -
      · exact Nat.le_refl _
      · have := apart other opening
        omega
    · obtain ⟨closing, ⟨opening, order, unpaired⟩, latest⟩ := (paired start stop).mp pair
      refine ⟨.inr closing, ⟨.inr opening, order, ?_⟩, ?_⟩
      · rintro earlier sooner (⟨same, -⟩ | found)
        · exact opened pair same
        · exact unpaired earlier sooner found
      · rintro other (rfl | opening) sooner waiting
        · exact absurd (.inl ⟨rfl, rfl⟩) (waiting line (later stop closing))
        · exact latest other opening sooner fun earlier sooner found =>
            waiting earlier sooner (.inr found)
  · rintro ⟨rfl | closing, ⟨rfl | opening, order, unpaired⟩, latest⟩
    · exact .inl ⟨rfl, rfl⟩
    · have above := latest region (.inl rfl) before (free region)
      have := apart start opening
      omega
    · exact absurd (.inl ⟨rfl, rfl⟩) (unpaired line (later stop closing))
    · refine .inr ((paired start stop).mpr ⟨closing, ⟨opening, order, ?_⟩, ?_⟩)
      · exact fun earlier sooner found => unpaired earlier sooner (.inr found)
      · intro other opening sooner waiting
        refine latest other (.inr opening) sooner ?_
        rintro earlier sooner (⟨rfl, -⟩ | found)
        · have := apart other opening
          omega
        · exact waiting earlier sooner found

end PairsLatest

end Clarion
