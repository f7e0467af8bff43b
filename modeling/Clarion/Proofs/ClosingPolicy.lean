import Clarion.Proofs.ScopeStack

/-! Which scopes close when the scan reaches a line. Three searches over the stack decide together:
a line that starts a global procedure bounds the scopes that may stay, a protected global procedure
sets a floor under those that are looked at, and the outermost scope between the two that is past
its closing line is where the stack is cut. -/
namespace Clarion.Outline.Scopes

variable {scopes : Scopes} {holds : Scope → Bool} {line bound floor count other index : Nat}
  {startsGlobal hasMethods : Bool}

/-- The scope at the index is the topmost one below the bound that satisfies the test. -/
structure Topmost (scopes : Scopes) (holds : Scope → Bool) (bound index : Nat) : Prop where
  below : index < bound
  here : scopes[index]?.any holds
  above : ∀ other, index < other → other < bound → scopes[other]?.any holds = false

theorem Topmost.unique (first : scopes.Topmost holds bound index)
    (second : scopes.Topmost holds bound other) : index = other := by
  rcases Nat.lt_trichotomy index other with less | same | greater
  · exact absurd second.here (by simp [first.above other less second.below])
  · exact same
  · exact absurd first.here (by simp [second.above index greater first.below])

/-- Only the scopes below the bound matter. -/
theorem Topmost.congr {others : Scopes} (topmost : scopes.Topmost holds bound index)
    (shared : ∀ other < bound, others[other]? = scopes[other]?) :
    others.Topmost holds bound index where
  below := topmost.below
  here := (shared index topmost.below).symm ▸ topmost.here
  above other after before := (shared other before).symm ▸ topmost.above other after before

theorem lastIndex?_topmost (found : lastIndex? scopes holds = some index) :
    scopes.Topmost holds scopes.length index := by
  have below := lastIndex?_lt found
  obtain ⟨position, present, rfl⟩ := Option.map_eq_some_iff.mp found
  obtain ⟨bound, passes, earlier⟩ := List.findIdx?_eq_some_iff_getElem.mp present
  rw [List.length_reverse] at bound
  refine ⟨below, ?_, fun other after before => ?_⟩
  · rw [List.getElem_reverse] at passes
    simpa [List.getElem?_eq_getElem below] using passes
  · have fails := earlier (scopes.length - 1 - other) (by omega)
    rw [List.getElem_reverse] at fails
    have mirrored : scopes.length - 1 - (scopes.length - 1 - other) = other := by omega
    simpa [mirrored, List.getElem?_eq_getElem before] using fails

theorem lastIndex?_none (missing : lastIndex? scopes holds = none) (index : Nat) :
    scopes[index]?.any holds = false := by
  have nowhere := (lastIndex?_isSome scopes holds).not
  rw [missing] at nowhere
  rw [Bool.eq_false_iff]
  intro here
  obtain ⟨scope, found, passes⟩ := (Option.any_eq_true ..).mp here
  exact nowhere.mp (by simp) ⟨scope, List.mem_of_getElem? found, passes⟩

/-! ### The bound and the floor -/

/-- Up to where scopes may stay open: up to the topmost global procedure if the line starts one, and
all of them otherwise. -/
def ClosingBound (scopes : Scopes) (startsGlobal : Bool) (bound : Nat) : Prop :=
  (startsGlobal ∧ scopes.Topmost isGlobal scopes.length bound) ∨
  (¬(startsGlobal ∧ ∃ scope ∈ scopes, isGlobal scope) ∧ bound = scopes.length)

/-- From where on scopes are looked at: from right above the topmost global procedure below the
bound while there are method implementations, and from the bottom otherwise. -/
def ProtectedFloor (scopes : Scopes) (hasMethods : Bool) (bound floor : Nat) : Prop :=
  (hasMethods ∧ ∃ index, scopes.Topmost isGlobal bound index ∧ floor = index + 1) ∨
  (¬(hasMethods ∧ ∃ index < bound, scopes[index]?.any isGlobal) ∧ floor = 0)

theorem ProtectedFloor.unique (first : scopes.ProtectedFloor hasMethods bound floor)
    (second : scopes.ProtectedFloor hasMethods bound other) : floor = other := by
  have found {index : Nat} (topmost : scopes.Topmost isGlobal bound index) :
      ∃ index < bound, scopes[index]?.any isGlobal := ⟨index, topmost.below, topmost.here⟩
  rcases first with ⟨methods, _, topmost, rfl⟩ | ⟨free, rfl⟩
  · rcases second with ⟨-, _, again, rfl⟩ | ⟨free, -⟩
    · rw [topmost.unique again]
    · exact absurd ⟨methods, found topmost⟩ free
  · rcases second with ⟨methods, _, topmost, -⟩ | ⟨-, rfl⟩
    · exact absurd ⟨methods, found topmost⟩ free
    · rfl

/-- The stack is cut at the outermost scope between floor and bound that is past its closing line,
and at the bound if there is none. -/
structure CutsAt (scopes : Scopes) (line floor bound count : Nat) : Prop where
  aboveFloor : floor ≤ count
  withinBound : count ≤ bound
  kept : ∀ index, floor ≤ index → index < count → scopes[index]?.any (isPast line) = false
  cut : count = bound ∨ scopes[count]?.any (isPast line)

theorem CutsAt.le_of_past {later : Nat} (cuts : scopes.CutsAt line floor bound count)
    (others : scopes.CutsAt later floor bound other)
    (past : scopes[count]?.any (isPast line) → scopes[count]?.any (isPast later)) :
    other ≤ count := by
  apply Nat.le_of_not_lt
  intro beyond
  rcases cuts.cut with same | here
  · exact absurd others.withinBound (Nat.not_le_of_lt (same ▸ beyond))
  · have kept := others.kept count cuts.aboveFloor beyond
    simp [past here] at kept

theorem CutsAt.unique (first : scopes.CutsAt line floor bound count)
    (second : scopes.CutsAt line floor bound other) : count = other :=
  Nat.le_antisymm (second.le_of_past first id) (first.le_of_past second id)

/-! ### The three searches -/

/-- The bound that the policy computes. -/
def closingBound (scopes : Scopes) (startsGlobal : Bool) : Nat :=
  if startsGlobal then (scopes.lastIndex? isGlobal).getD scopes.length else scopes.length

/-- The floor that the policy computes. -/
def protectedFloor (scopes : Scopes) (hasMethods : Bool) (bound : Nat) : Nat :=
  if hasMethods then (lastIndex? (scopes.take bound) isGlobal).elim 0 (· + 1) else 0

theorem closingBound_spec (scopes : Scopes) (startsGlobal : Bool) :
    scopes.ClosingBound startsGlobal (scopes.closingBound startsGlobal) := by
  unfold closingBound
  cases startsGlobal with
  | false => exact .inr ⟨by simp, rfl⟩
  | true =>
    cases found : scopes.lastIndex? isGlobal with
    | some index => exact .inl ⟨rfl, lastIndex?_topmost found⟩
    | none =>
      refine .inr ⟨fun ⟨_, present⟩ => ?_, rfl⟩
      have isSome := (lastIndex?_isSome scopes isGlobal).mpr present
      simp [found] at isSome

theorem ClosingBound.le (closing : scopes.ClosingBound startsGlobal bound) :
    bound ≤ scopes.length := by
  rcases closing with ⟨-, topmost⟩ | ⟨-, rfl⟩
  · exact Nat.le_of_lt topmost.below
  · exact Nat.le_refl _

theorem protectedFloor_spec (within : bound ≤ scopes.length) (hasMethods : Bool) :
    scopes.ProtectedFloor hasMethods bound (scopes.protectedFloor hasMethods bound) := by
  unfold protectedFloor
  cases hasMethods with
  | false => exact .inr ⟨by simp, rfl⟩
  | true =>
    have shared (other : Nat) (before : other < bound) : scopes[other]? = (scopes.take bound)[other]? := by
      rw [List.getElem?_take_of_lt before]
    cases found : lastIndex? (scopes.take bound) isGlobal with
    | some index =>
      have topmost := lastIndex?_topmost found
      rw [List.length_take, Nat.min_eq_left within] at topmost
      exact .inl ⟨rfl, index, topmost.congr shared, rfl⟩
    | none =>
      refine .inr ⟨fun ⟨_, index, before, here⟩ => ?_, rfl⟩
      rw [shared index before, lastIndex?_none found index] at here
      cases here

theorem ProtectedFloor.le (protection : scopes.ProtectedFloor hasMethods bound floor) :
    floor ≤ bound := by
  rcases protection with ⟨-, index, topmost, rfl⟩ | ⟨-, rfl⟩
  · exact topmost.below
  · exact Nat.zero_le _

theorem keepCount_eq (scopes : Scopes) (line : Nat) (startsGlobal hasMethods : Bool) :
    scopes.keepCount line startsGlobal hasMethods =
      (((scopes.take (scopes.closingBound startsGlobal)).drop
        (scopes.protectedFloor hasMethods (scopes.closingBound startsGlobal))).findIdx?
          (isPast line)).elim (scopes.closingBound startsGlobal)
            (scopes.protectedFloor hasMethods (scopes.closingBound startsGlobal) + ·) :=
  rfl

theorem findIdx?_cuts (order : floor ≤ bound) (within : bound ≤ scopes.length) (line : Nat) :
    scopes.CutsAt line floor bound
      ((((scopes.take bound).drop floor).findIdx? (isPast line)).elim bound (floor + ·)) := by
  have segment (offset : Nat) (inside : floor + offset < bound) :
      ((scopes.take bound).drop floor)[offset]? = scopes[floor + offset]? := by
    rw [List.getElem?_drop, List.getElem?_take_of_lt inside]
  have length : ((scopes.take bound).drop floor).length = bound - floor := by
    rw [List.length_drop, List.length_take, Nat.min_eq_left within]
  cases found : ((scopes.take bound).drop floor).findIdx? (isPast line) with
  | none =>
    refine ⟨order, Nat.le_refl _, fun index above below => ?_, .inl rfl⟩
    obtain ⟨offset, rfl⟩ := Nat.exists_eq_add_of_le above
    rw [← segment offset below, Bool.eq_false_iff]
    intro here
    obtain ⟨scope, present, past⟩ := (Option.any_eq_true ..).mp here
    have still := List.findIdx?_eq_none_iff.mp found scope (List.mem_of_getElem? present)
    simp [past] at still
  | some offset =>
    obtain ⟨inside, past, earlier⟩ := List.findIdx?_eq_some_iff_getElem.mp found
    have below : floor + offset < bound := by omega
    refine ⟨Nat.le_add_right .., Nat.le_of_lt below, fun index above before => ?_, .inr ?_⟩
    · obtain ⟨sooner, rfl⟩ := Nat.exists_eq_add_of_le above
      have before : sooner < offset := Nat.lt_of_add_lt_add_left before
      have still := earlier sooner before
      rw [← segment sooner (by omega), List.getElem?_eq_getElem (Nat.lt_trans before inside)]
      simpa using still
    · rw [Option.elim_some, ← segment offset below, List.getElem?_eq_getElem inside]
      exact past

theorem keepCount_cuts (scopes : Scopes) (line : Nat) (startsGlobal hasMethods : Bool) :
    scopes.CutsAt line (scopes.protectedFloor hasMethods (scopes.closingBound startsGlobal))
      (scopes.closingBound startsGlobal) (scopes.keepCount line startsGlobal hasMethods) := by
  have within := (closingBound_spec scopes startsGlobal).le
  rw [keepCount_eq]
  exact findIdx?_cuts (protectedFloor_spec within hasMethods).le within line

theorem keepCount_le (scopes : Scopes) (line : Nat) (startsGlobal hasMethods : Bool) :
    scopes.keepCount line startsGlobal hasMethods ≤ scopes.length :=
  Nat.le_trans (keepCount_cuts ..).withinBound (closingBound_spec ..).le

/-- The floor stays where it is when the stack is cut between it and the bound. -/
theorem protectedFloor_take (within : bound ≤ scopes.length)
    (above : scopes.protectedFloor hasMethods bound ≤ count) (below : count ≤ bound) :
    protectedFloor (scopes.take count) hasMethods count = scopes.protectedFloor hasMethods bound := by
  have shared (other : Nat) (before : other < count) : (scopes.take count)[other]? = scopes[other]? :=
    List.getElem?_take_of_lt before
  have length : (scopes.take count).length = count := by
    rw [List.length_take, Nat.min_eq_left (Nat.le_trans below within)]
  refine ProtectedFloor.unique (protectedFloor_spec length.ge hasMethods) ?_
  rcases protectedFloor_spec within hasMethods with ⟨methods, index, topmost, floor⟩ | ⟨free, floor⟩
  · rw [floor] at above ⊢
    have lower : scopes.Topmost isGlobal count index :=
      ⟨above, topmost.here, fun other after before =>
        topmost.above other after (Nat.lt_of_lt_of_le before below)⟩
    exact .inl ⟨methods, index, lower.congr shared, rfl⟩
  · rw [floor]
    refine .inr ⟨fun ⟨methods, index, before, here⟩ => free ⟨methods, index, ?_, ?_⟩, rfl⟩
    · exact Nat.lt_of_lt_of_le before below
    · exact shared index before ▸ here

/-- What stays open when the scan reaches a line does not close on that line again. -/
theorem keepCount_take (scopes : Scopes) (line : Nat) (startsGlobal hasMethods : Bool) :
    keepCount (scopes.take (scopes.keepCount line startsGlobal hasMethods)) line false hasMethods =
      scopes.keepCount line startsGlobal hasMethods := by
  have cuts := keepCount_cuts scopes line startsGlobal hasMethods
  have again := keepCount_cuts (scopes.take (scopes.keepCount line startsGlobal hasMethods)) line
    false hasMethods
  have within := keepCount_le scopes line startsGlobal hasMethods
  generalize scopes.keepCount line startsGlobal hasMethods = count at cuts again within ⊢
  have bound : closingBound (scopes.take count) false = count := by
    simp [closingBound, Nat.min_eq_left within]
  rw [bound, protectedFloor_take (closingBound_spec ..).le cuts.aboveFloor cuts.withinBound] at again
  refine again.unique ⟨cuts.aboveFloor, Nat.le_refl _, fun index above below => ?_, .inl rfl⟩
  rw [List.getElem?_take_of_lt below]
  exact cuts.kept index above below

theorem isPast_later {scope : Scope} (past : isPast line scope) (further : Nat) :
    isPast (line + further) scope := by
  unfold isPast at past ⊢
  obtain ⟨last, known, before⟩ := (Option.any_eq_true ..).mp past
  simp only [decide_eq_true_eq] at before
  simp only [known, Option.any_some, decide_eq_true_eq]
  omega

/-- A later line keeps no more scopes open than an earlier one. -/
theorem keepCount_later (scopes : Scopes) (line further : Nat) (startsGlobal hasMethods : Bool) :
    scopes.keepCount (line + further) startsGlobal hasMethods ≤
      scopes.keepCount line startsGlobal hasMethods := by
  refine (keepCount_cuts scopes line startsGlobal hasMethods).le_of_past
    (keepCount_cuts scopes (line + further) startsGlobal hasMethods) fun past => ?_
  obtain ⟨scope, found, isPast⟩ := (Option.any_eq_true ..).mp past
  simp [found, isPast_later isPast further]

/-- When the scan reaches a line, the stack is cut at one place. It lies between the bound, which is
the topmost global procedure when the line starts one, and the floor, which lies right above the
topmost global procedure that stays while there are method implementations; it is the outermost
scope between the two that is past its closing line, or the bound. Nothing that stays open closes on
the same line again, and a later line keeps no more open. -/
theorem closing_policy (scopes : Scopes) (startsGlobal hasMethods : Bool) :
    (∃ bound floor, scopes.ClosingBound startsGlobal bound ∧
      scopes.ProtectedFloor hasMethods bound floor ∧
      ∀ line count, scopes.keepCount line startsGlobal hasMethods = count ↔
        scopes.CutsAt line floor bound count) ∧
    (∀ line lineTokens, scopes.closeAtLine line lineTokens hasMethods =
      (scopes.take (scopes.keepCount line (Scopes.startsGlobal lineTokens) hasMethods),
        scopes.drop (scopes.keepCount line (Scopes.startsGlobal lineTokens) hasMethods))) ∧
    (∀ line, keepCount (scopes.take (scopes.keepCount line startsGlobal hasMethods)) line false
      hasMethods = (scopes.take (scopes.keepCount line startsGlobal hasMethods)).length) ∧
    ∀ line further, scopes.keepCount (line + further) startsGlobal hasMethods ≤
      scopes.keepCount line startsGlobal hasMethods := by
  have bounded := closingBound_spec scopes startsGlobal
  refine ⟨⟨_, _, bounded, protectedFloor_spec bounded.le hasMethods, fun line count => ?_⟩,
    fun line lineTokens => ?_, fun line => ?_, fun line further => keepCount_later ..⟩
  · have cuts := keepCount_cuts scopes line startsGlobal hasMethods
    exact ⟨fun same => same ▸ cuts, fun other => cuts.unique other⟩
  · rw [closeAtLine, List.splitAt_eq]
  · rw [keepCount_take, List.length_take, Nat.min_eq_left (keepCount_le ..)]

/-- A line that starts a global procedure closes the last one. The structure below it closes as
well, and so does the procedure below that, unless it is protected. -/
example (node : NodeId) :
    let scopes : Scopes := [⟨node, some 3, .globalProcedure⟩, ⟨node, some 1, .ordinaryStructure⟩,
      ⟨node, some 9, .globalProcedure⟩]
    scopes.keepCount 5 true true = 1 ∧ scopes.keepCount 5 true false = 0 ∧
      scopes.keepCount 5 false true = 3 :=
  ⟨rfl, rfl, rfl⟩

end Clarion.Outline.Scopes
