import Clarion.Proofs.BlockFolds
import Clarion.Proofs.LinePatterns

/-! The folds of comments. Where a comment ends its line, only the first token of each line counts,
and one pass over these finds every maximal run of remark lines and pairs every mark that ends a
region with the latest open one that starts a region. -/
namespace Clarion

namespace Tokens

variable {tokens : Tokens} {token lead : Token} {previous : Option Nat} {line : Nat}

/-- No token stands after a comment on its line. -/
def CommentsLast (tokens : Tokens) : Prop :=
  tokens.Pairwise fun left right => left.isComment → left.line ≠ right.line

instance (tokens : Tokens) : Decidable tokens.CommentsLast :=
  inferInstanceAs (Decidable (tokens.Pairwise _))

/-- The first token on the line passes the test. -/
def LineStarts (tokens : Tokens) (test : Token → Bool) (line : Nat) : Prop :=
  (tokens.find? (·.line == line)).any test

/-- The tokens that are first on their lines, when the line before is `previous`. -/
def leadsFrom (previous : Option Nat) : Tokens → Tokens
  | [] => []
  | token :: rest =>
    if previous == some token.line then leadsFrom previous rest
    else token :: leadsFrom (some token.line) rest

theorem isNextLine_iff {last line : Nat} (later : last < line) :
    isNextLine last line ↔ line = last + 1 := by
  have apart : line ≠ 0 := Nat.ne_zero_of_lt later
  simp [isNextLine, apart]

theorem leadsFrom_sublist (previous : Option Nat) (tokens : Tokens) :
    (tokens.leadsFrom previous).Sublist tokens := by
  induction tokens generalizing previous with
  | nil => exact .slnil
  | cons token rest ih =>
    unfold leadsFrom
    split
    · exact (ih previous).cons token
    · exact (ih _).cons_cons token

theorem mem_leadsFrom (byLine : tokens.ByLine)
    (order : ∀ line ∈ previous, ∀ token ∈ tokens, line ≤ token.line) :
    lead ∈ tokens.leadsFrom previous ↔
      previous ≠ some lead.line ∧ tokens.find? (·.line == lead.line) = some lead := by
  induction tokens generalizing previous with
  | nil => simp [leadsFrom]
  | cons token rest ih =>
    obtain ⟨after, byLine⟩ := List.pairwise_cons.mp byLine
    unfold leadsFrom
    split
    · rename_i passed
      rw [ih byLine fun line known other member => order line known other (.tail _ member)]
      refine and_congr_right fun fresh => ?_
      have other : token.line ≠ lead.line := by
        intro same
        exact fresh (by rw [← same]; exact beq_iff_eq.mp passed)
      rw [List.find?_cons_of_neg (by simpa using other)]
    · rename_i fresh
      have fresh : previous ≠ some token.line := by simpa using fresh
      rw [List.mem_cons, ih byLine (by simpa using after)]
      constructor
      · rintro (rfl | ⟨other, found⟩)
        · exact ⟨fresh, by simp⟩
        · have other : token.line ≠ lead.line := fun same => other (congrArg some same)
          refine ⟨?_, by rw [List.find?_cons_of_neg (by simpa using other), found]⟩
          intro known
          have before := order lead.line known token List.mem_cons_self
          exact other (Nat.le_antisymm (after lead (List.mem_of_find?_eq_some found)) before)
      · rintro ⟨-, found⟩
        by_cases same : token.line = lead.line
        · rw [List.find?_cons_of_pos (by simpa using same)] at found
          exact .inl (Option.some.inj found).symm
        · rw [List.find?_cons_of_neg (by simpa using same)] at found
          exact .inr ⟨fun known => same (Option.some.inj known), found⟩

/-- The first token of each line. -/
def leads (tokens : Tokens) : Tokens :=
  tokens.leadsFrom none

theorem leadsFrom_ascend (byLine : tokens.ByLine) :
    (tokens.leadsFrom previous).Pairwise fun left right => left.line < right.line := by
  induction tokens generalizing previous with
  | nil => exact .nil
  | cons token rest ih =>
    obtain ⟨after, byLine⟩ := List.pairwise_cons.mp byLine
    unfold leadsFrom
    split
    · exact ih byLine
    · refine List.pairwise_cons.mpr ⟨fun lead member => ?_, ih byLine⟩
      have other := ((mem_leadsFrom byLine (by simpa using after)).mp member).1
      have order := after lead ((leadsFrom_sublist _ rest).subset member)
      exact Nat.lt_of_le_of_ne order fun same => other (congrArg some same)

theorem lineStarts_iff (byLine : tokens.ByLine) {test : Token → Bool} :
    tokens.LineStarts test line ↔ ∃ lead ∈ tokens.leads, lead.line = line ∧ test lead := by
  have member (lead : Token) :
      lead ∈ tokens.leads ↔ tokens.find? (·.line == lead.line) = some lead := by
    simp [leads, mem_leadsFrom byLine]
  unfold LineStarts
  rw [Option.any_eq_true]
  constructor
  · rintro ⟨lead, found, passes⟩
    have here : lead.line = line := by simpa using List.find?_some found
    exact ⟨lead, (member lead).mpr (here ▸ found), here, passes⟩
  · rintro ⟨lead, first, rfl, passes⟩
    exact ⟨lead, (member lead).mp first, passes⟩

end Tokens

namespace Fold

variable {tokens rest : Tokens} {token : Token} {regions : List Nat} {run : Run}
  {previous : Option Nat} {first last start stop bound : Nat}

/-- A comment that marks the start of a region. -/
def startsRegion (token : Token) : Bool :=
  token.isComment && isMarker "region" (commentText token)

/-- A comment that marks the end of a region. -/
def endsRegion (token : Token) : Bool :=
  token.isComment && isMarker "endregion" (commentText token)

/-- A comment that marks nothing. -/
def isRemark (token : Token) : Bool :=
  token.isComment && !startsRegion token && !endsRegion token

theorem isMarker_head {marker : String} {text : List Char} (marked : isMarker marker text)
    (more : marker.utf8ByteSize ≠ 0) :
    text.head?.map Char.toLower = marker.toList.head?.map Char.toLower := by
  unfold isMarker at marked
  split at marked
  · rename_i head cut
    have same : head.map Char.toLower = marker.toList.map Char.toLower := by
      simpa [Text.sameFold] using marked
    have heads := congrArg List.head? same
    rw [List.head?_map, List.head?_map] at heads
    rw [← heads]
    cases text with
    | nil => simp [Text.headBytes?] at cut
    | cons c rest =>
      simp only [Text.headBytes?] at cut
      split at cut
      · obtain ⟨_, -, rfl⟩ := Option.map_eq_some_iff.mp cut
        rfl
      · cases cut
  · cases marked

/-- No comment marks both the start and the end of a region. -/
theorem not_startsRegion_of_endsRegion (ends : endsRegion token) : startsRegion token = false := by
  rw [Bool.eq_false_iff]
  intro starts
  have small := isMarker_head (Bool.and_eq_true_iff.mp ends).2 (by decide)
  rw [isMarker_head (Bool.and_eq_true_iff.mp starts).2 (by decide)] at small
  exact absurd small (by decide)

/-- The pending run after a token: a remark goes on with a run that ends on the line before, or
starts one of its own. -/
def runAfter (run : Run) (token : Token) : Run :=
  if isRemark token then
    match run with
    | some (first, last) =>
      if Tokens.isNextLine last token.line then some (first, token.line)
      else some (token.line, token.line)
    | none => some (token.line, token.line)
  else none

/-- The fold of the run, when the token does not go on with it. -/
def runEnded (run : Run) (token : Token) : List Fold :=
  if isRemark token ∧ run.any (Tokens.isNextLine ·.2 token.line) then [] else ofRun run

/-- The open regions after a token, innermost first. -/
def regionsAfter (regions : List Nat) (token : Token) : List Nat :=
  if endsRegion token then regions.tail
  else if startsRegion token then token.line :: regions
  else regions

/-- The fold of the region that the token ends. -/
def regionEnded (regions : List Nat) (token : Token) : List Fold :=
  if endsRegion token then regions.head?.elim [] (Fold.of · token.line .region) else []

/-- The first token of a line ends a run or goes on with it, and opens or ends a region. -/
theorem commentsFrom_lead (fresh : previous ≠ some token.line) :
    commentsFrom regions run previous (token :: rest) =
      runEnded run token ++ regionEnded regions token ++
        commentsFrom (regionsAfter regions token) (runAfter run token) (some token.line) rest := by
  have fresh : (previous == some token.line) = false := by simpa using fresh
  cases comment : token.isComment with
  | false =>
    simp [commentsFrom, runEnded, regionEnded, regionsAfter, runAfter, isRemark, startsRegion,
      endsRegion, comment]
  | true =>
    cases ends : isMarker "endregion" (commentText token) with
    | true =>
      cases regions <;>
        simp [commentsFrom, runEnded, regionEnded, regionsAfter, runAfter, isRemark, startsRegion,
          endsRegion, comment, ends, fresh]
    | false =>
      cases starts : isMarker "region" (commentText token) with
      | true =>
        simp [commentsFrom, runEnded, regionEnded, regionsAfter, runAfter, isRemark, startsRegion,
          endsRegion, comment, ends, starts, fresh]
      | false =>
        have remark : isRemark token := by
          simp [isRemark, startsRegion, endsRegion, comment, ends, starts]
        have neither : startsRegion token = false ∧ endsRegion token = false := by
          simp [startsRegion, endsRegion, ends, starts]
        simp only [commentsFrom, comment, fresh, ends, starts, Bool.not_true, Bool.false_eq_true,
          ↓reduceIte, runEnded, regionEnded, regionsAfter, runAfter, remark, neither]
        rcases run with _ | ⟨first, last⟩
        · simp [ofRun]
        · cases next : Tokens.isNextLine last token.line <;> simp [next]

/-- A token that is not the first on its line adds nothing, as it follows code. -/
theorem commentsFrom_leads (commentsLast : tokens.CommentsLast)
    (afterCode : ∀ token ∈ tokens, previous = some token.line → run = none) :
    commentsFrom regions run previous tokens =
      commentsFrom regions run previous (tokens.leadsFrom previous) := by
  induction tokens generalizing regions run previous with
  | nil => rfl
  | cons token rest ih =>
    obtain ⟨closing, commentsLast⟩ := List.pairwise_cons.mp commentsLast
    unfold Tokens.leadsFrom
    split
    · rename_i passed
      have here : previous = some token.line := beq_iff_eq.mp passed
      obtain rfl := afterCode token List.mem_cons_self here
      subst here
      rw [← ih commentsLast fun _ _ _ => rfl]
      cases comment : token.isComment <;> simp [commentsFrom, comment, ofRun]
    · rename_i fresh
      have fresh : previous ≠ some token.line := by simpa using fresh
      rw [commentsFrom_lead fresh, commentsFrom_lead fresh, ih commentsLast]
      intro other member same
      have code : token.isComment = false := by
        rw [Bool.eq_false_iff]
        exact fun comment => closing other member comment (Option.some.inj same)
      simp [runAfter, isRemark, code]

/-- The lines of a run. -/
def inRun : Run → Nat → Prop
  | none, _ => False
  | some (first, last), line => first ≤ line ∧ line ≤ last

@[simp] theorem inRun_none (line : Nat) : ¬inRun none line :=
  id

@[simp] theorem inRun_some (first last line : Nat) :
    inRun (some (first, last)) line ↔ first ≤ line ∧ line ≤ last :=
  .rfl

/-- What the pass keeps over the first tokens of the lines: those still to come stand on ever later
lines, after the pending run and the open regions. -/
structure Pending (regions : List Nat) (run : Run) (previous : Option Nat) (rest : Tokens) :
    Prop where
  ascending : rest.Pairwise fun left right => left.line < right.line
  passed : ∀ line ∈ previous, ∀ token ∈ rest, line < token.line
  ordered : ∀ lines ∈ run, lines.1 ≤ lines.2
  afterRun : ∀ lines ∈ run, ∀ token ∈ rest, lines.2 < token.line
  nested : regions.Pairwise (· > ·)
  afterRegions : ∀ region ∈ regions, ∀ token ∈ rest, region < token.line

theorem Pending.initial (ascending : rest.Pairwise fun left right => left.line < right.line) :
    Pending [] none none rest :=
  ⟨ascending, by simp, by simp, by simp, .nil, by simp⟩

theorem Pending.fresh (pending : Pending regions run previous (token :: rest)) :
    previous ≠ some token.line := by
  intro same
  exact Nat.lt_irrefl _ (pending.passed token.line same token List.mem_cons_self)

theorem runAfter_mem {lines : Nat × Nat} (member : lines ∈ runAfter run token) :
    isRemark token ∧ lines.2 = token.line ∧
      (lines.1 = token.line ∨ ∃ before ∈ run, lines.1 = before.1) := by
  unfold runAfter at member
  split at member
  · rename_i remark
    refine ⟨remark, ?_⟩
    split at member
    · rename_i first last
      split at member
      · obtain rfl := Option.some.inj member
        exact ⟨rfl, .inr ⟨(first, last), rfl, rfl⟩⟩
      · obtain rfl := Option.some.inj member
        exact ⟨rfl, .inl rfl⟩
    · obtain rfl := Option.some.inj member
      exact ⟨rfl, .inl rfl⟩
  · cases member

theorem regionsAfter_mem {region : Nat} (member : region ∈ regionsAfter regions token) :
    region = token.line ∨ region ∈ regions := by
  unfold regionsAfter at member
  split at member
  · exact .inr (List.mem_of_mem_tail member)
  · split at member
    · exact List.mem_cons.mp member
    · exact .inr member

theorem Pending.next (pending : Pending regions run previous (token :: rest)) :
    Pending (regionsAfter regions token) (runAfter run token) (some token.line) rest := by
  obtain ⟨after, ascending⟩ := List.pairwise_cons.mp pending.ascending
  have before (region : Nat) (member : region ∈ regions) : region < token.line :=
    pending.afterRegions region member token List.mem_cons_self
  refine ⟨ascending, by simpa using after, fun lines member => ?_, fun lines member => ?_, ?_, ?_⟩
  · obtain ⟨-, stops, starts | ⟨run, known, starts⟩⟩ := runAfter_mem member
    · exact Nat.le_of_eq (starts.trans stops.symm)
    · have := pending.ordered run known
      have := pending.afterRun run known token List.mem_cons_self
      omega
  · rw [(runAfter_mem member).2.1]
    exact after
  · unfold regionsAfter
    split
    · exact pending.nested.sublist (List.tail_sublist regions)
    · split
      · exact List.pairwise_cons.mpr ⟨before, pending.nested⟩
      · exact pending.nested
  · intro region member other inRest
    rcases regionsAfter_mem member with rfl | old
    · exact after other inRest
    · exact Nat.lt_trans (before region old) (after other inRest)

theorem mem_ofRun {fold : Fold} (first last : Nat) :
    fold ∈ ofRun (some (first, last)) ↔ first < last ∧ fold = ⟨first, last, .comment⟩ :=
  mem_of

theorem comment_mem_ofRun :
    ⟨first, last, .comment⟩ ∈ ofRun (some (start, stop)) ↔
      first < last ∧ first = start ∧ last = stop := by
  rw [mem_ofRun, Fold.mk.injEq]
  constructor
  · rintro ⟨longer, rfl, rfl, -⟩
    exact ⟨longer, rfl, rfl⟩
  · rintro ⟨longer, rfl, rfl⟩
    exact ⟨longer, rfl, rfl, rfl⟩

theorem mem_runEnded {fold : Fold} (member : fold ∈ runEnded run token) :
    fold.kind = .comment ∧ ∃ lines ∈ run, fold.endLine = lines.2 := by
  unfold runEnded at member
  split at member
  · cases member
  · rcases run with _ | ⟨first, last⟩
    · cases member
    · obtain ⟨-, rfl⟩ := (mem_ofRun first last).mp member
      exact ⟨rfl, (first, last), rfl, rfl⟩

theorem mem_regionEnded {fold : Fold} : fold ∈ regionEnded regions token ↔
    endsRegion token ∧ ∃ start ∈ regions.head?, start < token.line ∧
      fold = ⟨start, token.line, .region⟩ := by
  unfold regionEnded
  cases endsRegion token <;> cases regions <;> simp [mem_of]

/-- A remark line joins the run when it is the next one, and starts a run of its own otherwise; any
other line lets the run end. -/
theorem maximalRun_next {later : Nat → Prop} (ordered : ∀ lines ∈ run, lines.1 ≤ lines.2)
    (after : ∀ lines ∈ run, lines.2 < token.line) (apart : ∀ line, later line → token.line < line) :
    (⟨first, last, .comment⟩ ∈ runEnded run token ∨
        first < last ∧ MaximalRun (fun line => inRun (runAfter run token) line ∨ later line)
          first last) ↔
      first < last ∧
        MaximalRun (fun line => inRun run line ∨ (token.line = line ∧ isRemark token) ∨ later line)
          first last := by
  have alone (line : Nat) : inRun (some (token.line, token.line)) line ↔ token.line = line := by
    rw [inRun_some]
    omega
  rcases run with _ | ⟨start, stop⟩
  · cases remark : isRemark token <;>
      simp [runEnded, runAfter, remark, ofRun, alone, -inRun_some]
  · have order : start ≤ stop := ordered _ rfl
    have below : stop < token.line := after _ rfl
    have following := Tokens.isNextLine_iff below
    by_cases next : isRemark token ∧ token.line = stop + 1
    · obtain ⟨remark, next⟩ := next
      have goesOn : runAfter (some (start, stop)) token = some (start, token.line) := by
        simp [runAfter, remark, following.mpr next]
      have grows (line : Nat) : inRun (some (start, token.line)) line ↔
          inRun (some (start, stop)) line ∨ token.line = line := by
        simp only [inRun_some]
        omega
      have quiet : runEnded (some (start, stop)) token = [] := by
        simp [runEnded, remark, following.mpr next]
      simp only [goesOn, quiet, grows, remark, and_true, or_assoc, List.not_mem_nil, false_or]
    · have ended : runEnded (some (start, stop)) token = ofRun (some (start, stop)) := by
        simpa [runEnded] using fun remark same => absurd ⟨remark, following.mp same⟩ next
      have fresh (line : Nat) : inRun (runAfter (some (start, stop)) token) line ↔
          token.line = line ∧ isRemark token := by
        cases remark : isRemark token with
        | false => simp [runAfter, remark]
        | true =>
          have apart : Tokens.isNextLine stop token.line = false :=
            Bool.eq_false_iff.mpr fun same => next ⟨remark, following.mp same⟩
          simp [runAfter, remark, apart, alone, -inRun_some]
      have beyond (line : Nat) (found : (token.line = line ∧ isRemark token) ∨ later line) :
          stop + 1 < line := by
        rcases found with ⟨rfl, remark⟩ | found
        · exact Nat.lt_of_le_of_ne below fun same => next ⟨remark, same.symm⟩
        · have := apart line found
          omega
      simp only [ended, comment_mem_ofRun, fresh, inRun_some, maximalRun_apart order beyond,
        and_or_left]

theorem commentsFrom_runs (pending : Pending regions run previous rest) :
    ⟨first, last, .comment⟩ ∈ commentsFrom regions run previous rest ↔
      first < last ∧ MaximalRun
        (fun line => inRun run line ∨ ∃ lead ∈ rest, lead.line = line ∧ isRemark lead)
        first last := by
  induction rest generalizing regions run previous with
  | nil =>
    rcases run with _ | ⟨start, stop⟩
    · simp [commentsFrom, ofRun, not_maximalRun_of_none]
    · simp only [commentsFrom, comment_mem_ofRun, inRun_some, List.not_mem_nil, false_and,
        exists_false, or_false, maximalRun_stretch (pending.ordered _ rfl)]
  | cons token rest ih =>
    have other : ⟨first, last, .comment⟩ ∉ regionEnded regions token := by
      simp [mem_regionEnded]
    have after : ∀ line, (∃ lead ∈ rest, lead.line = line ∧ isRemark lead) → token.line < line := by
      rintro _ ⟨lead, member, rfl, -⟩
      exact (List.pairwise_cons.mp pending.ascending).1 lead member
    rw [commentsFrom_lead pending.fresh, List.mem_append, List.mem_append, ih pending.next,
      or_iff_left other, maximalRun_next pending.ordered
        (fun lines known => pending.afterRun lines known token List.mem_cons_self) after]
    simp only [List.mem_cons, or_and_right, exists_or, exists_eq_left]

/-- A mark that starts a region opens it inside the others, and a mark that ends one takes the
innermost. -/
theorem pairsLatest_next {later stops : Nat → Prop} {pairs : Nat → Nat → Prop}
    (nested : regions.Pairwise (· > ·)) (before : ∀ region ∈ regions, region < token.line)
    (afterOpen : ∀ line, later line → token.line < line)
    (afterClose : ∀ line, stops line → token.line < line)
    (paired : PairsLatest (fun line => line ∈ regionsAfter regions token ∨ later line) stops
      pairs) :
    PairsLatest
      (fun line => line ∈ regions ∨ (token.line = line ∧ startsRegion token) ∨ later line)
      (fun line => (token.line = line ∧ endsRegion token) ∨ stops line)
      (fun start stop =>
        ⟨start, stop, .region⟩ ∈ regionEnded regions token ∨ pairs start stop) := by
  cases ends : endsRegion token with
  | false =>
    refine (PairsLatest.congr (fun line => ?_) (by simp) (by simp [regionEnded, ends])).mp paired
    cases starts : startsRegion token with
    | false => simp [regionsAfter, ends, starts]
    | true => simp [regionsAfter, ends, starts, or_assoc, or_left_comm, eq_comm]
  | true =>
    have plain := not_startsRegion_of_endsRegion ends
    cases regions with
    | nil =>
      have first (opener : Nat) (opens : opener ∈ regionsAfter [] token ∨ later opener) :
          token.line < opener := by
        rcases opens with member | found
        · simp [regionsAfter, ends] at member
        · exact afterOpen opener found
      refine (PairsLatest.congr ?_ ?_ ?_).mp (paired.idle first)
      · simp [regionsAfter, ends, plain]
      · simp [eq_comm]
      · simp [regionEnded, ends]
    | cons region outer =>
      obtain ⟨inner, nested⟩ := List.pairwise_cons.mp nested
      have here := before region List.mem_cons_self
      have apart (opener : Nat)
          (opens : opener ∈ regionsAfter (region :: outer) token ∨ later opener) :
          opener < region ∨ token.line < opener := by
        rcases opens with member | found
        · exact .inl (inner opener (by simpa [regionsAfter, ends] using member))
        · exact .inr (afterOpen opener found)
      refine (PairsLatest.congr ?_ ?_ ?_).mp (paired.taken here afterClose apart)
      · simp [regionsAfter, ends, plain, or_assoc]
      · simp [eq_comm]
      · intro start stop
        refine or_congr_left ?_
        simp only [mem_regionEnded, ends, List.head?_cons, Option.mem_def, Option.some.injEq,
          Fold.mk.injEq, true_and, and_true]
        constructor
        · rintro ⟨rfl, rfl⟩
          exact ⟨start, rfl, here, rfl, rfl⟩
        · rintro ⟨_, rfl, -, rfl, rfl⟩
          exact ⟨rfl, rfl⟩

theorem commentsFrom_regions (pending : Pending regions run previous rest) :
    PairsLatest
      (fun line => line ∈ regions ∨ ∃ lead ∈ rest, lead.line = line ∧ startsRegion lead)
      (fun line => ∃ lead ∈ rest, lead.line = line ∧ endsRegion lead)
      (fun start stop => ⟨start, stop, .region⟩ ∈ commentsFrom regions run previous rest) := by
  induction rest generalizing regions run previous with
  | nil =>
    intro start stop
    rcases run with _ | ⟨first, last⟩ <;> simp [commentsFrom, ofRun, mem_of]
  | cons token rest ih =>
    have after (test : Token → Bool) (line : Nat)
        (found : ∃ lead ∈ rest, lead.line = line ∧ test lead) : token.line < line := by
      obtain ⟨lead, member, rfl, -⟩ := found
      exact (List.pairwise_cons.mp pending.ascending).1 lead member
    have before (region : Nat) (member : region ∈ regions) : region < token.line :=
      pending.afterRegions region member token List.mem_cons_self
    have other (start stop : Nat) : ⟨start, stop, .region⟩ ∉ runEnded run token := by
      intro member
      cases (mem_runEnded member).1
    refine (PairsLatest.congr ?_ ?_ ?_).mp
      (pairsLatest_next pending.nested before (after _) (after _) (ih pending.next))
    · simp [or_and_right, exists_or]
    · simp [or_and_right, exists_or]
    · intro start stop
      rw [commentsFrom_lead pending.fresh, List.mem_append, List.mem_append,
        or_iff_right (other start stop)]

theorem le_endLine {fold : Fold} (pending : Pending regions run previous rest)
    (ahead : ∀ token ∈ rest, bound ≤ token.line) (pendingRun : ∀ lines ∈ run, bound ≤ lines.2)
    (member : fold ∈ commentsFrom regions run previous rest) : bound ≤ fold.endLine := by
  induction rest generalizing regions run previous with
  | nil =>
    rcases run with _ | ⟨first, last⟩
    · cases member
    · obtain ⟨-, rfl⟩ := (mem_ofRun first last).mp member
      exact pendingRun (first, last) rfl
  | cons token rest ih =>
    have here := ahead token List.mem_cons_self
    rw [commentsFrom_lead pending.fresh, List.mem_append, List.mem_append] at member
    rcases member with (ended | ended) | later
    · obtain ⟨-, lines, known, stops⟩ := mem_runEnded ended
      exact stops ▸ pendingRun lines known
    · obtain ⟨-, _, -, -, rfl⟩ := mem_regionEnded.mp ended
      exact here
    · refine ih pending.next (fun token member => ahead token (.tail _ member)) ?_ later
      intro lines known
      exact (runAfter_mem known).2.1 ▸ here

theorem of_pairwise {relation : Fold → Fold → Prop} (kind : FoldKind) :
    (Fold.of start stop kind).Pairwise relation := by
  unfold Fold.of
  split
  · exact List.pairwise_singleton ..
  · exact .nil

theorem ofRun_pairwise {relation : Fold → Fold → Prop} : (ofRun run).Pairwise relation := by
  cases run with
  | none => exact .nil
  | some lines => exact of_pairwise .comment

/-- The folds come in the order of the lines that they end on, one for each such line. -/
theorem commentsFrom_ascend (pending : Pending regions run previous rest) :
    (commentsFrom regions run previous rest).Pairwise fun left right =>
      left.endLine < right.endLine := by
  induction rest generalizing regions run previous with
  | nil => exact ofRun_pairwise
  | cons token rest ih =>
    have after := (List.pairwise_cons.mp pending.ascending).1
    have ended (fold : Fold) (member : fold ∈ runEnded run token) : fold.endLine < token.line := by
      obtain ⟨-, lines, known, stops⟩ := mem_runEnded member
      exact stops ▸ pending.afterRun lines known token List.mem_cons_self
    have later (fold : Fold) (member : fold ∈ commentsFrom (regionsAfter regions token)
        (runAfter run token) (some token.line) rest) : token.line ≤ fold.endLine :=
      le_endLine pending.next (fun other inRest => Nat.le_of_lt (after other inRest))
        (fun lines known => Nat.le_of_eq (runAfter_mem known).2.1.symm) member
    rw [commentsFrom_lead pending.fresh, List.append_assoc, List.pairwise_append,
      List.pairwise_append]
    refine ⟨?_, ⟨?_, ih pending.next, ?_⟩, ?_⟩
    · unfold runEnded
      split
      · exact .nil
      · exact ofRun_pairwise
    · unfold regionEnded
      split
      · cases regions with
        | nil => exact .nil
        | cons region outer => exact of_pairwise .region
      · exact .nil
    · intro region inRegions fold member
      obtain ⟨ends, _, -, -, rfl⟩ := mem_regionEnded.mp inRegions
      -- A mark leaves no run behind, so whatever comes later ends on a later line.
      have noRun (lines : Nat × Nat) (known : lines ∈ runAfter run token) : False := by
        have remark := (runAfter_mem known).1
        simp [isRemark, ends] at remark
      have beyond : token.line + 1 ≤ fold.endLine :=
        le_endLine pending.next after (fun lines known => (noRun lines known).elim) member
      exact beyond
    · intro fold member other inRest
      refine Nat.lt_of_lt_of_le (ended fold member) ?_
      rcases List.mem_append.mp inRest with inRegions | inLater
      · obtain ⟨-, _, -, -, rfl⟩ := mem_regionEnded.mp inRegions
        exact Nat.le_refl _
      · exact later other inLater

/-- The folds of a document's comments are the maximal runs of lines that start with a remark, and
the regions that its marks pair, each once. There is one way to pair the marks so that each end
takes the latest open start, and a mark without a partner folds nothing. -/
theorem comments_are_runs_and_regions (tokens : Tokens) (byLine : tokens.ByLine)
    (commentsLast : tokens.CommentsLast) :
    (comments tokens).Nodup ∧
    (∀ first last, ⟨first, last, .comment⟩ ∈ comments tokens ↔
      first < last ∧ MaximalRun (tokens.LineStarts isRemark) first last) ∧
    ∀ pairs : Nat → Nat → Prop,
      PairsLatest (tokens.LineStarts startsRegion) (tokens.LineStarts endsRegion) pairs ↔
        ∀ start stop, pairs start stop ↔ ⟨start, stop, .region⟩ ∈ comments tokens := by
  have pending : Pending [] none none tokens.leads := .initial (Tokens.leadsFrom_ascend byLine)
  have leading : comments tokens = commentsFrom [] none none tokens.leads :=
    commentsFrom_leads commentsLast (by simp)
  have regions : PairsLatest (tokens.LineStarts startsRegion) (tokens.LineStarts endsRegion)
      fun start stop => ⟨start, stop, .region⟩ ∈ comments tokens := by
    rw [leading]
    refine (PairsLatest.congr ?_ ?_ fun _ _ => .rfl).mp (commentsFrom_regions pending)
    · simp [Tokens.lineStarts_iff byLine]
    · simp [Tokens.lineStarts_iff byLine]
  refine ⟨?_, fun first last => ?_, fun pairs =>
    ⟨fun paired => paired.unique regions, fun same => ?_⟩⟩
  · rw [leading]
    refine List.Pairwise.imp (fun before same => ?_) (commentsFrom_ascend pending)
    exact absurd (congrArg Fold.endLine same) (Nat.ne_of_lt before)
  · rw [leading, commentsFrom_runs pending]
    refine and_congr_right fun _ => MaximalRun.congr fun line _ _ => ?_
    simp [Tokens.lineStarts_iff byLine]
  · exact (PairsLatest.congr (fun _ => .rfl) (fun _ => .rfl) same).mpr regions

/-- Two remarks, a trailing comment and a lone remark, in the inner one of two regions of which
only one is ended. -/
def markedRegions : Tokens :=
  [{ kind := .comment, value := "!region All", line := 0, start := 0 },
    { kind := .comment, value := "!region Globals", line := 1, start := 0 },
    { kind := .comment, value := "! first", line := 2, start := 0 },
    { kind := .comment, value := "! second", line := 3, start := 0 },
    { kind := .label, value := "X", line := 4, start := 0 },
    { kind := .typeName, value := "LONG", line := 4, start := 3 },
    { kind := .comment, value := "! trailing", line := 4, start := 8 },
    { kind := .comment, value := "! lone", line := 5, start := 0 },
    { kind := .comment, value := "!endregion", line := 6, start := 0 }]

theorem markedRegions_folds :
    MaximalRun (markedRegions.LineStarts isRemark) 2 3 ∧
      ∀ pairs, PairsLatest (markedRegions.LineStarts startsRegion)
          (markedRegions.LineStarts endsRegion) pairs →
        ∀ start stop, pairs start stop ↔ start = 1 ∧ stop = 6 := by
  have folds : comments markedRegions = [⟨2, 3, .comment⟩, ⟨1, 6, .region⟩] := by decide +kernel
  obtain ⟨-, runs, regions⟩ :=
    comments_are_runs_and_regions markedRegions (by decide) (by decide +kernel)
  refine ⟨((runs 2 3).mp (by simp [folds])).2, fun pairs paired start stop => ?_⟩
  rw [(regions pairs).mp paired start stop]
  simp [folds]

end Fold
end Clarion
