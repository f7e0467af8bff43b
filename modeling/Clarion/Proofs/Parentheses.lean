import Clarion.Proofs.Checked.Tokens

/-! Parentheses and commas by depth. The partner of a parenthesis is where the depth first comes back
to what it was before, and what stands between the two is balanced. The parts between the commas at
depth zero or below, put together again with those commas, are all tokens; where the tokens are
balanced so is each part, and no part holds a comma to split it at. -/
namespace Clarion

/-- How a token changes the depth. -/
def Token.nesting (token : Token) : Int :=
  if token.isOpen then 1 else if token.isClose then -1 else 0

namespace Tokens

variable {tokens front rest : Tokens} {token : Token} {depth : Int} {start limit close index : Nat}

/-- How the tokens together change the depth. -/
def nesting : Tokens → Int
  | [] => 0
  | token :: rest => token.nesting + nesting rest

/-- From the depth on, the tokens never close more than is open, and in the end close all of it. -/
def BalancedFrom (depth : Int) (tokens : Tokens) : Prop :=
  (∀ count, 0 ≤ depth + nesting (tokens.take count)) ∧ depth + tokens.nesting = 0

/-- No prefix of the tokens closes more than it opens, and all together close what they open. -/
def Balanced (tokens : Tokens) : Prop :=
  BalancedFrom 0 tokens

/-- At `close` the depth counted from the parenthesis at `start` comes back to zero for the first
time. -/
structure IsPartner (tokens : Tokens) (start close : Nat) : Prop where
  opens : tokens[start]?.any Token.isOpen
  order : start ≤ close
  within : close < tokens.length
  returns : nesting (tokens.slice start (close + 1)) = 0
  first : ∀ index, start ≤ index → index < close → nesting (tokens.slice start (index + 1)) ≠ 0

/-- The commas at depth zero or below. -/
def topCommas (tokens : Tokens) : Tokens :=
  (tokens.zipIdx.filter fun item =>
    item.1.isComma && nesting (tokens.take item.2) ≤ 0).map Prod.fst

/-- The parts with a comma after each but the last. -/
def interleave : List Tokens → Tokens → Tokens
  | [], _ => []
  | part :: _, [] => part
  | part :: parts, comma :: commas => part ++ comma :: interleave parts commas

/-! ### Depth -/

theorem nesting_bounds (token : Token) : -1 ≤ token.nesting ∧ token.nesting ≤ 1 := by
  unfold Token.nesting
  split
  · omega
  · split <;> omega

theorem nesting_append (front rest : Tokens) :
    nesting (front ++ rest) = front.nesting + rest.nesting := by
  induction front with
  | nil => simp [nesting]
  | cons token front ih => simp [nesting, ih, Int.add_assoc]

theorem nesting_of_isComma (comma : token.isComma) : token.nesting = 0 := by
  have text : token.value = "," := by simpa [Token.isComma] using comma
  simp [Token.nesting, Token.isOpen, Token.isClose, text]

/-- One more token lowers the depth by one at most. -/
theorem nesting_take_succ (tokens : Tokens) (count : Nat) :
    nesting (tokens.take count) - 1 ≤ nesting (tokens.take (count + 1)) := by
  rw [List.take_add_one, nesting_append]
  cases tokens[count]? with
  | none =>
    simp only [Option.toList_none, nesting]
    omega
  | some token =>
    have := (nesting_bounds token).1
    simp only [Option.toList_some, nesting]
    omega

theorem balancedFrom_nil : BalancedFrom depth [] ↔ depth = 0 := by
  simp [BalancedFrom, nesting]
  omega

theorem balancedFrom_cons :
    BalancedFrom depth (token :: rest) ↔ 0 ≤ depth ∧ BalancedFrom (depth + token.nesting) rest := by
  simp only [BalancedFrom, nesting, Int.add_assoc]
  constructor
  · rintro ⟨never, total⟩
    refine ⟨by simpa [nesting] using never 0, fun count => ?_, total⟩
    exact never (count + 1)
  · rintro ⟨here, never, total⟩
    refine ⟨fun count => ?_, total⟩
    cases count with
    | zero => simpa [nesting] using here
    | succ count => exact never count

/-! ### The partner of a parenthesis -/

theorem closingFrom_cons {depth : Nat} (positive : 0 < depth) (index : Nat) (rest : Tokens) :
    closingFrom depth index (token :: rest) =
      if depth + token.nesting = 0 then some index
      else closingFrom (depth + token.nesting).toNat (index + 1) rest := by
  rw [closingFrom, Token.nesting]
  cases token.isOpen with
  | true =>
    have deeper : (depth : Int) + 1 ≠ 0 := by omega
    simp [deeper]
  | false =>
    cases token.isClose with
    | true =>
      by_cases last : depth ≤ 1
      · have closed : (depth : Int) + -1 = 0 := by omega
        simp [last, closed]
      · have still : (depth : Int) + -1 ≠ 0 := by omega
        have less : ((depth : Int) + -1).toNat = depth - 1 := by omega
        simp [last, still, less]
    | false =>
      have open_ : depth ≠ 0 := Nat.ne_of_gt positive
      simp [open_]

/-- The scan stops where the depth first comes down to zero. -/
theorem closingFrom_eq_some_iff {depth : Nat} (positive : 0 < depth) {count : Nat} :
    closingFrom depth index rest = some (index + count) ↔
      count < rest.length ∧ depth + nesting (rest.take (count + 1)) = 0 ∧
      ∀ earlier < count, depth + nesting (rest.take (earlier + 1)) ≠ 0 := by
  induction rest generalizing depth index count with
  | nil => simp [closingFrom]
  | cons token rest ih =>
    have least := (nesting_bounds token).1
    rw [closingFrom_cons positive]
    by_cases closes : depth + token.nesting = 0
    · rw [if_pos closes]
      cases count with
      | zero => simp [nesting, closes]
      | succ count =>
        refine iff_of_false (by simp) fun stops => stops.2.2 0 (Nat.succ_pos _) ?_
        simpa [nesting] using closes
    · rw [if_neg closes]
      have inner : ((depth + token.nesting).toNat : Int) = depth + token.nesting := by omega
      cases count with
      | zero =>
        refine iff_of_false (fun stops => ?_) fun stops => closes ?_
        · have bounds := Checked.closingFrom_bounds stops
          omega
        · simpa [nesting] using stops.2.1
      | succ count =>
        rw [show index + (count + 1) = index + 1 + count by omega, ih (by omega), inner]
        simp only [List.length_cons, Nat.add_lt_add_iff_right, List.take_succ_cons, nesting,
          Int.add_assoc]
        refine and_congr_right fun _ => and_congr_right fun _ => ?_
        constructor
        · intro first earlier before
          cases earlier with
          | zero => simpa [nesting] using closes
          | succ earlier => exact first earlier (Nat.lt_of_succ_lt_succ before)
        · intro first earlier before
          exact first (earlier + 1) (Nat.succ_lt_succ before)

/-- As long as the depth has not come down to zero it is above. -/
theorem nesting_pos {depth count : Nat} (positive : 0 < depth)
    (first : ∀ earlier < count, depth + nesting (rest.take (earlier + 1)) ≠ 0) :
    ∀ earlier ≤ count, 0 < depth + nesting (rest.take earlier) := by
  intro earlier within
  induction earlier with
  | zero => simpa [nesting] using positive
  | succ earlier ih =>
    have above := ih (Nat.le_of_succ_le within)
    have step := nesting_take_succ rest earlier
    have other := first earlier within
    omega

theorem slice_opens (found : tokens[start]? = some token) (count : Nat) :
    tokens.slice start (start + 1 + count) = token :: (tokens.drop (start + 1)).take count := by
  rw [slice_eq_cons found (by omega)]
  congr 2
  omega

theorem isPartner_iff (found : tokens[start]? = some token) (opens : token.isOpen) {count : Nat} :
    tokens.IsPartner start (start + 1 + count) ↔
      count < (tokens.drop (start + 1)).length ∧
      ((1 : Nat) : Int) + nesting ((tokens.drop (start + 1)).take (count + 1)) = 0 ∧
      ∀ earlier < count,
        ((1 : Nat) : Int) + nesting ((tokens.drop (start + 1)).take (earlier + 1)) ≠ 0 := by
  have one : token.nesting = 1 := by rw [Token.nesting, if_pos opens]
  have counted (count : Nat) : nesting (tokens.slice start (start + 1 + count)) =
      1 + nesting ((tokens.drop (start + 1)).take count) := by
    rw [slice_opens found, nesting, one]
  rw [List.length_drop]
  constructor
  · intro partner
    refine ⟨?_, (counted (count + 1)).symm.trans partner.returns, fun earlier before => ?_⟩
    · have := partner.within
      omega
    · exact counted (earlier + 1) ▸ partner.first (start + 1 + earlier) (by omega) (by omega)
  · rintro ⟨within, returns, first⟩
    refine ⟨by simpa [found] using opens, by omega, by omega, (counted (count + 1)).trans returns, ?_⟩
    intro index after before
    rcases Nat.eq_or_lt_of_le after with rfl | after
    · simp [counted 0, nesting]
    · obtain ⟨earlier, rfl⟩ := Nat.exists_eq_add_of_le after
      exact fun zero => first earlier (by omega) ((counted (earlier + 1)).symm.trans zero)

theorem IsPartner.after (partner : tokens.IsPartner start close) : start < close := by
  refine Nat.lt_of_le_of_ne partner.order ?_
  rintro rfl
  obtain ⟨token, found, opens⟩ := (Option.any_eq_true ..).mp partner.opens
  have alone : tokens.slice start (start + 1) = [token] := slice_opens found 0
  have returns := partner.returns
  rw [alone, nesting, nesting, Token.nesting, if_pos opens] at returns
  cases returns

theorem matchingParen_of_opens (found : tokens[start]? = some token) (opens : token.isOpen)
    (limit : Nat) : tokens.matchingParen start limit =
      closingFrom 1 (start + 1) ((tokens.drop (start + 1)).take (limit - start - 1)) := by
  rw [matchingParen]
  by_cases room : start < limit
  · rw [slice_eq_cons found room]
    exact if_pos opens
  · have nothing : tokens.slice start limit = [] := by
      rw [slice, List.drop_eq_nil_iff, List.length_take]
      omega
    have none : limit - start - 1 = 0 := by omega
    rw [nothing, none, List.take_zero]
    rfl

theorem opens_of_matchingParen (partner : tokens.matchingParen start limit = some close) :
    tokens[start]?.any Token.isOpen := by
  rw [matchingParen] at partner
  rcases Checked.slice_cases tokens start limit with empty | ⟨first, found, -, shape⟩
  · rw [empty] at partner
    cases partner
  · rw [shape] at partner
    rw [found]
    exact (Option.ite_none_right_eq_some.mp partner).1

/-- The scan finds the partner where it stands before the limit. -/
theorem matchingParen_eq_some_iff :
    tokens.matchingParen start limit = some close ↔
      tokens.IsPartner start close ∧ close < limit := by
  by_cases opens : tokens[start]?.any Token.isOpen ∧ start < close
  · obtain ⟨opens, after⟩ := opens
    obtain ⟨token, found, opens⟩ := (Option.any_eq_true ..).mp opens
    obtain ⟨count, rfl⟩ := Nat.exists_eq_add_of_le after
    rw [matchingParen_of_opens found opens, isPartner_iff found opens,
      closingFrom_eq_some_iff Nat.one_pos, List.length_take]
    have taken (earlier : Nat) (room : start + 1 + earlier < limit) :
        ((tokens.drop (start + 1)).take (limit - start - 1)).take (earlier + 1) =
          (tokens.drop (start + 1)).take (earlier + 1) := by
      rw [List.take_take, Nat.min_eq_left (by omega)]
    constructor
    · rintro ⟨within, returns, first⟩
      have room : start + 1 + count < limit := by omega
      rw [taken count room] at returns
      refine ⟨⟨by omega, returns, fun earlier before => ?_⟩, room⟩
      exact taken earlier (by omega) ▸ first earlier before
    · rintro ⟨⟨within, returns, first⟩, room⟩
      rw [taken count room]
      refine ⟨by omega, returns, fun earlier before => ?_⟩
      exact (taken earlier (by omega)).symm ▸ first earlier before
  · refine iff_of_false (fun partner => opens ?_) fun ⟨partner, _⟩ => opens ?_
    · exact ⟨opens_of_matchingParen partner, (Checked.matchingParen_bounds partner).1⟩
    · exact ⟨partner.opens, partner.after⟩

/-- What stands between a parenthesis and its partner is balanced. -/
theorem IsPartner.balanced (partner : tokens.IsPartner start close) :
    Balanced (tokens.slice (start + 1) close) := by
  obtain ⟨token, found, opens⟩ := (Option.any_eq_true ..).mp partner.opens
  obtain ⟨count, rfl⟩ := Nat.exists_eq_add_of_le partner.after
  obtain ⟨-, returns, first⟩ := (isPartner_iff found opens).mp partner
  have inside : tokens.slice (start + 1) (start + 1 + count) =
      (tokens.drop (start + 1)).take count := by
    rw [slice, List.drop_take, Nat.add_sub_cancel_left]
  rw [inside]
  generalize tokens.drop (start + 1) = rest at returns first
  have above := nesting_pos Nat.one_pos first
  refine ⟨fun some => ?_, ?_⟩
  · have := above (min some count) (Nat.min_le_right _ _)
    rw [List.take_take]
    omega
  · have := above count (Nat.le_refl _)
    have step := nesting_take_succ rest count
    omega

/-! ### Parts between commas -/

/-- The commas at depth zero or below among the rest, where the front stands before it. -/
def topCommasAfter (front rest : Tokens) : Tokens :=
  ((rest.zipIdx front.length).filter fun item =>
    item.1.isComma && nesting ((front ++ rest).take item.2) ≤ 0).map Prod.fst

theorem topCommasAfter_cons (front : Tokens) (token : Token) (rest : Tokens) :
    topCommasAfter front (token :: rest) =
      if token.isComma && nesting front ≤ 0 then token :: topCommasAfter (front ++ [token]) rest
      else topCommasAfter (front ++ [token]) rest := by
  simp only [topCommasAfter, List.zipIdx_cons, List.filter_cons, List.take_left,
    List.length_append, List.length_singleton, List.append_assoc, List.singleton_append]
  split <;> simp

theorem splitCommasFrom_stays (inside : (token.isComma && depth ≤ 0) = false) :
    splitCommasFrom depth (token :: rest) =
      (splitCommasFrom (depth + token.nesting) rest).modifyHead (token :: ·) := by
  rw [Checked.splitCommasFrom_cons rest inside, Token.nesting]
  congr 2
  split
  · rfl
  · split <;> omega

theorem interleave_modifyHead {parts : List Tokens} (nonempty : parts ≠ []) (commas : Tokens) :
    interleave (parts.modifyHead (token :: ·)) commas = token :: interleave parts commas := by
  cases parts with
  | nil => contradiction
  | cons part parts => cases commas <;> rfl

/-- The parts with the commas between them are all tokens. -/
theorem interleave_splitCommasFrom (front rest : Tokens) :
    (splitCommasFrom front.nesting rest).length = (topCommasAfter front rest).length + 1 ∧
    interleave (splitCommasFrom front.nesting rest) (topCommasAfter front rest) = rest := by
  induction rest generalizing front with
  | nil => exact ⟨rfl, rfl⟩
  | cons token rest ih =>
    obtain ⟨length, whole⟩ := ih (front ++ [token])
    rw [nesting_append, nesting, nesting, Int.add_zero] at length whole
    rw [topCommasAfter_cons]
    by_cases top : (token.isComma && nesting front ≤ 0) = true
    · have comma : token.isComma := (Bool.and_eq_true_iff.mp top).1
      rw [nesting_of_isComma comma, Int.add_zero] at length whole
      rw [if_pos top, splitCommasFrom, if_pos top, interleave, whole, List.length_cons, length]
      exact ⟨rfl, rfl⟩
    · rw [if_neg top, splitCommasFrom_stays (by simpa using top), List.length_modifyHead]
      rw [interleave_modifyHead (Checked.splitCommasFrom_ne_nil _ _), whole]
      exact ⟨length, rfl⟩

/-- In balanced tokens each part is balanced, the first one from the depth on, and holds no comma to
split it at. -/
theorem splitCommasFrom_balanced (balanced : BalancedFrom depth rest) :
    ∃ part parts, splitCommasFrom depth rest = part :: parts ∧
      (BalancedFrom depth part ∧ splitCommasFrom depth part = [part]) ∧
      ∀ other ∈ parts, Balanced other ∧ splitTopLevelCommas other = [other] := by
  induction rest generalizing depth with
  | nil => exact ⟨[], [], rfl, ⟨balanced, rfl⟩, by simp⟩
  | cons token rest ih =>
    obtain ⟨here, inner⟩ := balancedFrom_cons.mp balanced
    obtain ⟨part, parts, split, ⟨closed, alone⟩, others⟩ := ih inner
    by_cases top : (token.isComma && depth ≤ 0) = true
    · obtain ⟨comma, low⟩ := Bool.and_eq_true_iff.mp top
      obtain rfl : depth = 0 := Int.le_antisymm (of_decide_eq_true low) here
      rw [nesting_of_isComma comma, Int.add_zero] at split closed alone
      refine ⟨[], part :: parts, ?_, ⟨balancedFrom_nil.mpr rfl, rfl⟩, ?_⟩
      · rw [splitCommasFrom, if_pos top, split]
      · exact List.forall_mem_cons.mpr ⟨⟨closed, alone⟩, others⟩
    · have inside : (token.isComma && decide (depth ≤ 0)) = false := by simpa using top
      refine ⟨token :: part, parts, ?_, ⟨balancedFrom_cons.mpr ⟨here, closed⟩, ?_⟩, others⟩
      · rw [splitCommasFrom_stays inside, split, List.modifyHead_cons]
      · rw [splitCommasFrom_stays inside, alone, List.modifyHead_cons]

/-- The scan for the partner of a parenthesis finds where the depth first comes back to zero, if that
is before the limit, and the tokens between the two are balanced. The parts between the commas at
depth zero or below make up all tokens together with those commas; if the tokens are balanced, then
every part is balanced, and is its own only part. -/
theorem scans_keep_to_depth (tokens : Tokens) :
    (∀ start limit close, tokens.matchingParen start limit = some close ↔
      tokens.IsPartner start close ∧ close < limit) ∧
    (∀ start close, tokens.IsPartner start close →
      Balanced (tokens.slice (start + 1) close)) ∧
    (tokens.splitTopLevelCommas.length = tokens.topCommas.length + 1 ∧
      interleave tokens.splitTopLevelCommas tokens.topCommas = tokens) ∧
    (tokens.Balanced → ∀ part ∈ tokens.splitTopLevelCommas,
      Balanced part ∧ splitTopLevelCommas part = [part]) := by
  refine ⟨fun _ _ _ => matchingParen_eq_some_iff, fun _ _ => IsPartner.balanced, ?_, ?_⟩
  · exact interleave_splitCommasFrom [] tokens
  · intro balanced
    obtain ⟨part, parts, split, first, others⟩ := splitCommasFrom_balanced balanced
    rw [splitTopLevelCommas, split]
    exact List.forall_mem_cons.mpr ⟨first, others⟩

/-- `AT(1,2),USE`, with a comma inside the parentheses and one after them. -/
def placedControl : Tokens := [
  { kind := .attributeWord, value := "AT", line := 0, start := 0 },
  { kind := .delimiter, value := "(", line := 0, start := 2 },
  { kind := .number, value := "1", line := 0, start := 3 },
  { kind := .delimiter, value := ",", line := 0, start := 4 },
  { kind := .number, value := "2", line := 0, start := 5 },
  { kind := .delimiter, value := ")", line := 0, start := 6 },
  { kind := .delimiter, value := ",", line := 0, start := 7 },
  { kind := .attributeWord, value := "USE", line := 0, start := 8 }]

theorem placedControl_scanned :
    placedControl.IsPartner 1 5 ∧ Balanced (placedControl.slice 2 5) ∧ placedControl.Balanced ∧
      placedControl.splitTopLevelCommas = [placedControl.take 6, placedControl.drop 7] ∧
      Balanced (placedControl.take 6) ∧
      splitTopLevelCommas (placedControl.take 6) = [placedControl.take 6] := by
  obtain ⟨partners, between, -, parts⟩ := scans_keep_to_depth placedControl
  have partner : placedControl.IsPartner 1 5 := ((partners 1 8 5).mp rfl).1
  have balanced : placedControl.Balanced := by
    simp [placedControl, Balanced, balancedFrom_cons, balancedFrom_nil, Token.nesting, Token.isOpen,
      Token.isClose]
  have split : placedControl.splitTopLevelCommas = [placedControl.take 6, placedControl.drop 7] :=
    rfl
  have first := parts balanced (placedControl.take 6) (by rw [split]; exact List.mem_cons_self)
  exact ⟨partner, between 1 5 partner, balanced, split, first.1, first.2⟩

end Tokens
end Clarion
