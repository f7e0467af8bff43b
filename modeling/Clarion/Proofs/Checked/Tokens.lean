import Clarion.Token.Block
import Clarion.Token.Paren

/-! Scans over a token list with every access checked: an element or a slice out of bounds and a
difference below zero are breaches. No scan ever meets one, and each answers what the unchecked
one does. -/
namespace Clarion

/-- How an operation may be used out of bounds. -/
inductive Breach where
  | index | slice | underflow | node | depth
deriving Repr, DecidableEq

/-- A computation that ends at the first breach. -/
abbrev Checked := Except Breach

namespace Checked

variable {α β : Type} {tokens : Tokens} {index : Nat} {token : Token}

@[simp] theorem ok_bind (value : α) (next : α → Checked β) :
    ((Except.ok value : Checked α) >>= next) = next value :=
  rfl

@[simp] theorem pure_eq (value : α) : (pure value : Checked α) = .ok value :=
  rfl

/-- The element at an index. -/
def get (list : List α) (index : Nat) : Checked α :=
  list[index]?.elim (.error .index) .ok

/-- The elements from index `start` up to index `stop`. -/
def slice (list : List α) (start stop : Nat) : Checked (List α) :=
  if start ≤ stop ∧ stop ≤ list.length then .ok ((list.take stop).drop start) else .error .slice

/-- The difference of two natural numbers. -/
def minus (whole part : Nat) : Checked Nat :=
  if part ≤ whole then .ok (whole - part) else .error .underflow

theorem get_ok {list : List α} {value : α} (found : list[index]? = some value) :
    get list index = .ok value := by
  simp [get, found]

theorem slice_ok {list : List α} {start stop : Nat} (order : start ≤ stop)
    (bound : stop ≤ list.length) : slice list start stop = .ok ((list.take stop).drop start) :=
  if_pos ⟨order, bound⟩

theorem minus_ok {whole part : Nat} (order : part ≤ whole) :
    minus whole part = .ok (whole - part) :=
  if_pos order

/-- A loop whose steps keep an invariant, and go well while it holds, goes well to its end. -/
theorem foldlM_ok {step : β → α → Checked β} {next : β → α → β} {list : List α} (holds : β → Prop)
    (each : ∀ value ∈ list, ∀ state, holds state →
      step state value = .ok (next state value) ∧ holds (next state value))
    {state : β} (start : holds state) : list.foldlM step state = .ok (list.foldl next state) := by
  induction list generalizing state with
  | nil => rfl
  | cons value rest ih =>
    obtain ⟨here, later⟩ := List.forall_mem_cons.mp each
    obtain ⟨done, kept⟩ := here state start
    rw [List.foldlM_cons, List.foldl_cons, done, ok_bind]
    exact ih later kept

/-! ### Lines -/

/-- The tokens from the first one on a line to the last one on it. -/
def onLine (tokens : Tokens) (line : Nat) : Checked Tokens :=
  match tokens.lineSpan? line with
  | some (first, stop) => slice tokens first stop
  | none => .ok []

theorem lineStop?_bounds {line stop : Nat} (found : tokens.lineStop? line = some stop) :
    0 < stop ∧ stop ≤ tokens.length ∧
      tokens[stop - 1]? = tokens.reverse.find? (·.line == line) := by
  obtain ⟨place, present, rfl⟩ := Option.map_eq_some_iff.mp found
  obtain ⟨bound, holds, before⟩ := List.findIdx?_eq_some_iff_getElem.mp present
  rw [List.length_reverse] at bound
  refine ⟨by omega, by omega, ?_⟩
  have found : tokens.reverse.find? (·.line == line) = some tokens.reverse[place] := by
    rw [List.find?_eq_some_iff_getElem]
    refine ⟨holds, place, by simpa using bound, rfl, ?_⟩
    intro earlier order
    simpa using before earlier order
  rw [found, ← List.getElem?_eq_getElem, List.getElem?_reverse bound]
  congr 1
  omega

theorem lineSpan?_bounds {line first stop : Nat} (found : tokens.lineSpan? line = some (first, stop)) :
    first < stop ∧ stop ≤ tokens.length := by
  simp only [Tokens.lineSpan?, Option.bind_eq_bind, Option.bind_eq_some_iff, Option.pure_def,
    Option.some.injEq, Prod.mk.injEq] at found
  obtain ⟨_, starts, _, stops, rfl, rfl⟩ := found
  obtain ⟨positive, bound, last⟩ := lineStop?_bounds stops
  refine ⟨?_, bound⟩
  obtain ⟨_, -, before⟩ := List.findIdx?_eq_some_iff_getElem.mp starts
  apply Nat.lt_of_not_le
  intro later
  have inside := Nat.lt_of_lt_of_le (Nat.sub_one_lt_of_lt positive) bound
  rw [List.getElem?_eq_getElem inside] at last
  have holds := List.find?_some last.symm
  exact before _ (by omega) holds

theorem onLine_ok (tokens : Tokens) (line : Nat) : onLine tokens line = .ok (tokens.onLine line) := by
  unfold onLine Tokens.onLine
  cases found : tokens.lineSpan? line with
  | none => rfl
  | some span =>
    obtain ⟨order, bound⟩ := lineSpan?_bounds found
    exact slice_ok (Nat.le_of_lt order) bound

/-- The column just past the last token on a line. -/
def lineStopColumn? (tokens : Tokens) (line : Nat) : Checked (Option Nat) :=
  match tokens.lineStop? line with
  | none => .ok none
  | some stop => do
    let last ← minus stop 1
    return tokens[last]?.map Token.stop

theorem lineStopColumn?_ok (tokens : Tokens) (line : Nat) :
    lineStopColumn? tokens line = .ok (tokens.lineStopColumn? line) := by
  unfold lineStopColumn? Tokens.lineStopColumn?
  split
  · rename_i missing
    have none : tokens.reverse.find? (·.line == line) = none := by
      simpa [Tokens.lineStop?] using missing
    rw [none]
    rfl
  · rename_i stop found
    obtain ⟨positive, bound, last⟩ := lineStop?_bounds found
    simp [minus_ok positive, last]

/-! ### Parentheses and commas -/

/-- The index of the token that brings the depth back to zero, counting from `index`. -/
def closing (depth index : Nat) : Tokens → Checked (Option Nat)
  | [] => .ok none
  | token :: rest =>
    if token.isOpen then closing (depth + 1) (index + 1) rest
    else if token.isClose then do
      let left ← minus depth 1
      if left = 0 then .ok (some index) else closing left (index + 1) rest
    else closing depth (index + 1) rest

/-- The depth is never taken below zero: inside a parenthesis it is at least one. -/
theorem closing_ok {depth : Nat} (inside : 0 < depth) (index : Nat) (rest : Tokens) :
    closing depth index rest = .ok (Tokens.closingFrom depth index rest) := by
  induction rest generalizing depth index with
  | nil => rfl
  | cons token rest ih =>
    unfold closing Tokens.closingFrom
    split
    · exact ih (Nat.succ_pos depth) (index + 1)
    · split
      · rw [minus_ok inside, ok_bind]
        by_cases last : depth ≤ 1
        · rw [if_pos last, if_pos (by omega)]
        · rw [if_neg last, if_neg (by omega)]
          exact ih (by omega) (index + 1)
      · exact ih inside (index + 1)

/-- The index of the parenthesis that closes the one at `start`, before `limit`. -/
def matchingParen (tokens : Tokens) (start limit : Nat) : Checked (Option Nat) :=
  if tokens[start]?.any Token.isOpen then closing 0 start (tokens.slice start limit) else .ok none

theorem slice_cases (tokens : Tokens) (start stop : Nat) :
    tokens.slice start stop = [] ∨
    ∃ token, tokens[start]? = some token ∧ start < stop ∧
      tokens.slice start stop = token :: tokens.slice (start + 1) stop := by
  by_cases inside : start < (tokens.take stop).length
  · right
    have shape := List.drop_eq_getElem_cons inside
    refine ⟨(tokens.take stop)[start], ?_, ?_, shape⟩
    · rw [← List.getElem?_eq_getElem, List.getElem?_take_of_lt]
      rw [List.length_take] at inside
      omega
    · rw [List.length_take] at inside
      omega
  · exact .inl (List.drop_eq_nil_of_le (Nat.le_of_not_lt inside))

theorem matchingParen_ok (tokens : Tokens) (start limit : Nat) :
    matchingParen tokens start limit = .ok (tokens.matchingParen start limit) := by
  unfold matchingParen Tokens.matchingParen
  rcases slice_cases tokens start limit with empty | ⟨first, found, -, shape⟩
  · rw [empty]
    simp [closing]
  · rw [shape, found]
    cases isOpen : first.isOpen with
    | false => simp [isOpen]
    | true =>
      have start := closing_ok (Nat.succ_pos 0) (start + 1) (tokens.slice (start + 1) limit)
      simpa [closing, isOpen] using start

theorem closingFrom_bounds {depth index close : Nat} {rest : Tokens}
    (found : Tokens.closingFrom depth index rest = some close) :
    index ≤ close ∧ close < index + rest.length := by
  induction rest generalizing depth index with
  | nil => simp [Tokens.closingFrom] at found
  | cons token rest ih =>
    rw [List.length_cons]
    unfold Tokens.closingFrom at found
    split at found
    · have := ih found
      omega
    · split at found
      · split at found
        · cases found
          omega
        · have := ih found
          omega
      · have := ih found
        omega

/-- The partner of a parenthesis stands after it, inside the limit and inside the document. -/
theorem matchingParen_bounds {start limit close : Nat}
    (found : tokens.matchingParen start limit = some close) :
    start < close ∧ close < limit ∧ close < tokens.length := by
  unfold Tokens.matchingParen at found
  rcases slice_cases tokens start limit with empty | ⟨first, _, order, shape⟩
  · simp [empty] at found
  · rw [shape] at found
    dsimp only at found
    split at found
    · have bounds := closingFrom_bounds found
      simp only [Tokens.slice, List.length_drop, List.length_take] at bounds
      omega
    · simp at found

/-- The parts between commas, where the current part began at `start`. -/
def splitCommas (tokens : Tokens) (depth : Int) (start index : Nat) :
    Tokens → Checked (List Tokens)
  | [] => do
    let part ← slice tokens start tokens.length
    return [part]
  | token :: rest =>
    if token.isOpen then splitCommas tokens (depth + 1) start (index + 1) rest
    else if token.isClose then splitCommas tokens (depth - 1) start (index + 1) rest
    else if token.isComma && depth ≤ 0 then do
      let part ← slice tokens start index
      let parts ← splitCommas tokens depth (index + 1) (index + 1) rest
      return part :: parts
    else splitCommas tokens depth start (index + 1) rest

/-- The parts of a token run between the commas that no parenthesis encloses. -/
def splitTopLevelCommas (tokens : Tokens) : Checked (List Tokens) :=
  splitCommas tokens 0 0 0 tokens

theorem slice_succ {start : Nat} (found : tokens[index]? = some token) (order : start ≤ index) :
    tokens.slice start (index + 1) = tokens.slice start index ++ [token] := by
  have bound := (List.getElem?_eq_some_iff.mp found).1
  simp only [Tokens.slice, List.take_add_one, found, Option.toList_some]
  rw [List.drop_append_of_le_length]
  rw [List.length_take]
  omega

theorem splitCommasFrom_ne_nil (depth : Int) (rest : Tokens) :
    Tokens.splitCommasFrom depth rest ≠ [] := by
  cases rest with
  | nil => simp [Tokens.splitCommasFrom]
  | cons token rest =>
    unfold Tokens.splitCommasFrom
    split
    · simp
    · dsimp only
      split <;> simp

theorem splitCommasFrom_cons {depth : Int} (rest : Tokens)
    (inside : (token.isComma && decide (depth ≤ 0)) = false) :
    Tokens.splitCommasFrom depth (token :: rest) =
      (Tokens.splitCommasFrom (if token.isOpen then depth + 1
        else if token.isClose then depth - 1 else depth) rest).modifyHead (token :: ·) := by
  rw [Tokens.splitCommasFrom, if_neg (by simp [inside])]
  have nonempty := splitCommasFrom_ne_nil
    (if token.isOpen then depth + 1 else if token.isClose then depth - 1 else depth) rest
  dsimp only
  split
  · contradiction
  · rename_i shape
    rw [shape]
    rfl

theorem modifyHead_slice_self (start : Nat) (parts : List Tokens) :
    parts.modifyHead (tokens.slice start start ++ ·) = parts := by
  have nothing : tokens.slice start start = [] := by simp [Tokens.slice]
  cases parts <;> simp [nothing]

/-- A part that began earlier has what was read of it in front. -/
theorem splitCommas_ok (rest : Tokens) {depth : Int} {start : Nat}
    (here : tokens.drop index = rest) (order : start ≤ index) (bound : index ≤ tokens.length) :
    splitCommas tokens depth start index rest =
      .ok ((Tokens.splitCommasFrom depth rest).modifyHead (tokens.slice start index ++ ·)) := by
  induction rest generalizing depth start index with
  | nil =>
    obtain rfl : index = tokens.length := by
      have length := congrArg List.length here
      rw [List.length_drop, List.length_nil] at length
      omega
    simp [splitCommas, slice_ok order bound, Tokens.splitCommasFrom, Tokens.slice]
  | cons token rest ih =>
    have found : tokens[index]? = some token := by rw [← List.head?_drop, here]; rfl
    have later : tokens.drop (index + 1) = rest := by rw [← List.tail_drop, here]; rfl
    have inside := (List.getElem?_eq_some_iff.mp found).1
    have grown (inner : Int) : splitCommas tokens inner start (index + 1) rest =
        .ok (((Tokens.splitCommasFrom inner rest).modifyHead (token :: ·)).modifyHead
          (tokens.slice start index ++ ·)) := by
      rw [ih later (Nat.le_succ_of_le order) inside, slice_succ found order]
      cases Tokens.splitCommasFrom inner rest <;> simp
    have exclusive (text : String) (reads : token.value = text) (other : text ≠ ",") :
        (token.isComma && decide (depth ≤ 0)) = false := by
      simp [Token.isComma, reads, other]
    unfold splitCommas
    split
    · rename_i isOpen
      have inner := exclusive "(" (by simpa [Token.isOpen] using isOpen) (by decide)
      rw [grown, splitCommasFrom_cons rest inner, if_pos isOpen]
    · rename_i noOpen
      split
      · rename_i isClose
        have inner := exclusive ")" (by simpa [Token.isClose] using isClose) (by decide)
        rw [grown, splitCommasFrom_cons rest inner, if_neg noOpen, if_pos isClose]
      · rename_i noClose
        split
        · rename_i isComma
          rw [slice_ok order bound, ok_bind, ih later (Nat.le_refl _) inside, ok_bind,
            modifyHead_slice_self, Tokens.splitCommasFrom, if_pos isComma]
          simp [Tokens.slice]
        · rename_i noComma
          rw [grown, splitCommasFrom_cons rest (by simpa using noComma), if_neg noOpen,
            if_neg noClose]

theorem splitTopLevelCommas_ok (tokens : Tokens) :
    splitTopLevelCommas tokens = .ok tokens.splitTopLevelCommas := by
  rw [splitTopLevelCommas, splitCommas_ok tokens List.drop_zero (Nat.le_refl 0) (Nat.zero_le _),
    modifyHead_slice_self]
  rfl

/-- Looks for `name` followed by a closed parenthesis at the indices. -/
def attributeAt (tokens : Tokens) (limit : Nat) (name : String) (depth : Int) :
    List Nat → Checked (Option String)
  | [] => .ok none
  | index :: rest => do
    let token ← get tokens index
    if token.isOpen then attributeAt tokens limit name (depth + 1) rest
    else if token.isClose then attributeAt tokens limit name (depth - 1) rest
    else if depth = 0 && token.reads name then
      match ← matchingParen tokens (index + 1) limit with
      | some close => do
        let inner ← slice tokens (index + 2) close
        return some (Tokens.render inner)
      | none => attributeAt tokens limit name depth rest
    else attributeAt tokens limit name depth rest

/-- The text inside the first `name(…)` between the indices, outside any other parentheses. -/
def findAttribute (tokens : Tokens) (start stop : Nat) (name : String) :
    Checked (Option String) :=
  let limit := min stop tokens.length
  attributeAt tokens limit name 0 (List.range' start (limit - start))

theorem attributeAt_ok (limit : Nat) (name : String) (depth : Int) {count : Nat}
    (bound : index + count ≤ tokens.length) :
    attributeAt tokens limit name depth (List.range' index count) =
      .ok (tokens.attributeFrom limit name depth index (tokens.slice index (index + count))) := by
  induction count generalizing index depth with
  | zero => simp [attributeAt, Tokens.slice, Tokens.attributeFrom]
  | succ count ih =>
    rcases slice_cases tokens index (index + (count + 1)) with empty | ⟨token, found, -, shape⟩
    · simp only [Tokens.slice, List.drop_eq_nil_iff, List.length_take] at empty
      omega
    · have next (depth : Int) : attributeAt tokens limit name depth (List.range' (index + 1) count) =
          .ok (tokens.attributeFrom limit name depth (index + 1)
            (tokens.slice (index + 1) (index + (count + 1)))) := by
        rw [ih depth (by omega), Nat.add_right_comm, Nat.add_assoc]
      rw [shape, List.range'_succ, attributeAt, Tokens.attributeFrom, get_ok found, ok_bind]
      split
      · exact next (depth + 1)
      · split
        · exact next (depth - 1)
        · dsimp only
          split
          · rw [matchingParen_ok, ok_bind]
            cases paren : tokens.matchingParen (index + 1) limit with
            | none => exact next depth
            | some close =>
              obtain ⟨order, -, inside⟩ := matchingParen_bounds paren
              dsimp only
              rw [slice_ok (by omega) (Nat.le_of_lt inside), ok_bind]
              rfl
          · exact next depth

theorem findAttribute_ok (tokens : Tokens) (start stop : Nat) (name : String) :
    findAttribute tokens start stop name = .ok (tokens.findAttribute start stop name) := by
  unfold findAttribute Tokens.findAttribute
  dsimp only
  by_cases inside : start ≤ min stop tokens.length
  · have same : tokens.slice start (start + (min stop tokens.length - start)) =
        tokens.slice start stop := by
      rw [Nat.add_sub_cancel' inside, Tokens.slice, Tokens.slice, ← List.take_take, List.take_length]
    rw [attributeAt_ok _ _ _ (by omega), same]
  · have empty : tokens.slice start stop = [] := by
      simp only [Tokens.slice, List.drop_eq_nil_iff, List.length_take]
      omega
    rw [empty, show min stop tokens.length - start = 0 by omega]
    rfl

/-! ### Blocks -/

/-- A `MODULE` that is an attribute of a declaration and no structure of its own. -/
def isModuleAttribute (tokens : Tokens) (index : Nat) : Checked Bool :=
  match tokens[index]? with
  | none => .ok false
  | some token =>
    if token.reads "MODULE" then do
      let before ← slice tokens 0 index
      return Tokens.commaComesFirst token.line before.reverse
    else .ok false

theorem isModuleAttribute_ok (tokens : Tokens) (index : Nat) :
    isModuleAttribute tokens index = .ok (tokens.isModuleAttribute index) := by
  unfold isModuleAttribute Tokens.isModuleAttribute
  cases found : tokens[index]? with
  | none => rfl
  | some token =>
    have bound := Nat.le_of_lt (List.getElem?_eq_some_iff.mp found).1
    dsimp only
    split
    · rename_i reads
      simp [slice_ok (Nat.zero_le index) bound, reads]
    · rename_i reads
      simp [reads]

/-- The token opens a block. -/
def opensBlock (tokens : Tokens) (index : Nat) : Checked Bool :=
  match tokens[index]? with
  | none => .ok false
  | some token =>
    match token.kind with
    | .structureWord => do
      let isAttribute ← isModuleAttribute tokens index
      return !isAttribute
    | .keyword => .ok (token.readsOneOf Tokens.compoundWords)
    | _ => .ok false

theorem opensBlock_ok (tokens : Tokens) (index : Nat) :
    opensBlock tokens index = .ok (tokens.opensBlock index) := by
  unfold opensBlock Tokens.opensBlock
  cases tokens[index]? with
  | none => rfl
  | some token =>
    dsimp only
    cases token.kind with
    | structureWord =>
      dsimp only
      rw [isModuleAttribute_ok, ok_bind, pure_eq]
    | _ => rfl

/-- `UNTIL` or `WHILE` at the head of a line. -/
def isLoopTerminator (tokens : Tokens) (index : Nat) : Checked Bool :=
  match tokens[index]? with
  | none => .ok false
  | some token =>
    if token.kind == .keyword && (token.reads "UNTIL" || token.reads "WHILE") then
      match index with
      | 0 => .ok true
      | previous + 1 => do
        let before ← get tokens previous
        return before.line != token.line
    else .ok false

theorem isLoopTerminator_ok (tokens : Tokens) (index : Nat) :
    isLoopTerminator tokens index = .ok (tokens.isLoopTerminator index) := by
  unfold isLoopTerminator Tokens.isLoopTerminator
  cases found : tokens[index]? with
  | none => rfl
  | some token =>
    dsimp only
    split
    · rename_i reads
      rw [reads, Bool.true_and]
      cases index with
      | zero => rfl
      | succ previous =>
        have bound := Nat.lt_of_succ_lt (List.getElem?_eq_some_iff.mp found).1
        have before := List.getElem?_eq_getElem bound
        simp [get_ok before, Tokens.leadsLine, before]
    · rename_i reads
      rw [Bool.not_eq_true] at reads
      rw [reads, Bool.false_and]

/-- The token closes `opener`, the innermost open block. -/
def closesBlock (tokens : Tokens) (index : Nat) (opener : Token) : Checked Bool :=
  if tokens[index]?.any (·.kind == .endStatement) then .ok true
  else if opener.reads "LOOP" then isLoopTerminator tokens index
  else .ok false

theorem closesBlock_ok (tokens : Tokens) (index : Nat) (opener : Token) :
    closesBlock tokens index opener = .ok (tokens.closesBlock index opener) := by
  unfold closesBlock Tokens.closesBlock
  cases tokens[index]?.any (·.kind == .endStatement) <;> cases opener.reads "LOOP" <;>
    simp [isLoopTerminator_ok]

/-- The index just past the innermost-first `openers`' last block, scanning from `index`. -/
def blockStop (tokens : Tokens) (openers : List Token) (index : Nat) : Tokens → Checked Nat
  | [] => .ok tokens.length
  | token :: rest => do
    if ← opensBlock tokens index then blockStop tokens (token :: openers) (index + 1) rest
    else
      match openers with
      | [] => blockStop tokens [] (index + 1) rest
      | opener :: outer => do
        if ← closesBlock tokens index opener then
          if outer.isEmpty then
            .ok (if token.kind == .endStatement then index + 1 else tokens.logicalLineEnd index)
          else blockStop tokens outer (index + 1) rest
        else blockStop tokens (opener :: outer) (index + 1) rest

theorem blockStop_ok (tokens : Tokens) (openers : List Token) (index : Nat) (rest : Tokens) :
    blockStop tokens openers index rest = .ok (tokens.blockStopFrom openers index rest) := by
  induction rest generalizing openers index with
  | nil => rfl
  | cons token rest ih =>
    unfold blockStop Tokens.blockStopFrom
    rw [opensBlock_ok, ok_bind]
    split
    · exact ih ..
    · cases openers with
      | nil => exact ih ..
      | cons opener outer =>
        dsimp only
        rw [closesBlock_ok, ok_bind]
        split
        · split
          · rfl
          · exact ih ..
        · exact ih ..

/-- The index just past the block opened at `index`. -/
def blockEnd (tokens : Tokens) (index : Nat) : Checked Nat :=
  match tokens[index]? with
  | none => .ok index
  | some token =>
    match token.finishesAt with
    | some last => do
      let rest ← slice tokens index tokens.length
      return (rest.findIdx? (last < ·.line)).elim tokens.length (index + ·)
    | none => blockStop tokens [token] (index + 1) (tokens.drop (index + 1))

theorem blockEnd_ok (tokens : Tokens) (index : Nat) :
    blockEnd tokens index = .ok (tokens.blockEnd index) := by
  unfold blockEnd Tokens.blockEnd
  cases found : tokens[index]? with
  | none =>
    have empty : tokens.drop index = [] := List.drop_eq_nil_of_le (by simpa using found)
    rw [empty]
  | some token =>
    obtain ⟨inside, here⟩ := List.getElem?_eq_some_iff.mp found
    have rest : tokens.drop index = token :: tokens.drop (index + 1) := by
      rw [List.drop_eq_getElem_cons inside, here]
    rw [rest]
    dsimp only
    cases token.finishesAt with
    | none => exact blockStop_ok ..
    | some last =>
      dsimp only
      rw [slice_ok (Nat.le_of_lt inside) (Nat.le_refl _), ok_bind, List.take_length, rest]
      rfl

end Checked
end Clarion
