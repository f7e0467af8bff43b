import Clarion.Outline.Data
import Clarion.Outline.Procedures
import Clarion.Outline.Structures
import Clarion.Proofs.Checked.Tokens

/-! What the outline shows of a declaration, read off its logical line with every access checked.
Given a token of the document, nothing is read out of bounds. -/
namespace Clarion.Checked

open Outline

variable {tokens : Tokens} {index : Nat} {token : Token}

/-! ### Logical lines -/

theorem statementLength_le (cursor : Tokens.Cursor) (rest : Tokens) :
    Tokens.statementLength cursor rest ≤ rest.length := by
  induction rest generalizing cursor with
  | nil => simp [Tokens.statementLength]
  | cons next rest ih =>
    unfold Tokens.statementLength
    split
    · exact Nat.succ_le_succ (ih _)
    · exact Nat.zero_le _

theorem logicalLineEnd_bounds (bound : index < tokens.length) :
    index < tokens.logicalLineEnd index ∧ tokens.logicalLineEnd index ≤ tokens.length := by
  have rest := statementLength_le (.at tokens[index]) (tokens.drop (index + 1))
  rw [List.length_drop] at rest
  unfold Tokens.logicalLineEnd
  rw [List.drop_eq_getElem_cons bound]
  dsimp only
  omega

/-- The text between the parenthesis at `start` and its partner on the same logical line. -/
def parenText? (tokens : Tokens) (start limit : Nat) : Checked (Option String) := do
  match ← matchingParen tokens start limit with
  | some close => do
    let inner ← slice tokens (start + 1) close
    return some (Tokens.render inner)
  | none => return none

theorem parenText?_ok (tokens : Tokens) (start limit : Nat) :
    parenText? tokens start limit = .ok (Outline.parenText? tokens start limit) := by
  unfold parenText? Outline.parenText?
  rw [matchingParen_ok, ok_bind]
  cases found : tokens.matchingParen start limit with
  | none => rfl
  | some close =>
    obtain ⟨order, -, inside⟩ := matchingParen_bounds found
    dsimp only
    rw [slice_ok order (Nat.le_of_lt inside), ok_bind]
    rfl

/-- The text in parentheses right after a keyword, when its logical line goes on. -/
def argsText? (tokens : Tokens) (index stop : Nat) : Checked (Option String) :=
  if index + 1 < stop then parenText? tokens (index + 1) stop else .ok none

theorem argsText?_ok (tokens : Tokens) (index stop : Nat) :
    argsText? tokens index stop = .ok (Outline.parenText? tokens (index + 1) stop) := by
  unfold argsText?
  split
  · exact parenText?_ok ..
  · cases paren : tokens.matchingParen (index + 1) stop with
    | none => simp [Outline.parenText?, paren]
    | some close =>
      have := matchingParen_bounds paren
      omega

/-- Takes apart the opening line of the structure at an index. -/
def header (tokens : Tokens) (index : Nat) : Checked Header :=
  match tokens[index]? with
  | none => .ok {}
  | some token => do
    let stop := tokens.logicalLineEnd index
    let args ← argsText? tokens index stop
    let line ← slice tokens index stop
    let pre ← findAttribute tokens (index + 1) stop "PRE"
    let use ← findAttribute tokens (index + 1) stop "USE"
    let overlaid ← findAttribute tokens (index + 1) stop "OVER"
    let dim ← findAttribute tokens (index + 1) stop "DIM"
    let driver ← findAttribute tokens (index + 1) stop "DRIVER"
    let external ← findAttribute tokens (index + 1) stop "NAME"
    return { keyword := token.value, args, signature := Tokens.render line, pre, use, overlaid, dim,
             driver, external }

theorem header_ok (tokens : Tokens) (index : Nat) :
    header tokens index = .ok (Header.ofTokens tokens index) := by
  unfold header Header.ofTokens
  cases found : tokens[index]? with
  | none => rfl
  | some token =>
    obtain ⟨after, bound⟩ := logicalLineEnd_bounds (List.getElem?_eq_some_iff.mp found).1
    dsimp only
    rw [slice_ok (Nat.le_of_lt after) bound]
    simp only [argsText?_ok, ok_bind, findAttribute_ok, pure_eq]
    rfl

/-- The first argument of a window control. -/
def firstArgument? (tokens : Tokens) (index stop : Nat) : Checked (Option String) := do
  match ← matchingParen tokens (index + 1) stop with
  | some close => do
    let inner ← slice tokens (index + 2) close
    let parts ← splitTopLevelCommas inner
    return parts.head?.map Tokens.render
  | none => return none

theorem firstArgument?_ok (tokens : Tokens) (index stop : Nat) :
    firstArgument? tokens index stop = .ok ((tokens.matchingParen (index + 1) stop).bind fun close =>
      (tokens.slice (index + 2) close).splitTopLevelCommas.head?.map Tokens.render) := by
  unfold firstArgument?
  rw [matchingParen_ok, ok_bind]
  cases found : tokens.matchingParen (index + 1) stop with
  | none => rfl
  | some close =>
    obtain ⟨order, -, inside⟩ := matchingParen_bounds found
    dsimp only
    rw [slice_ok order (Nat.le_of_lt inside), ok_bind, splitTopLevelCommas_ok, ok_bind]
    rfl

/-- The name and detail of a window control. -/
def controlDisplay (tokens : Tokens) (index : Nat) : Checked (String × String) :=
  match tokens[index]? with
  | none => .ok ("", "")
  | some token => do
    let stop := tokens.logicalLineEnd index
    let first ← firstArgument? tokens index stop
    let name :=
      match first with
      | some text => if text.isEmpty then token.value else token.value ++ "(" ++ text ++ ")"
      | none => token.value
    let use ← findAttribute tokens (index + 1) stop "USE"
    let place ← findAttribute tokens (index + 1) stop "AT"
    let shown (word : String) (value : Option String) : List String :=
      value.elim [] fun text => [word ++ "(" ++ text ++ ")"]
    return (name, String.intercalate " " (shown "USE" use ++ shown "AT" place))

theorem controlDisplay_ok (tokens : Tokens) (index : Nat) :
    controlDisplay tokens index = .ok (Outline.controlDisplay tokens index) := by
  unfold controlDisplay Outline.controlDisplay
  cases tokens[index]? with
  | none => rfl
  | some token =>
    dsimp only
    rw [firstArgument?_ok]
    cases (tokens.matchingParen (index + 1) (tokens.logicalLineEnd index)).bind fun close =>
        (tokens.slice (index + 2) close).splitTopLevelCommas.head?.map Tokens.render with
    | none => simp only [ok_bind, findAttribute_ok, pure_eq]
    | some text => simp only [ok_bind, findAttribute_ok, pure_eq]

/-- `PROJECT` with the fields in its parentheses. -/
def projectDisplay (tokens : Tokens) (index : Nat) : Checked String := do
  match ← parenText? tokens (index + 1) (tokens.logicalLineEnd index) with
  | some fields => return "PROJECT(" ++ fields ++ ")"
  | none => return "PROJECT"

theorem projectDisplay_ok (tokens : Tokens) (index : Nat) :
    projectDisplay tokens index = .ok (Outline.projectDisplay tokens index) := by
  unfold projectDisplay Outline.projectDisplay
  rw [parenText?_ok, ok_bind]
  cases Outline.parenText? tokens (index + 1) (tokens.logicalLineEnd index) <;> rfl

/-- The options written after a key, with the commas in front of them. -/
def keyOptions (tokens : Tokens) (start stop : Nat) : Checked String := do
  let line ← slice tokens (min start stop) stop
  let parts ← splitTopLevelCommas line
  return String.join (((parts.map Tokens.render).filter (!·.isEmpty)).map ("," ++ ·))

/-- The name of a key or index, with its label, fields and options, and its fields alone. -/
def keyDisplay (tokens : Tokens) (index : Nat) (label : Option String) :
    Checked (String × String) :=
  match tokens[index]? with
  | none => .ok ("", "")
  | some token => do
    let keyword := Text.foldUpper token.value
    let stop := tokens.logicalLineEnd index
    let head := label.elim keyword fun label => keyword ++ "(" ++ label ++ ")"
    match ← matchingParen tokens (index + 1) stop with
    | some close => do
      let inner ← slice tokens (index + 2) close
      let fields := Tokens.render inner
      let options ← keyOptions tokens (close + 1) stop
      return (head ++ (",(" ++ fields ++ ")") ++ options, fields)
    | none => do
      let options ← keyOptions tokens (index + 1) stop
      return (head ++ options, "")

theorem keyOptions_ok (start : Nat) {stop : Nat} (bound : stop ≤ tokens.length) :
    keyOptions tokens start stop = .ok (String.join
      ((((tokens.slice (min start stop) stop).splitTopLevelCommas.map Tokens.render).filter
        (!·.isEmpty)).map ("," ++ ·))) := by
  rw [keyOptions, slice_ok (Nat.min_le_right start stop) bound, ok_bind, splitTopLevelCommas_ok,
    ok_bind]
  rfl

theorem keyDisplay_ok (tokens : Tokens) (index : Nat) (label : Option String) :
    keyDisplay tokens index label = .ok (Outline.keyDisplay tokens index label) := by
  unfold keyDisplay Outline.keyDisplay
  cases found : tokens[index]? with
  | none => rfl
  | some token =>
    have bound := (logicalLineEnd_bounds (List.getElem?_eq_some_iff.mp found).1).2
    dsimp only
    rw [matchingParen_ok, ok_bind]
    cases paren : tokens.matchingParen (index + 1) (tokens.logicalLineEnd index) with
    | none =>
      dsimp only
      rw [keyOptions_ok _ bound]
      simp
    | some close =>
      obtain ⟨order, -, inside⟩ := matchingParen_bounds paren
      dsimp only
      rw [slice_ok order (Nat.le_of_lt inside), ok_bind, keyOptions_ok _ bound]
      rfl

/-- The parameters of a procedure as written. -/
def paramsDisplay (tokens : Tokens) (index : Nat) : Checked String := do
  match ← matchingParen tokens (index + 1) (tokens.logicalLineEnd index) with
  | some close => do
    let written ← slice tokens (index + 1) (close + 1)
    return Tokens.render written
  | none => return "()"

theorem paramsDisplay_ok (tokens : Tokens) (index : Nat) :
    paramsDisplay tokens index = .ok (Outline.paramsDisplay tokens index) := by
  unfold paramsDisplay Outline.paramsDisplay
  rw [matchingParen_ok, ok_bind]
  cases found : tokens.matchingParen (index + 1) (tokens.logicalLineEnd index) with
  | none => rfl
  | some close =>
    obtain ⟨order, -, inside⟩ := matchingParen_bounds found
    dsimp only
    rw [slice_ok (by omega) inside, ok_bind]
    rfl

/-- The text from a token to the end of its logical line. -/
def tailDisplay (tokens : Tokens) (index : Nat) : Checked String := do
  let stop := tokens.logicalLineEnd index
  let line ← slice tokens (min index stop) stop
  return Tokens.render line

theorem tailDisplay_ok (found : tokens[index]? = some token) :
    tailDisplay tokens index = .ok (Outline.tailDisplay tokens index) := by
  obtain ⟨after, bound⟩ := logicalLineEnd_bounds (List.getElem?_eq_some_iff.mp found).1
  unfold tailDisplay
  dsimp only
  rw [Nat.min_eq_left (Nat.le_of_lt after), slice_ok (Nat.le_of_lt after) bound, ok_bind]
  rfl

/-! ### Labels -/

/-- The label right before a token, at the start of its line. -/
def lineLabel? (tokens : Tokens) (index : Nat) : Checked (Option LineLabel) :=
  match tokens[index]? with
  | none => .ok none
  | some token =>
    match tokens.firstOnLine? token.line with
    | none => .ok none
    | some first =>
      if index ≤ first then .ok none
      else
        match tokens[first]? with
        | none => .ok none
        | some head => do
          let distance ← minus index first
          if distance = 1 && (head.kind == .label || head.kind == .structurePrefix) then
            return some ⟨head.value, first⟩
          else if distance = 2 && head.kind == .label then do
            let second ← get tokens (first + 1)
            return if second.kind == .structurePrefix then some ⟨head.value ++ second.value, first⟩
              else none
          else return none

theorem lineLabel?_ok (tokens : Tokens) (index : Nat) :
    lineLabel? tokens index = .ok (Outline.lineLabel? tokens index) := by
  unfold lineLabel? Outline.lineLabel?
  cases found : tokens[index]? with
  | none => rfl
  | some token =>
    have bound := (List.getElem?_eq_some_iff.mp found).1
    simp only [Option.bind_eq_bind, Option.bind_some]
    cases tokens.firstOnLine? token.line with
    | none => rfl
    | some first =>
      simp only [Option.bind_some]
      split
      · cases tokens[first]? with
        | none => rfl
        | some head => simp [show index ≠ first + 1 by omega, show index ≠ first + 2 by omega]
      · rename_i later
        have before : first ≤ index := by omega
        cases tokens[first]? with
        | none => rfl
        | some head =>
          simp only [minus_ok before, ok_bind, Option.bind_some]
          obtain adjacent | second | far :
              index = first + 1 ∨ index = first + 2 ∨ first + 2 < index := by omega
          · cases head.kind == .label <;> cases head.kind == .structurePrefix <;> simp [adjacent]
          · have next := List.getElem?_eq_getElem (show first + 1 < tokens.length by omega)
            cases head.kind == .label <;>
              simp [second, get_ok next, next, show first + 2 - first = 2 by omega]
          · have noOne : index - first ≠ 1 := by omega
            have noTwo : index - first ≠ 2 := by omega
            simp [noOne, noTwo, show index ≠ first + 1 by omega, show index ≠ first + 2 by omega]

/-- A label starts before the token that it belongs to. -/
theorem lineLabel?_bounds {label : LineLabel}
    (found : Outline.lineLabel? tokens index = some label) :
    label.index < index ∧ index < tokens.length := by
  simp only [Outline.lineLabel?, Option.bind_eq_bind, Option.bind_eq_some_iff] at found
  obtain ⟨token, here, first, -, head, -, found⟩ := found
  refine ⟨?_, (List.getElem?_eq_some_iff.mp here).1⟩
  split at found
  · split at found
    · cases found
      dsimp only
      omega
    · cases found
  · split at found
    · obtain ⟨second, -, found⟩ := Option.bind_eq_some_iff.mp found
      split at found
      · cases found
        dsimp only
        omega
      · cases found
    · cases found

/-- The token starts its line, or stands right after the label that does. -/
def isLineHead (tokens : Tokens) (index : Nat) : Checked Bool :=
  match tokens[index]? with
  | none => .ok false
  | some token =>
    if tokens.firstOnLine? token.line == some index then .ok true
    else do
      let label ← lineLabel? tokens index
      return label.isSome

theorem isLineHead_ok (tokens : Tokens) (index : Nat) :
    isLineHead tokens index = .ok (Outline.isLineHead tokens index) := by
  unfold isLineHead Outline.isLineHead
  cases tokens[index]? with
  | none => rfl
  | some token =>
    cases first : tokens.firstOnLine? token.line == some index <;> simp [first, lineLabel?_ok]

/-- The label of a declaration. -/
def labelOf (tokens : Tokens) (index : Nat) : Checked (Option String) := do
  let token ← get tokens index
  match token.label with
  | some label => return some label
  | none => do
    let label ← lineLabel? tokens index
    return label.map LineLabel.text

theorem labelOf_ok (found : tokens[index]? = some token) :
    labelOf tokens index = .ok (Outline.labelOf tokens index token) := by
  unfold labelOf Outline.labelOf
  rw [get_ok found, ok_bind]
  cases token.label <;> simp [lineLabel?_ok]

/-! ### Spans -/

/-- The start of a token's line. -/
def lineStart (tokens : Tokens) (token : Token) : Checked Position :=
  match tokens.firstOnLine? token.line with
  | none => .ok ⟨token.line, token.start⟩
  | some first => do
    let head ← get tokens first
    return ⟨token.line, head.start⟩

theorem lineStart_ok (tokens : Tokens) (token : Token) :
    lineStart tokens token = .ok (Outline.lineStart tokens token) := by
  unfold lineStart Outline.lineStart
  cases first : tokens.firstOnLine? token.line with
  | none => rfl
  | some first =>
    have bound := (List.findIdx?_eq_some_iff_getElem.mp first).1
    have head := List.getElem?_eq_getElem bound
    simp [get_ok head, head]

/-- The end of a line. -/
def lineStop (tokens : Tokens) (line : Nat) : Checked Position := do
  let column ← lineStopColumn? tokens line
  return ⟨line, column.getD 0⟩

theorem lineStop_ok (tokens : Tokens) (line : Nat) :
    lineStop tokens line = .ok (State.lineStop tokens line) := by
  rw [lineStop, lineStopColumn?_ok, ok_bind]
  rfl

/-- From the start of the token's line to the end of its closing line, or of its own line. -/
def blockRange (tokens : Tokens) (index : Nat) (finishesAt : Option Nat) : Checked Range := do
  let token ← get tokens index
  let start ← lineStart tokens token
  let stop ← lineStop tokens ((finishesAt.filter (token.line ≤ ·)).getD token.line)
  return ⟨start, stop⟩

theorem blockRange_ok (found : tokens[index]? = some token) (finishesAt : Option Nat) :
    blockRange tokens index finishesAt = .ok (Outline.blockRange tokens token finishesAt) := by
  rw [blockRange, get_ok found, ok_bind, lineStart_ok, ok_bind, lineStop_ok, ok_bind]
  rfl

/-- From the start of the token's line to the end of its logical line. -/
def statementRange (tokens : Tokens) (index : Nat) : Checked Range := do
  let token ← get tokens index
  let last ← get tokens (max (tokens.logicalLineEnd index - 1) index)
  let start ← lineStart tokens token
  return ⟨start, ⟨last.line, last.stop⟩⟩

theorem statementRange_ok (found : tokens[index]? = some token) :
    statementRange tokens index = .ok (Outline.statementRange tokens index token) := by
  obtain ⟨after, bound⟩ := logicalLineEnd_bounds (List.getElem?_eq_some_iff.mp found).1
  have place : max (tokens.logicalLineEnd index - 1) index = tokens.logicalLineEnd index - 1 := by
    omega
  have last := List.getElem?_eq_getElem (show tokens.logicalLineEnd index - 1 < tokens.length by omega)
  rw [statementRange, get_ok found, ok_bind, place, get_ok last, ok_bind, lineStart_ok, ok_bind]
  simp only [Outline.statementRange, last]
  rfl

/-- The span of the label in front of a token, or of the token itself. -/
def selectionRange (tokens : Tokens) (index : Nat) : Checked Range := do
  let token ← get tokens index
  match ← lineLabel? tokens index with
  | some label => do
    let first ← get tokens label.index
    let before ← minus index 1
    let last ← get tokens before
    return ⟨⟨first.line, first.start⟩, ⟨last.line, last.stop⟩⟩
  | none => return tokenRange token

theorem selectionRange_ok (found : tokens[index]? = some token) :
    selectionRange tokens index = .ok (Outline.selectionRange tokens index token) := by
  unfold selectionRange Outline.selectionRange
  rw [get_ok found, ok_bind, lineLabel?_ok, ok_bind]
  cases labelled : Outline.lineLabel? tokens index with
  | none => rfl
  | some label =>
    obtain ⟨before, bound⟩ := lineLabel?_bounds labelled
    have first := List.getElem?_eq_getElem (Nat.lt_trans before bound)
    have last := List.getElem?_eq_getElem (show index - 1 < tokens.length by omega)
    dsimp only
    rw [get_ok first, ok_bind, minus_ok (by omega), ok_bind, get_ok last, ok_bind, first, last]
    rfl

end Clarion.Checked
