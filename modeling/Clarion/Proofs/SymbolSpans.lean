import Clarion.Proofs.Checked.Symbols
import Clarion.Proofs.Forest
import Clarion.Proofs.Implementations
import Mathlib.Data.List.Chain

/-! The spans of an outline. In a document whose tokens stand in order, every symbol is made with
its name inside its span: the span starts with the line of its token and goes on past that token,
and the name lies between. Spans only ever grow, so the same holds of every symbol of the finished
outline.

Columns are counted in 32 bits. A token that goes on past the last column ends before it starts, and
so does the name that it gives, so every token has to end on a column that is there. -/
namespace Clarion

/-- The token ends on a column of 32 bits. -/
def Token.StopFits (token : Token) : Prop :=
  token.start + token.value.length < 4294967296

theorem Token.StopFits.start_le_stop {token : Token} (fits : token.StopFits) :
    token.start ≤ token.stop := by
  rw [stop, Nat.mod_eq_of_lt fits]
  exact Nat.le_add_right ..

/-- The tokens go by line, and those on one line do not overlap. -/
def Tokens.InOrder (tokens : Tokens) : Prop :=
  tokens.IsChain fun left right =>
    left.line ≤ right.line ∧ (left.line = right.line → left.stop ≤ right.start)

/-- Tokens in order, each ending on a column of 32 bits. -/
structure Tokens.Laid (tokens : Tokens) : Prop where
  inOrder : tokens.InOrder
  fits : ∀ token ∈ tokens, token.StopFits

namespace Outline

/-- The span of the symbol's name lies inside the span of the symbol. -/
structure Info.Spanned (info : Info) : Prop where
  start : info.range.start ≤ info.selection.start
  selection : info.selection.start ≤ info.selection.stop
  stop : info.selection.stop ≤ info.range.stop

theorem Info.Spanned.widen {info : Info} (spanned : info.Spanned) {range : Range}
    (wider : range.Covers info.range) : { info with range }.Spanned :=
  ⟨wider.start.trans spanned.start, spanned.selection, spanned.stop.trans wider.stop⟩

variable {tokens : Tokens} {index : Nat} {token : Token}

/-! ### Tokens in order -/

theorem tokenRange_le (fits : token.StopFits) :
    (tokenRange token).start ≤ (tokenRange token).stop :=
  Position.le_iff.mpr (.inr ⟨rfl, fits.start_le_stop⟩)

/-- Of two tokens in order, neither ends before it starts, and the first ends where the second
starts, or before. -/
structure Precedes (left right : Token) : Prop where
  first : (tokenRange left).start ≤ (tokenRange left).stop
  apart : (tokenRange left).stop ≤ (tokenRange right).start
  second : (tokenRange right).start ≤ (tokenRange right).stop

theorem Precedes.start_le {left right : Token} (precedes : Precedes left right) :
    (tokenRange left).start ≤ (tokenRange right).start :=
  precedes.first.trans precedes.apart

theorem Precedes.stop_le {left right : Token} (precedes : Precedes left right) :
    (tokenRange left).stop ≤ (tokenRange right).stop :=
  precedes.apart.trans precedes.second

instance : Trans Precedes Precedes Precedes :=
  ⟨fun earlier later => ⟨earlier.first, earlier.apart.trans later.start_le, later.second⟩⟩

theorem pairwise_precedes (laid : tokens.Laid) : tokens.Pairwise Precedes := by
  refine List.isChain_iff_pairwise.mp
    (laid.inOrder.imp_of_mem_imp fun left right inLeft inRight next => ?_)
  refine ⟨tokenRange_le (laid.fits left inLeft), ?_, tokenRange_le (laid.fits right inRight)⟩
  rcases Nat.lt_or_eq_of_le next.1 with below | same
  · exact Position.le_iff.mpr (.inl below)
  · exact Position.le_iff.mpr (.inr ⟨same, next.2 same⟩)

/-- Later tokens start later and stop later. -/
theorem start_stop_le (laid : tokens.Laid) {first second : Nat} {left right : Token}
    (order : first ≤ second) (foundLeft : tokens[first]? = some left)
    (foundRight : tokens[second]? = some right) :
    (tokenRange left).start ≤ (tokenRange right).start ∧
      (tokenRange left).stop ≤ (tokenRange right).stop := by
  obtain ⟨boundLeft, rfl⟩ := List.getElem?_eq_some_iff.mp foundLeft
  obtain ⟨boundRight, rfl⟩ := List.getElem?_eq_some_iff.mp foundRight
  rcases Nat.lt_or_eq_of_le order with before | rfl
  · have precedes := List.pairwise_iff_getElem.mp (pairwise_precedes laid) _ _ boundLeft
      boundRight before
    exact ⟨precedes.start_le, precedes.stop_le⟩
  · exact ⟨le_rfl, le_rfl⟩

/-- The line of a token starts with a token on it, not after this one. -/
theorem lineStart_eq (found : tokens[index]? = some token) :
    ∃ first head, tokens.firstOnLine? token.line = some first ∧ tokens[first]? = some head ∧
      first ≤ index ∧ lineStart tokens token = (tokenRange head).start := by
  obtain ⟨bound, rfl⟩ := List.getElem?_eq_some_iff.mp found
  have some : (tokens.firstOnLine? tokens[index].line).isSome := by
    rw [Tokens.firstOnLine?, List.findIdx?_isSome, List.any_eq_true]
    exact ⟨_, List.getElem_mem bound, beq_self_eq_true _⟩
  obtain ⟨first, isFirst⟩ := Option.isSome_iff_exists.mp some
  obtain ⟨inside, onLine, earlier⟩ := List.findIdx?_eq_some_iff_getElem.mp isFirst
  refine ⟨first, tokens[first], isFirst, List.getElem?_eq_getElem inside, ?_, ?_⟩
  · by_contra later
    exact earlier index (Nat.lt_of_not_le later) (beq_self_eq_true _)
  · simp only [lineStart, isFirst, Option.bind_some, List.getElem?_eq_getElem inside,
      Option.elim_some, tokenRange]
    rw [beq_iff_eq.mp onLine]

/-- A line goes on at least to the end of every token on it. -/
theorem stop_le_lineStop (laid : tokens.Laid) (found : tokens[index]? = some token) :
    token.stop ≤ (tokens.lineStopColumn? token.line).getD 0 := by
  have member := List.mem_reverse.mpr (List.mem_of_getElem? found)
  cases last : tokens.reverse.find? (·.line == token.line) with
  | none =>
    have absent := List.find?_eq_none.mp last token member
    simp at absent
  | some final =>
    obtain ⟨onLine, front, back, split, skipped⟩ := List.find?_eq_some_iff_append.mp last
    have reversed := List.pairwise_reverse.mpr (pairwise_precedes laid)
    rw [split] at reversed member
    have same : final.line = token.line := beq_iff_eq.mp onLine
    have stops : (tokens.lineStopColumn? token.line).getD 0 = final.stop := by
      simp [Tokens.lineStopColumn?, last]
    rw [stops]
    rcases List.mem_append.mp member with skippedOver | member
    · have off := skipped token skippedOver
      simp at off
    · rcases List.mem_cons.mp member with rfl | behind
      · exact Nat.le_refl _
      · have fromFinal := (List.pairwise_append.mp reversed).2.1
        have precedes := (List.pairwise_cons.mp fromFinal).1 token behind
        rcases Position.le_iff.mp precedes.stop_le with below | ⟨-, columns⟩
        · exact absurd same (Nat.ne_of_gt below)
        · exact columns

/-! ### Spans of declarations -/

/-- A span that starts with the line of a token and goes on past the token. -/
structure Reaches (tokens : Tokens) (token : Token) (range : Range) : Prop where
  start : range.start = lineStart tokens token
  stop : (tokenRange token).stop ≤ range.stop

/-- A span between the start of the line of a token and the end of the token. -/
structure Fits (tokens : Tokens) (token : Token) (range : Range) : Prop where
  start : lineStart tokens token ≤ range.start
  inner : range.start ≤ range.stop
  stop : range.stop ≤ (tokenRange token).stop

theorem Info.spanned_of {info : Info} (reaches : Reaches tokens token info.range)
    (fits : Fits tokens token info.selection) : info.Spanned :=
  ⟨reaches.start ▸ fits.start, fits.inner, fits.stop.trans reaches.stop⟩

theorem blockRange_reaches (laid : tokens.Laid) (found : tokens[index]? = some token)
    (finishesAt : Option Nat) : Reaches tokens token (blockRange tokens token finishesAt) := by
  refine ⟨rfl, Position.le_iff.mpr ?_⟩
  simp only [blockRange, tokenRange]
  have later : token.line ≤ (finishesAt.filter (token.line ≤ ·)).getD token.line := by
    cases closes : finishesAt.filter (token.line ≤ ·) with
    | none => exact Nat.le_refl _
    | some line => simpa using (Option.filter_eq_some_iff.mp closes).2
  rcases Nat.lt_or_eq_of_le later with below | same
  · exact .inl below
  · rw [← same]
    exact .inr ⟨rfl, stop_le_lineStop laid found⟩

theorem statementRange_reaches (laid : tokens.Laid) (found : tokens[index]? = some token) :
    Reaches tokens token (statementRange tokens index token) := by
  refine ⟨rfl, ?_⟩
  obtain ⟨after, bound⟩ := Checked.logicalLineEnd_bounds (List.getElem?_eq_some_iff.mp found).1
  have last : tokens[tokens.logicalLineEnd index - 1]? =
      some (tokens.get ⟨tokens.logicalLineEnd index - 1, by omega⟩) :=
    List.getElem?_eq_getElem (by omega)
  simp only [statementRange, last, Option.getD_some]
  exact (start_stop_le laid (Nat.le_sub_one_of_lt after) found last).2

theorem tokenRange_fits (laid : tokens.Laid) (found : tokens[index]? = some token) :
    Fits tokens token (tokenRange token) := by
  obtain ⟨first, head, -, foundHead, order, starts⟩ := lineStart_eq found
  have fits := laid.fits token (List.mem_of_getElem? found)
  exact ⟨starts ▸ (start_stop_le laid order foundHead found).1, tokenRange_le fits, le_rfl⟩

/-- A label from the start of the line up to the token before fits. -/
theorem label_fits (laid : tokens.Laid) {last : Nat} {head tail : Token}
    (found : tokens[last + 1]? = some token) {first : Nat}
    (isFirst : tokens.firstOnLine? token.line = some first) (order : first ≤ last)
    (foundHead : tokens[first]? = some head) (foundTail : tokens[last]? = some tail) :
    Fits tokens token ⟨(tokenRange head).start, (tokenRange tail).stop⟩ := by
  obtain ⟨other, again, isFirstAgain, foundAgain, -, starts⟩ := lineStart_eq found
  cases isFirstAgain.symm.trans isFirst
  cases foundAgain.symm.trans foundHead
  refine ⟨starts.le, ?_, ?_⟩
  · have fits := laid.fits head (List.mem_of_getElem? foundHead)
    exact (tokenRange_le fits).trans (start_stop_le laid order foundHead foundTail).2
  · exact (start_stop_le laid (Nat.le_succ last) foundTail found).2

theorem selectionRange_fits (laid : tokens.Laid) (found : tokens[index]? = some token) :
    Fits tokens token (selectionRange tokens index token) := by
  unfold selectionRange
  split
  · exact tokenRange_fits laid found
  · rename_i label labelled
    obtain ⟨before, bound⟩ := Checked.lineLabel?_bounds labelled
    obtain ⟨last, rfl⟩ := Nat.exists_eq_add_of_lt (Nat.zero_lt_of_lt before)
    rw [Nat.zero_add] at before bound found labelled ⊢
    have isFirst : tokens.firstOnLine? token.line = some label.index := by
      simp only [lineLabel?, found, Option.bind_eq_bind, Option.bind_some] at labelled
      obtain ⟨first, isFirst, head, -, labelled⟩ := by
        simpa only [Option.bind_eq_some_iff] using labelled
      split at labelled
      · split at labelled
        · cases labelled
          exact isFirst
        · cases labelled
      · split at labelled
        · obtain ⟨second, -, labelled⟩ := Option.bind_eq_some_iff.mp labelled
          split at labelled
          · cases labelled
            exact isFirst
          · cases labelled
        · cases labelled
    have foundHead := List.getElem?_eq_getElem (Nat.lt_trans before bound)
    have foundTail := List.getElem?_eq_getElem (Nat.lt_of_succ_lt bound)
    rw [Nat.add_sub_cancel, foundHead, foundTail]
    exact label_fits laid found isFirst (Nat.lt_succ_iff.mp before) foundHead foundTail

/-- The label of a data declaration ends right before the type and starts the line. -/
theorem dataLabel?_ends {label : DataLabel}
    (labelled : dataLabel? tokens index token = some label) :
    ∃ last, index = last + 1 ∧ tokens[last]? = some label.last ∧
      tokens.firstOnLine? token.line = some label.index := by
  cases index with
  | zero => simp [dataLabel?] at labelled
  | succ previous =>
    simp only [dataLabel?, Nat.add_eq_zero_iff, Nat.one_ne_zero, and_false, ↓reduceIte,
      Nat.add_sub_cancel, Option.bind_eq_bind] at labelled
    obtain ⟨last, foundLast, labelled⟩ := Option.bind_eq_some_iff.mp labelled
    -- Whichever way the label is read, its last token is the one before the type.
    have chosen {read : DataLabel} (ends : read.last = last)
        (kept : (some read).bind (fun label =>
          if tokens.firstOnLine? token.line == some label.index then some label else none) =
            some label) :
        tokens[previous]? = some label.last ∧
          tokens.firstOnLine? token.line = some label.index := by
      rw [Option.bind_some] at kept
      split at kept
      · rename_i isFirst
        cases kept
        exact ⟨ends ▸ foundLast, beq_iff_eq.mp isFirst⟩
      · cases kept
    refine ⟨previous, rfl, ?_⟩
    split at labelled
    · cases labelled
    · split at labelled
      · exact chosen rfl labelled
      · exact chosen rfl labelled
      · split at labelled
        · split at labelled
          · exact chosen rfl labelled
          · exact chosen rfl labelled
        · exact chosen rfl labelled
      · cases labelled

theorem dataInfo_fits (laid : tokens.Laid) (found : tokens[index]? = some token)
    {label : DataLabel} (labelled : dataLabel? tokens index token = some label) (home : Home)
    (references : List String) :
    Fits tokens token (State.dataInfo tokens index token label home references).selection := by
  have before := Checked.dataLabel?_bounds found labelled
  obtain ⟨last, rfl, foundTail, isFirst⟩ := dataLabel?_ends labelled
  have bound := (List.getElem?_eq_some_iff.mp found).1
  have foundHead := List.getElem?_eq_getElem (Nat.lt_trans before bound)
  simp only [State.dataInfo, foundHead, Option.getD_some]
  exact label_fits laid found isFirst (Nat.lt_succ_iff.mp before) foundHead foundTail

/-- Every symbol is made with its name inside its span. -/
theorem State.Makes.spanned (laid : tokens.Laid) (found : tokens[index]? = some token)
    {info : Info} (makes : State.Makes tokens index token info) : info.Spanned := by
  have block {index : Nat} {token : Token} (found : tokens[index]? = some token) :=
    blockRange_reaches laid found
  have statement {index : Nat} {token : Token} (found : tokens[index]? = some token) :=
    statementRange_reaches laid found
  have label {index : Nat} {token : Token} (found : tokens[index]? = some token) :=
    selectionRange_fits laid found
  have word {index : Nat} {token : Token} (found : tokens[index]? = some token) :=
    tokenRange_fits laid found
  cases makes with
  | structureSymbol | procedureSymbol | routineSymbol =>
    exact Info.spanned_of (block found _) (label found)
  | recordSymbol inside => exact Info.spanned_of (block inside _) (label inside)
  | joinSymbol inside => exact Info.spanned_of (block inside _) (word inside)
  | keySymbol inside | memoSymbol inside => exact Info.spanned_of (statement inside) (label inside)
  | projectSymbol inside => exact Info.spanned_of (statement inside) (word inside)
  | controlSymbol => exact Info.spanned_of (statement found) (word found)
  | prototypeSymbol => exact Info.spanned_of (statement found) (label found)
  | codeSymbol =>
    exact ⟨le_rfl, tokenRange_le (laid.fits token (List.mem_of_getElem? found)), le_rfl⟩
  | dataSymbol labelled =>
    exact Info.spanned_of (statement found) (dataInfo_fits laid found labelled _ _)

/-! ### Spans along the pass -/

namespace Arena

variable {arena before after : Arena} {info : Info} {parent : Option NodeId}
  {sort : Option Group} {owner : NodeId}

/-- Every node has its name inside its span. -/
def Spanned (arena : Arena) : Prop :=
  ∀ id node, arena.node? id = some node → node.info.Spanned

theorem Spanned.widen (spanned : before.Spanned) (widens : before.Widens after) :
    after.Spanned := by
  intro id node found
  obtain ⟨range, wider, same⟩ := widens.nodes id
  rw [same] at found
  obtain ⟨old, foundOld, rfl⟩ := Option.map_eq_some_iff.mp found
  exact (spanned id old foundOld).widen (wider old)

theorem Spanned.push (spanned : arena.Spanned)
    (ready : ∀ above, parent = some above → arena.Holds above) (made : info.Spanned) :
    (arena.push parent info sort).1.Spanned := by
  intro id node found
  rcases WellFormed.push_cases ready found with ⟨-, rfl⟩ | ⟨old, foundOld, rfl⟩
  · exact made
  · have same : (withChild parent arena.nodes.size id old).info = old.info := by
      unfold withChild
      split <;> rfl
    rw [same]
    exact spanned id old foundOld

/-- A group has the spans that its owner had when the group was created. -/
theorem Spanned.ensureGroup (spanned : arena.Spanned) (held : arena.Holds owner) (group : Group) :
    (arena.ensureGroup owner group).1.Spanned := by
  cases recorded : arena.group? owner group with
  | some old =>
    rw [ensureGroup_old recorded]
    exact spanned
  | none =>
    obtain ⟨above, found⟩ := held.node?
    have inside := spanned owner above found
    have grouped : (arena.push (some owner) (groupInfo group above) (some group)).1.Spanned :=
      spanned.push held.ready ⟨inside.start, inside.selection, inside.stop⟩
    rw [ensureGroup_new recorded found]
    exact grouped

theorem Builds.spanned {makes : Info → Prop} {known : NodeId → Prop}
    (builds : Builds makes known before after) (arranged : before.Arranged)
    (each : ∀ info, makes info → info.Spanned) (spanned : before.Spanned) : after.Spanned := by
  induction builds with
  | start => exact spanned
  | moved _ id place ih => exact ih.widen (.extendTo ..)
  | made earlier isMade place ih =>
    exact ih.push (place.ready (earlier.arranged arranged).toWellFormed) (each _ isMade)
  | grouped _ _ fits ih => exact ih.ensureGroup (holds_of_kind? fits) _

end Arena

namespace State

/-- A method and the root of its undeclared class are made with their names inside their spans. -/
theorem Adopts.spanned {className methodName detail : String} {state : State}
    {arena ready : Arena} {owner : NodeId}
    (adopts : Adopts tokens index token className methodName state arena ready owner detail)
    (laid : tokens.Laid) (found : tokens[index]? = some token) (spanned : arena.Spanned) :
    ready.Spanned := by
  cases adopts with
  | declared | collected => exact spanned
  | founded =>
    exact spanned.push (by rintro _ ⟨⟩)
      (Info.spanned_of (blockRange_reaches laid found _) (selectionRange_fits laid found))

end State

/-! ### The symbols of an outline -/

/-- The symbol stands somewhere in the outline. -/
inductive Symbol.Occurs (outline : List Symbol) : Symbol → Prop where
  | root {symbol : Symbol} (member : symbol ∈ outline) : Occurs outline symbol
  | child {symbol child : Symbol} (upper : Occurs outline symbol)
    (member : child ∈ symbol.children) : Occurs outline child

/-- Every symbol of the finished outline shows a node. -/
theorem Arena.IsForest.shows_symbol {arena : Arena} {forest : List Numbered}
    (isForest : arena.IsForest forest) {symbol : Symbol}
    (occurs : Symbol.Occurs arena.toSymbols symbol) :
    ∃ tree ∈ forest.flatMap Numbered.within, tree.symbol = symbol := by
  induction occurs with
  | root member =>
    rw [← isForest.symbols] at member
    obtain ⟨tree, inside, same⟩ := List.mem_map.mp member
    exact ⟨tree, List.mem_flatMap.mpr ⟨tree, inside, tree.within_eq ▸ List.mem_cons_self⟩, same⟩
  | child _ member ih =>
    obtain ⟨tree, inside, rfl⟩ := ih
    rw [Numbered.symbol_children] at member
    obtain ⟨child, listed, same⟩ := List.mem_map.mp member
    obtain ⟨top, isTop, deeper⟩ := List.mem_flatMap.mp inside
    exact ⟨child, List.mem_flatMap.mpr ⟨top, isTop, Numbered.within_child deeper listed⟩, same⟩

end Outline
end Clarion
