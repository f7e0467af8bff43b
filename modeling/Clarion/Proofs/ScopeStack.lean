import Clarion.Proofs.Pass
import Mathlib.Data.List.Basic
import Mathlib.Data.List.TakeWhile

/-! The stack of open scopes, seen from below: a front part that was open at some moment, and what
has been opened on top of it since. As long as no token knows its closing line, a scope closes only
at a line that starts a global procedure, at the next routine, or at an end. -/
namespace Clarion.Outline

namespace Scopes

variable {front back scopes : Scopes} {holds : Scope → Bool}

/-- The innermost scope that satisfies a test, when none in the upper part does. -/
theorem innermost?_append_of_none (none : ∀ scope ∈ back, holds scope = false) :
    innermost? (front ++ back) holds = innermost? front holds := by
  have missing : back.reverse.find? holds = .none := by simpa using none
  rw [innermost?, List.reverse_append, List.find?_append, missing]
  rfl

theorem innermost?_append_cons {scope : Scope} (passes : holds scope)
    (none : ∀ other ∈ back, holds other = false) :
    innermost? (front ++ scope :: back) holds = some scope := by
  rw [← List.singleton_append, ← List.append_assoc, innermost?_append_of_none none]
  simp [innermost?, passes]

theorem innermost?_mem {scope : Scope} (found : innermost? scopes holds = some scope) :
    scope ∈ scopes :=
  List.mem_reverse.mp (List.mem_of_find?_eq_some found)

/-- The index of the innermost scope that satisfies a test, when none in the upper part does. -/
theorem lastIndex?_append_of_none (none : ∀ scope ∈ back, holds scope = false) :
    lastIndex? (front ++ back) holds = lastIndex? front holds := by
  have missing : back.reverse.findIdx? holds = .none := by simpa using none
  unfold lastIndex?
  rw [List.reverse_append, List.findIdx?_append, missing, Option.none_or, Option.map_map]
  congr 1
  funext index
  simp only [Function.comp_apply, List.length_append, List.length_reverse]
  omega

theorem lastIndex?_lt {index : Nat} (found : lastIndex? scopes holds = some index) :
    index < scopes.length := by
  obtain ⟨position, present, rfl⟩ := Option.map_eq_some_iff.mp found
  have bound := (List.findIdx?_eq_some_iff_getElem.mp present).1
  rw [List.length_reverse] at bound
  omega

theorem lastIndex?_isSome (scopes : Scopes) (holds : Scope → Bool) :
    (lastIndex? scopes holds).isSome ↔ ∃ scope ∈ scopes, holds scope := by
  simp [lastIndex?, List.findIdx?_isSome]

/-- Without closing lines, a line closes only the innermost global procedure with all above it, and
only when it starts one. -/
theorem closeAtLine_openEnded (openEnded : ∀ scope ∈ scopes, scope.finishesAt = none) (line : Nat)
    (lineTokens : List Token) (hasMethods : Bool) :
    (scopes.closeAtLine line lineTokens hasMethods).1 =
      if startsGlobal lineTokens then scopes.take ((scopes.lastIndex? isGlobal).getD scopes.length)
      else scopes := by
  have never (bound floor : Nat) :
      ((scopes.take bound).drop floor).findIdx? (isPast line) = none := by
    rw [List.findIdx?_eq_none_iff]
    intro scope member
    simp [isPast, openEnded scope (List.mem_of_mem_take (List.mem_of_mem_drop member))]
  unfold closeAtLine keepCount
  dsimp only
  rw [never, List.splitAt_eq]
  split <;> simp

/-- The scopes below the outermost one that satisfies a test stay open. -/
theorem splitFrom_fst (scopes : Scopes) (holds : Scope → Bool) :
    (scopes.splitFrom holds).1 = scopes.takeWhile fun scope => !holds scope := by
  rw [List.takeWhile_eq_take_findIdx_not, splitFrom, List.splitAt_eq]
  simp only [Bool.not_not, List.findIdx_eq_getD_findIdx?]

theorem splitFrom_initial (scopes : Scopes) (holds : Scope → Bool) :
    (scopes.splitFrom holds).1 <+: scopes := by
  rw [splitFrom_fst]
  exact List.takeWhile_prefix _

theorem splitFrom_none (scopes : Scopes) (holds : Scope → Bool) :
    ∀ scope ∈ (scopes.splitFrom holds).1, holds scope = false := by
  intro scope member
  rw [splitFrom_fst] at member
  simpa using List.mem_takeWhile_imp member

end Scopes

/-! ### Scopes that are no bodies -/

/-- The scope belongs to no body: its node is neither a procedure nor a method, and it does not
close as a global procedure. -/
structure Arena.Inner (arena : Arena) (scope : Scope) : Prop where
  kind : ∃ kind, arena.kind? scope.node = some kind ∧ kind.isCallable = false
  closing : scope.kind ≠ .globalProcedure

theorem Arena.Inner.mono {before after : Arena} {scope : Scope} (inner : before.Inner scope)
    (grows : before.Grows after) : after.Inner scope := by
  obtain ⟨kind, found, plain⟩ := inner.kind
  exact ⟨⟨kind, grows.kind? found, plain⟩, inner.closing⟩

theorem Kind.ofStructureWord_inner (word : String) :
    (Kind.ofStructureWord word).isCallable = false ∧ Kind.ofStructureWord word ≠ .routine := by
  unfold Kind.ofStructureWord
  repeat' split
  all_goals exact ⟨rfl, by decide⟩

namespace State

variable {state : State} {tokens : Tokens} {index : Nat} {token : Token} {front : Scopes}

/-- The scope that a node opens. -/
def scopeOf (state : State) (node : NodeId) (finishesAt : Option Nat) : Scope :=
  ⟨node, finishesAt, (state.arena.node? node).elim .ordinaryStructure Node.scopeKind⟩

@[simp] theorem openScope_scopes (state : State) (node : NodeId) (finishesAt : Option Nat) :
    (state.openScope node finishesAt).scopes = state.scopes ++ [state.scopeOf node finishesAt] :=
  rfl

@[simp] theorem openBody_scopes (state : State) (parent : Option NodeId) (info : Info)
    (finishesAt : Option Nat) :
    (state.openBody parent info finishesAt).scopes = state.scopes ++
      [(state.add parent info).1.scopeOf (state.add parent info).2 finishesAt] :=
  rfl

theorem scopeOf_inner (state : State) {node : NodeId} {kind : Kind}
    (found : state.arena.kind? node = some kind) (plain : kind.isCallable = false)
    (finishesAt : Option Nat) : state.arena.Inner (state.scopeOf node finishesAt) := by
  refine ⟨⟨kind, found, plain⟩, ?_⟩
  obtain ⟨held, here, rfl⟩ := Option.map_eq_some_iff.mp found
  have noProcedure : (held.info.kind == .procedure) = false := by
    cases same : held.info.kind <;> simp_all [Kind.isCallable]
  simp only [scopeOf, here, Option.elim_some, Node.scopeKind, noProcedure, Bool.false_and]
  repeat' split
  all_goals simp_all

/-- The open scopes are those of the front part, and on top of them some that are no bodies. -/
def Tops (state : State) (front : Scopes) : Prop :=
  ∃ later, state.scopes = front ++ later ∧ ∀ scope ∈ later, state.arena.Inner scope

theorem Tops.carry {before after : State} (tops : before.Tops front)
    (grows : before.arena.Grows after.arena) (same : after.scopes = before.scopes) :
    after.Tops front := by
  obtain ⟨later, shape, inner⟩ := tops
  exact ⟨later, same.trans shape, fun scope member => (inner scope member).mono grows⟩

theorem Tops.push {before after : State} {scope : Scope} (tops : before.Tops front)
    (grows : before.arena.Grows after.arena) (same : after.scopes = before.scopes ++ [scope])
    (inner : after.arena.Inner scope) : after.Tops front := by
  obtain ⟨later, shape, held⟩ := tops
  refine ⟨later ++ [scope], by rw [same, shape, List.append_assoc], fun other member => ?_⟩
  rcases List.mem_append.mp member with old | fresh
  · exact (held other old).mono grows
  · exact List.mem_singleton.mp fresh ▸ inner

/-- A routine closes the outermost open routine with all above it. -/
theorem Tops.atRoutine (tops : state.Tops front) (tokens : Tokens) :
    (state.atRoutine tokens).Tops
      (front.takeWhile fun scope => !state.scopeKindIs (· == .routine) scope) := by
  obtain ⟨later, shape, inner⟩ := tops
  have grows : state.arena.Grows (state.atRoutine tokens).arena := shut_grows ..
  have scopes : (state.atRoutine tokens).scopes = (front ++ later).takeWhile
      fun scope => !state.scopeKindIs (· == .routine) scope := by
    rw [State.atRoutine, shut_scopes, Scopes.splitFrom_fst, shape]
  rw [List.takeWhile_append] at scopes
  split at scopes
  · rename_i whole
    have all := (List.takeWhile_prefix
      fun scope => !state.scopeKindIs (· == .routine) scope).eq_of_length whole
    rw [all]
    exact ⟨_, scopes, fun scope member =>
      (inner scope (List.takeWhile_subset _ member)).mono grows⟩
  · exact ⟨[], by simpa using scopes, by simp⟩

/-- The scope may close at an end: it has no closing line, and its node is neither a body nor a
routine. -/
def ClosesAtEnd (state : State) (scope : Scope) : Prop :=
  scope.finishesAt = none ∧
    state.scopeKindIs (fun kind => !kind.isCallable && kind != .routine) scope

/-- An end closes the innermost executable block, else the innermost scope if that may close, and
does nothing otherwise. -/
theorem onEnd_cases (token : Token) (state : State) :
    (∃ block outer, state.openBlocks = block :: outer ∧
      state.onEnd token = { state with openBlocks := outer }) ∨
    (state.openBlocks = [] ∧ (∀ top, state.scopes.getLast? = some top → ¬state.ClosesAtEnd top) ∧
      state.onEnd token = state) ∨
    (state.openBlocks = [] ∧ ∃ top, state.scopes.getLast? = some top ∧ state.ClosesAtEnd top ∧
      state.onEnd token = { state with
        scopes := state.scopes.dropLast
        arena := state.arena.extendTo top.node ⟨token.line, token.stop⟩ }.refocus) := by
  unfold onEnd Scopes.popOpenEnded
  cases state.openBlocks with
  | cons block outer => exact .inl ⟨block, outer, rfl, rfl⟩
  | nil =>
    cases last : state.scopes.getLast? with
    | none => exact .inr (.inl ⟨rfl, by simp, rfl⟩)
    | some top =>
      by_cases closes : state.ClosesAtEnd top
      · have test : (top.finishesAt.isNone &&
            state.scopeKindIs (fun kind => !kind.isCallable && kind != .routine) top) = true := by
          simp [closes.1, closes.2]
        refine .inr (.inr ⟨rfl, top, rfl, closes, ?_⟩)
        simp only [test, ↓reduceIte]
      · have test : (top.finishesAt.isNone &&
            state.scopeKindIs (fun kind => !kind.isCallable && kind != .routine) top) = false := by
          simpa [ClosesAtEnd, Bool.and_eq_false_iff, Classical.or_iff_not_imp_left] using closes
        refine .inr (.inl ⟨rfl, ?_, ?_⟩)
        · rintro _ ⟨⟩
          exact closes
        · simp only [test, Bool.false_eq_true, ↓reduceIte]

/-- An end leaves a body open that stands on top of the front part. -/
theorem Tops.onEnd (tops : state.Tops front) (token : Token) :
    ∃ kept, kept <+: front ∧ (state.onEnd token).Tops kept ∧
      ((∀ top, front.getLast? = some top → state.scopeKindIs Kind.isCallable top) →
        kept = front) := by
  rcases onEnd_cases token state with ⟨block, outer, -, same⟩ | ⟨-, -, same⟩ |
    ⟨-, top, last, closes, same⟩
  · exact ⟨front, List.prefix_refl _, same ▸ tops.carry (.refl _) rfl, fun _ => rfl⟩
  · exact ⟨front, List.prefix_refl _, same.symm ▸ tops, fun _ => rfl⟩
  · obtain ⟨later, shape, inner⟩ := tops
    have grows := Arena.extendTo_grows state.arena top.node ⟨token.line, token.stop⟩
    have scopes : (state.onEnd token).scopes = (front ++ later).dropLast := by
      rw [same, ← shape]
      rfl
    have arena : (state.onEnd token).arena =
        state.arena.extendTo top.node ⟨token.line, token.stop⟩ := by
      rw [same]
      rfl
    rcases later.eq_nil_or_concat' with rfl | ⟨rest, innermost, rfl⟩
    · refine ⟨front.dropLast, List.dropLast_prefix _, ⟨[], by simpa using scopes, by simp⟩, ?_⟩
      intro callable
      rw [shape, List.append_nil] at last
      have both := closes.2
      have body := callable top last
      simp only [scopeKindIs, Option.any_eq_true, Bool.and_eq_true, Bool.not_eq_true'] at both body
      obtain ⟨kind, found, plain, -⟩ := both
      obtain ⟨_, again, isCallable⟩ := body
      cases again.symm.trans found
      simp [plain] at isCallable
    · refine ⟨front, List.prefix_refl _, ⟨rest, ?_, fun scope member => ?_⟩, fun _ => rfl⟩
      · rw [scopes, ← List.append_assoc, List.dropLast_concat]
      · rw [arena]
        exact (inner scope (List.mem_append_left _ member)).mono grows

/-- A structure that declares something opens a scope on top of the others. -/
theorem openStructure_opens (tokens : Tokens) (index : Nat) (token : Token) (state : State) :
    ∃ scope, (state.openStructure tokens index token).scopes = state.scopes ++ [scope] ∧
      scope.finishesAt = token.finishesAt ∧ state.arena.nodes.size ≤ scope.node ∧
      (state.openStructure tokens index token).arena.kind? scope.node =
        some (Kind.ofStructureWord token.value) ∧
      (state.openStructure tokens index token).arena.Inner scope := by
  have files := (structureMade_files tokens index token state).adds
  obtain ⟨fresh, parent, children, made⟩ := structureMade_node tokens index token state
  rw [openStructure_eq]
  dsimp only
  generalize state.structureMade tokens index token = parts at files fresh made
  have furnishes := furnish_furnishes tokens index token parts.2 parts.1
  have kind : (parts.1.furnish tokens index token parts.2).arena.kind? parts.2 =
      some (Kind.ofStructureWord token.value) :=
    furnishes.grows.kind? (by simp only [Arena.kind?, made, Option.map_some]; rfl)
  refine ⟨(parts.1.furnish tokens index token parts.2).scopeOf parts.2 token.finishesAt, ?_, rfl,
    fresh, kind, scopeOf_inner _ kind (Kind.ofStructureWord_inner _).1 _⟩
  rw [openScope_scopes, furnishes.scopes, files.scopes]

/-- A routine is filed with the routines before it closed, and may open a scope of its own. -/
theorem Tops.onRoutine (tops : state.Tops front) (tokens : Tokens) (index : Nat) (token : Token) :
    (state.onRoutine tokens index token).Tops
      (front.takeWhile fun scope => !state.scopeKindIs (· == .routine) scope) := by
  have closed := tops.atRoutine tokens
  rw [onRoutine_eq]
  dsimp only
  generalize (state.atRoutine tokens).routineParent? tokens index = parent
  generalize shown : routineInfo tokens index token (routineName tokens index token) = info
  have routine : info.kind = .routine := by
    rw [← shown]
    rfl
  have grows : (state.atRoutine tokens).arena.Grows
    ((state.atRoutine tokens).add parent info).1.arena := (add_adds ..).grows
  split
  · have kind : ((state.atRoutine tokens).add parent info).1.arena.kind?
        ((state.atRoutine tokens).add parent info).2 = some .routine := by
      rw [add_id, add_kind?, routine]
    exact closed.push grows rfl (scopeOf_inner _ kind rfl _)
  · exact closed.carry grows rfl

/-- A token that opens no body leaves the front part open, or a part of it; all of it, when no
routine is open there and a body stands on top of it. -/
theorem Tops.dispatch (tops : state.Tops front) (sound : state.Sound)
    (records : ∀ entry ∈ state.prebuilt, state.arena.kind? entry.2 = some .structureDecl)
    (found : tokens[index]? = some token)
    (noBody : token.kind = .procedure → state.procedureUse tokens index token = .prototype) :
    ∃ kept, kept <+: front ∧ (state.dispatch tokens index token).Tops kept ∧
      ((∀ scope ∈ front, state.scopeKindIs (· == .routine) scope = false) →
        (∀ top, front.getLast? = some top → state.scopeKindIs Kind.isCallable top) →
        kept = front) := by
  have grows := (sound.dispatch found).2
  have acts := sound.acts found
  generalize state.dispatch tokens index token = after at acts grows ⊢
  have whole (tops : after.Tops front) : ∃ kept, kept <+: front ∧ after.Tops kept ∧
      ((∀ scope ∈ front, state.scopeKindIs (· == .routine) scope = false) →
        (∀ top, front.getLast? = some top → state.scopeKindIs Kind.isCallable top) →
        kept = front) :=
    ⟨front, List.prefix_refl _, tops, fun _ _ => rfl⟩
  cases acts with
  | files neutral filed => exact whole (tops.carry grows filed.adds.scopes)
  | block opens silent => exact whole (tops.carry grows rfl)
  | @record node opens word loud recorded =>
    refine whole (tops.push grows rfl ?_)
    have kind := records (index, node) (mem_of_lookup recorded)
    exact scopeOf_inner { state with prebuilt := state.prebuilt.filter (·.1 != index) } kind rfl _
  | declares opens word loud fresh =>
    obtain ⟨scope, scopes, -, -, -, inner⟩ := openStructure_opens tokens index token state
    exact whole (tops.push grows scopes inner)
  | globalBody word use => simp [noBody word] at use
  | enclosedBody word use => simp [noBody word] at use
  | method word use => simp [noBody word] at use
  | routine word =>
    refine ⟨_, List.takeWhile_prefix _, tops.onRoutine tokens index token, fun none _ => ?_⟩
    rw [List.takeWhile_eq_self_iff]
    intro scope member
    simp [none scope member]
  | marker word =>
    obtain ⟨_, _, _, _, same⟩ := onMarker_frame token state
    exact whole (tops.carry grows (by rw [same]))
  | loopStop stops =>
    obtain ⟨_, same⟩ := onLoopTerminator_frame tokens index state
    exact whole (tops.carry grows (by rw [same]))
  | ends word =>
    obtain ⟨kept, part, still, all⟩ := tops.onEnd token
    exact ⟨kept, part, still, fun _ body => all body⟩

/-! ### Lines -/

/-- The token stands on another line, and that line starts a global procedure. -/
def EntersGlobal (tokens : Tokens) (state : State) (token : Token) : Prop :=
  state.currentLine ≠ some token.line ∧ Scopes.startsGlobal (tokens.onLine token.line)

/-- No open scope knows its closing line. -/
def OpenEnded (state : State) : Prop :=
  ∀ scope ∈ state.scopes, scope.finishesAt = none

theorem OpenEnded.reach_same (openEnded : state.OpenEnded)
    (stays : ¬state.EntersGlobal tokens token) :
    (state.reach tokens token).scopes = state.scopes := by
  unfold reach
  split
  · rfl
  · rename_i other
    have quiet : Scopes.startsGlobal (tokens.onLine token.line) = false := by
      simpa [EntersGlobal, show state.currentLine ≠ some token.line by simpa using other] using stays
    rw [advanceLine_scopes, Scopes.closeAtLine_openEnded openEnded, quiet]
    rfl

theorem OpenEnded.reach_global (openEnded : state.OpenEnded)
    (enters : state.EntersGlobal tokens token) :
    (state.reach tokens token).scopes =
      state.scopes.take ((state.scopes.lastIndex? Scopes.isGlobal).getD state.scopes.length) := by
  have other : (state.currentLine == some token.line) = false := by simpa using enters.1
  simp only [reach, other, Bool.false_eq_true, ↓reduceIte, advanceLine_scopes,
    Scopes.closeAtLine_openEnded openEnded, enters.2]

/-- Coming to a token leaves the front part open, unless a global procedure is open there and the
line of the token starts one. -/
theorem Tops.reach (tops : state.Tops front) (openEnded : state.OpenEnded) (tokens : Tokens)
    (token : Token) :
    ∃ kept, kept <+: front ∧ (state.reach tokens token).Tops kept ∧
      (kept = front ↔ ¬(state.EntersGlobal tokens token ∧ ∃ scope ∈ front, Scopes.isGlobal scope)) := by
  have grows := (reach_settles tokens state token).grows
  by_cases enters : state.EntersGlobal tokens token
  · obtain ⟨later, shape, inner⟩ := tops
    have noGlobal : ∀ scope ∈ later, Scopes.isGlobal scope = false := by
      intro scope member
      simpa [Scopes.isGlobal] using (inner scope member).closing
    have scopes := openEnded.reach_global enters
    rw [shape, Scopes.lastIndex?_append_of_none noGlobal] at scopes
    have present := Scopes.lastIndex?_isSome front Scopes.isGlobal
    cases last : Scopes.lastIndex? front Scopes.isGlobal with
    | none =>
      have all : (state.reach tokens token).scopes = front ++ later := by
        rw [scopes, last, Option.getD_none, List.take_length]
      refine ⟨front, List.prefix_refl _,
        ⟨later, all, fun scope member => (inner scope member).mono grows⟩, ?_⟩
      rw [last] at present
      simp [← present]
    | some position =>
      have bound := Scopes.lastIndex?_lt last
      have part : (state.reach tokens token).scopes = front.take position := by
        rw [scopes, last, Option.getD_some, List.take_append_of_le_length (Nat.le_of_lt bound)]
      refine ⟨front.take position, List.take_prefix .., ⟨[], by simpa using part, by simp⟩, ?_⟩
      have shorter : front.take position ≠ front := by
        intro same
        have length := congrArg List.length same
        rw [List.length_take, Nat.min_eq_left (Nat.le_of_lt bound)] at length
        exact Nat.ne_of_lt bound length
      rw [last] at present
      simp [shorter, enters, ← present]
  · exact ⟨front, List.prefix_refl _, tops.carry grows (openEnded.reach_same enters),
      by simp [enters]⟩

/-- A scope opened by a token has the closing line of the token. -/
theorem Sound.dispatch_finishesAt (sound : state.Sound) (found : tokens[index]? = some token)
    {scope : Scope} (member : scope ∈ (state.dispatch tokens index token).scopes) :
    scope ∈ state.scopes ∨ scope.finishesAt = token.finishesAt := by
  have acts := sound.acts found
  generalize state.dispatch tokens index token = after at acts member
  have pushed {kept : Scopes} {opened : Scope} (included : ∀ scope ∈ kept, scope ∈ state.scopes)
      (finishes : opened.finishesAt = token.finishesAt) (member : scope ∈ kept ++ [opened]) :
      scope ∈ state.scopes ∨ scope.finishesAt = token.finishesAt := by
    rcases List.mem_append.mp member with old | fresh
    · exact .inl (included scope old)
    · rw [List.mem_singleton.mp fresh]
      exact .inr finishes
  cases acts with
  | files neutral filed => exact .inl (filed.adds.scopes ▸ member)
  | block opens silent => exact .inl member
  | record opens word loud recorded => exact pushed (fun _ => id) rfl member
  | declares opens word loud fresh =>
    obtain ⟨opened, scopes, finishes, -⟩ := openStructure_opens tokens index token state
    exact pushed (fun _ => id) finishes (scopes ▸ member)
  | globalBody word use =>
    rw [openBody_scopes, atRoot_scopes] at member
    exact pushed (by simp) rfl member
  | enclosedBody word use =>
    rw [openBody_scopes] at member
    exact pushed (fun _ => id) rfl member
  | @method className methodName word use =>
    have adds := (atMethods_adds tokens index token className methodName state).scopes
    rw [shut_scopes] at adds
    simp only [openMethod_eq, openBody_scopes, adds] at member
    exact pushed (splitFrom_kept state.scopes _) rfl member
  | routine word =>
    rw [onRoutine_eq] at member
    dsimp only at member
    have kept : ∀ scope ∈ (state.atRoutine tokens).scopes, scope ∈ state.scopes := by
      rw [State.atRoutine, shut_scopes]
      exact splitFrom_kept state.scopes _
    split at member
    · exact pushed kept rfl member
    · exact .inl (kept scope member)
  | marker word =>
    obtain ⟨_, _, _, _, same⟩ := onMarker_frame token state
    rw [same] at member
    exact .inl member
  | loopStop stops =>
    obtain ⟨_, same⟩ := onLoopTerminator_frame tokens index state
    rw [same] at member
    exact .inl member
  | ends word =>
    rcases onEnd_cases token state with ⟨_, _, _, same⟩ | ⟨_, _, same⟩ | ⟨_, _, _, _, same⟩
    · rw [same] at member
      exact .inl member
    · rw [same] at member
      exact .inl member
    · rw [same] at member
      exact .inl (List.dropLast_subset _ member)

/-- When no token knows its closing line, no scope ever does. -/
theorem openEnded_after (openEnded : ∀ token ∈ tokens, token.finishesAt = none) (count : Nat) :
    (after tokens count).OpenEnded := by
  induction count with
  | zero => simp [OpenEnded]
  | succ count ih =>
    rw [State.after_succ]
    cases found : tokens[count]? with
    | none =>
      rw [step_none found]
      exact ih
    | some token =>
      have kept := (reach_settles tokens (after tokens count) token).scopes
      have reached : ((after tokens count).reach tokens token).OpenEnded :=
        fun scope member => ih scope (kept scope member)
      rw [step_eq found]
      split
      · exact reached
      · intro scope member
        have sound := (sound_after tokens count).reach tokens token
        rcases sound.dispatch_finishesAt found member with old | fresh
        · exact reached scope old
        · exact fresh.trans (openEnded token (List.mem_of_getElem? found))

end State
end Clarion.Outline
