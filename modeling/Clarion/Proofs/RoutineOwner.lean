import Clarion.Proofs.ScopeStack

/-! The body that a routine is filed under. A routine first closes the outermost open routine with
everything above it; so it finds the body before it still open only when that body did not open on
top of a routine. -/
namespace Clarion.Outline.State

variable {state : State} {tokens : Tokens} {index : Nat} {token : Token}

/-! ### The scope of a body -/

/-- The token at the index opens the body of a procedure or method. -/
def OpensBody (tokens : Tokens) (index : Nat) : Prop :=
  ∃ token state, Dispatches tokens index token state ∧ token.kind = .procedure ∧
    state.procedureUse tokens index token ≠ .prototype

/-- The node that opens a body is created last, and its scope stands on top. -/
theorem openBody_made (state : State) (parent : Option NodeId) (info : Info)
    (finishesAt : Option Nat) :
    (state.openBody parent info finishesAt).arena.nodes.size = state.arena.nodes.size + 1 ∧
    (state.openBody parent info finishesAt).arena.kind? state.arena.nodes.size = some info.kind ∧
    ∃ scope, (state.openBody parent info finishesAt).scopes = state.scopes ++ [scope] ∧
      scope.node = state.arena.nodes.size :=
  ⟨Arena.add_size .., add_kind? state parent info, _, rfl, add_id ..⟩

theorem methodOwner_plain {className methodName : String} {id : NodeId} {kind : Kind}
    (fresh : ¬state.arena.Holds id)
    (found : (state.methodOwner tokens index token className methodName).1.arena.kind? id =
      some kind) : kind = .classDecl := by
  unfold methodOwner at found
  split at found
  · exact absurd (Arena.holds_of_kind? found) fresh
  · dsimp only at found
    split at found
    · exact absurd (Arena.holds_of_kind? found) fresh
    · obtain ⟨node, here, rfl⟩ := Option.map_eq_some_iff.mp found
      rcases Arena.WellFormed.push_cases ready_none here with ⟨-, rfl⟩ | ⟨old, foundOld, -⟩
      · rfl
      · exact absurd (Arena.holds_of_node? foundOld) fresh

/-- The nodes made on the way to a method are those of a class and of a group. -/
theorem Sound.atMethods_plain (sound : state.Sound) {className methodName : String} {id : NodeId}
    {kind : Kind} (fresh : ¬state.arena.Holds id)
    (found : (state.atMethods tokens index token className methodName).1.arena.kind? id =
      some kind) : kind.isCallable = false := by
  have closed : (state.shut tokens state.scopes.splitMethods).Sound :=
    sound.toGrounded.shut tokens (splitFrom_kept state.scopes _)
  have size : (state.shut tokens state.scopes.splitMethods).arena.nodes.size =
    state.arena.nodes.size := close_size ..
  have missing : ¬(state.shut tokens state.scopes.splitMethods).arena.Holds id :=
    fun held => fresh (Nat.lt_of_lt_of_eq held size)
  obtain ⟨-, held⟩ := closed.methodOwner tokens index token className methodName
  rcases Arena.ensureGroup_kind? held found with owned | rfl
  · rw [methodOwner_plain missing owned]
    rfl
  · rfl

/-- The token at the index opens a body: its scope stands on top of scopes that were open before,
and its node is the only one made there that is a procedure or method. -/
structure Opened (tokens : Tokens) (index : Nat) (base : Scopes) (scope : Scope) : Prop where
  scopes : (after tokens (index + 1)).scopes = base ++ [scope]
  older : ∀ other ∈ base, (after tokens index).arena.Holds other.node
  born : BornAt tokens index scope.node
  callable : (after tokens (index + 1)).scopeKindIs Kind.isCallable scope
  only : ∀ {id kind}, BornAt tokens index id →
    (after tokens (index + 1)).arena.kind? id = some kind → kind.isCallable → id = scope.node

theorem Opened.holds {base : Scopes} {scope : Scope} (opened : Opened tokens index base scope) :
    ∀ other ∈ base ++ [scope], (after tokens (index + 1)).arena.Holds other.node := by
  rw [← opened.scopes]
  exact (sound_after tokens (index + 1)).scopes

/-- Before the node of the body, nothing is made that is a procedure or method. -/
private theorem opened_of_openBody (ready : State) (parent : Option NodeId) (info : Info)
    (finishesAt : Option Nat) (callable : info.kind.isCallable)
    (grows : (after tokens index).arena.nodes.size ≤ ready.arena.nodes.size)
    (scopes : ∀ other ∈ ready.scopes, (after tokens index).arena.Holds other.node)
    (plain : ∀ id kind, ¬(after tokens index).arena.Holds id →
      ready.arena.kind? id = some kind → kind.isCallable = false)
    (arena : (after tokens (index + 1)).arena = (ready.openBody parent info finishesAt).arena)
    (same : (after tokens (index + 1)).scopes = (ready.openBody parent info finishesAt).scopes) :
    ∃ base scope, Opened tokens index base scope := by
  obtain ⟨larger, kind, scope, pushed, node⟩ := openBody_made ready parent info finishesAt
  refine ⟨ready.scopes, scope, same.trans pushed, scopes, ?_, ?_, ?_⟩
  · rw [node, BornAt, arena, larger]
    exact ⟨grows, Nat.lt_succ_self _⟩
  · simp [scopeKindIs, arena, node, kind, callable]
  · intro id other born found isCallable
    rw [node]
    by_contra different
    rw [BornAt, arena, larger] at born
    have older : ready.arena.Holds id :=
      Nat.lt_of_le_of_ne (Nat.lt_succ_iff.mp born.2) different
    rw [arena, (openBody_grows ready parent info finishesAt).kind?_eq older] at found
    simp [plain id other (Nat.not_lt_of_le born.1) found] at isCallable

theorem OpensBody.opened (opens : OpensBody tokens index) :
    ∃ base scope, Opened tokens index base scope := by
  obtain ⟨token, state, dispatches, word, use⟩ := opens
  have settles := reach_settles tokens (after tokens index) token
  rw [← dispatches.reached] at settles
  have sound := dispatches.sound
  have later := dispatches.after_succ
  simp only [State.dispatch, word, onProcedure_eq] at later
  have held : ∀ other ∈ state.scopes, (after tokens index).arena.Holds other.node :=
    fun other member => (sound_after tokens index).scopes other (settles.scopes other member)
  have none {arena : Arena} (size : arena.nodes.size = state.arena.nodes.size) (id : NodeId)
      (kind : Kind) (fresh : ¬(after tokens index).arena.Holds id)
      (found : arena.kind? id = some kind) : kind.isCallable = false := by
    have inside := Arena.holds_of_kind? found
    rw [Arena.Holds, size, settles.size] at inside
    exact absurd inside fresh
  split at later
  · rename_i prototype
    exact absurd prototype use
  · refine opened_of_openBody (state.atRoot tokens) _ _ _ rfl ?_ (by simp) (none (atRoot_size ..))
      (congrArg State.arena later) (congrArg State.scopes later)
    rw [atRoot_size, settles.size]
  · exact opened_of_openBody state _ _ _ rfl (Nat.le_of_eq settles.size.symm) held (none rfl)
      (congrArg State.arena later) (congrArg State.scopes later)
  · rename_i className methodName _
    rw [openMethod_eq] at later
    dsimp only at later
    have adds := (atMethods_adds tokens index token className methodName state).scopes
    rw [shut_scopes] at adds
    have grows := atMethods_grows tokens index token className methodName state
    have plain (id : NodeId) (kind : Kind) (fresh : ¬(after tokens index).arena.Holds id)
        (found : (state.atMethods tokens index token className methodName).1.arena.kind? id =
          some kind) : kind.isCallable = false :=
      sound.atMethods_plain (fun inside => fresh (Nat.lt_of_lt_of_eq inside settles.size)) found
    generalize state.atMethods tokens index token className methodName = parts
      at later adds grows plain
    refine opened_of_openBody parts.1 (some parts.2.1)
      (methodInfo tokens index token className methodName parts.2.2) token.finishesAt rfl
      (Nat.le_trans settles.grows.size grows.size) ?_ plain (by rw [later]) (by rw [later])
    rw [adds]
    exact fun other member => held other (splitFrom_kept state.scopes _ other member)

/-! ### From a body to a routine -/

/-- How scopes fare that were once all the open ones: a part of them is still open, with no body on
top. It is all of them as long as it is calm, if none of them is a routine, and never once it is
not calm. -/
def Fares (whole : Scopes) (free calm : Prop) (state : State) : Prop :=
  ∃ kept, kept <+: whole ∧ state.Tops kept ∧ (free → calm → kept = whole) ∧
    (kept = whole → calm)

variable {whole : Scopes} {free calm : Prop}

/-- A part that holds everything is everything. -/
private theorem whole_of_initial {kept part : Scopes} (inner : kept <+: part) (outer : part <+: whole)
    (same : kept = whole) : part = whole :=
  outer.eq_of_length_le (same ▸ inner.length_le)

theorem Fares.reach (fares : state.Fares whole free calm) (openEnded : state.OpenEnded)
    (tokens : Tokens) (token : Token) :
    (state.reach tokens token).Fares whole free
      (calm ∧ ¬(state.EntersGlobal tokens token ∧ ∃ scope ∈ whole, Scopes.isGlobal scope)) := by
  obtain ⟨part, outer, tops, all, only⟩ := fares
  obtain ⟨kept, inner, still, exactly⟩ := tops.reach openEnded tokens token
  refine ⟨kept, inner.trans outer, still, ?_, ?_⟩
  · rintro isFree ⟨before, here⟩
    have everything := all isFree before
    rw [everything] at exactly
    exact exactly.mpr here
  · intro same
    have everything := whole_of_initial inner outer same
    rw [everything] at exactly
    exact ⟨only everything, exactly.mp same⟩

theorem Fares.dispatch (fares : state.Fares whole free calm) (sound : state.Sound)
    (records : ∀ entry ∈ state.prebuilt, state.arena.kind? entry.2 = some .structureDecl)
    (found : tokens[index]? = some token)
    (noBody : token.kind = .procedure → state.procedureUse tokens index token = .prototype)
    (noRoutine : free → ∀ scope ∈ whole, state.scopeKindIs (· == .routine) scope = false)
    (body : ∀ top, whole.getLast? = some top → state.scopeKindIs Kind.isCallable top) :
    (state.dispatch tokens index token).Fares whole free calm := by
  obtain ⟨part, outer, tops, all, only⟩ := fares
  obtain ⟨kept, inner, still, exactly⟩ := tops.dispatch sound records found noBody
  refine ⟨kept, inner.trans outer, still, ?_, ?_⟩
  · intro isFree isCalm
    have everything := all isFree isCalm
    rw [everything] at exactly
    exact exactly (noRoutine isFree) body
  · intro same
    exact only (whole_of_initial inner outer same)

/-- The token at the index stands on another line than the one before, and that line starts a
global procedure. -/
def EntersAt (tokens : Tokens) (index : Nat) : Prop :=
  ∃ token, tokens[index]? = some token ∧ (after tokens index).EntersGlobal tokens token

/-- Between two moments no line closes one of the scopes: none is a global procedure, or no line
is come to that starts one. -/
def Undisturbed (tokens : Tokens) (scopes : Scopes) (first last : Nat) : Prop :=
  (∃ scope ∈ scopes, Scopes.isGlobal scope) →
    ∀ index, first < index → index < last → ¬EntersAt tokens index

theorem undisturbed_succ {scopes : Scopes} {first last : Nat} (order : first < last) :
    Undisturbed tokens scopes first (last + 1) ↔
      Undisturbed tokens scopes first last ∧
        ¬(EntersAt tokens last ∧ ∃ scope ∈ scopes, Scopes.isGlobal scope) := by
  constructor
  · intro calm
    refine ⟨fun global index after before => calm global index after (Nat.lt_succ_of_lt before), ?_⟩
    rintro ⟨enters, global⟩
    exact calm global last order (Nat.lt_succ_self _) enters
  · rintro ⟨calm, here⟩ global index after before enters
    rcases Nat.lt_succ_iff_lt_or_eq.mp before with earlier | rfl
    · exact calm global index after earlier enters
    · exact here ⟨enters, global⟩

theorem scopeKindIs_grows {before after : State} (grows : before.arena.Grows after.arena)
    {scope : Scope} (held : before.arena.Holds scope.node) (holds : Kind → Bool) :
    after.scopeKindIs holds scope = before.scopeKindIs holds scope := by
  rw [scopeKindIs, scopeKindIs, grows.kind?_eq held]

theorem enters_iff (found : tokens[index]? = some token) :
    EntersAt tokens index ↔ (after tokens index).EntersGlobal tokens token := by
  simp [EntersAt, found]

/-- None of the scopes was a routine at that moment. -/
def RoutineFree (tokens : Tokens) (scopes : Scopes) (moment : Nat) : Prop :=
  ∀ scope ∈ scopes, (after tokens moment).scopeKindIs (· == .routine) scope = false

/-- The scopes that are open when a body has opened, up to the next body. -/
theorem Opened.fares {base : Scopes} {scope : Scope} (opened : Opened tokens index base scope)
    (openEnded : ∀ token ∈ tokens, token.finishesAt = none) {count : Nat} (order : index < count)
    (last : ∀ other, index < other → other < count → ¬OpensBody tokens other) :
    (after tokens count).Fares (base ++ [scope]) (RoutineFree tokens (base ++ [scope]) (index + 1))
      (Undisturbed tokens (base ++ [scope]) index count) := by
  induction order with
  | refl =>
    have calm : Undisturbed tokens (base ++ [scope]) index (index + 1) := by
      intro _ other after before
      omega
    exact ⟨_, List.prefix_refl _, ⟨[], by simpa using opened.scopes, by simp⟩,
      fun _ _ => rfl, fun _ => calm⟩
  | @step count earlier ih =>
    have fares := ih fun other after before => last other after (Nat.lt_succ_of_lt before)
    rw [undisturbed_succ earlier, State.after_succ tokens count]
    cases found : tokens[count]? with
    | none =>
      have quiet : ¬EntersAt tokens count := by simp [EntersAt, found]
      simpa [step_none found, quiet] using fares
    | some token =>
      have reached := fares.reach (openEnded_after openEnded count) tokens token
      rw [← enters_iff found] at reached
      have settles := reach_settles tokens (after tokens count) token
      rw [step_eq found]
      split
      · exact reached
      · rename_i fresh
        have grows := (grows_after tokens earlier).trans settles.grows
        refine reached.dispatch ((sound_after tokens count).reach tokens token) ?_ found ?_ ?_ ?_
        · intro entry member
          exact settles.grows.kind? (prebuilt_after tokens count (settles.prebuilt ▸ member)).1
        · intro word
          by_contra use
          exact last count earlier (Nat.lt_succ_self _)
            ⟨token, _, ⟨found, rfl, by simpa using fresh⟩, word, use⟩
        · intro isFree other member
          rw [scopeKindIs_grows grows (opened.holds other member)]
          exact isFree other member
        · intro top isTop
          rw [List.getLast?_concat, Option.some.injEq] at isTop
          rw [← isTop, scopeKindIs_grows grows (opened.holds scope (by simp))]
          exact opened.callable

/-- The body's scope is still open when the routines before the routine have closed: no routine was
open when the body had opened, and no line since has closed a global procedure among the scopes
open then. -/
def StaysOpen (tokens : Tokens) (body routine : Nat) : Prop :=
  RoutineFree tokens (after tokens (body + 1)).scopes (body + 1) ∧
    Undisturbed tokens (after tokens (body + 1)).scopes body (routine + 1)

/-- Of the scopes open when a body had opened, a routine finds all still open, or only such as were
open before the body. -/
theorem Opened.atRoutine {base : Scopes} {scope : Scope} (opened : Opened tokens index base scope)
    (openEnded : ∀ token ∈ tokens, token.finishesAt = none) {routine : Nat} {token : Token}
    (dispatches : Dispatches tokens routine token state) (order : index < routine)
    (last : ∀ other, index < other → other < routine → ¬OpensBody tokens other) :
    ∃ kept, kept <+: base ++ [scope] ∧ (state.atRoutine tokens).Tops kept ∧
      (kept = base ++ [scope] ↔ StaysOpen tokens index routine) := by
  have fares := (opened.fares openEnded order last).reach (openEnded_after openEnded routine)
    tokens token
  rw [← enters_iff dispatches.found, ← undisturbed_succ order, ← dispatches.reached] at fares
  obtain ⟨part, outer, tops, all, only⟩ := fares
  have kinds : ∀ other ∈ base ++ [scope], state.scopeKindIs (· == .routine) other =
      (after tokens (index + 1)).scopeKindIs (· == .routine) other := by
    intro other member
    refine scopeKindIs_grows ((grows_after tokens order).trans ?_) (opened.holds other member) _
    exact dispatches.reached ▸ (reach_settles tokens (after tokens routine) token).grows
  have inner := List.takeWhile_prefix
    (l := part) fun scope => !state.scopeKindIs (· == .routine) scope
  refine ⟨_, inner.trans outer, tops.atRoutine tokens, ?_⟩
  rw [StaysOpen, opened.scopes]
  constructor
  · intro same
    refine ⟨?_, only (whole_of_initial inner outer same)⟩
    intro other member
    have passes := List.mem_takeWhile_imp (same ▸ member)
    rw [← kinds other member]
    simpa using passes
  · rintro ⟨isFree, calm⟩
    rw [all isFree calm, List.takeWhile_eq_self_iff]
    intro other member
    rw [kinds other member, isFree other member]
    rfl

/-! ### The parent of a routine -/

/-- With no body open at all, the search by the procedure token before the routine, or else for the
last global procedure, leads to the node. -/
def FoundAgain (tokens : Tokens) (routine : Nat) (state : State) (node : NodeId) : Prop :=
  state.scopes.innermost? (state.scopeKindIs Kind.isCallable) = none ∧
    (state.methodBefore? tokens routine).or state.arena.lastGlobalProcedure? = some node

theorem Arena.Inner.notCallable {scope : Scope} (inner : state.arena.Inner scope) :
    state.scopeKindIs Kind.isCallable scope = false := by
  obtain ⟨kind, found, plain⟩ := inner.kind
  simp [scopeKindIs, found, plain]

/-- A routine goes under the body before it when that stays open, or is found again. -/
theorem Opened.routineParent {base : Scopes} {scope : Scope}
    (opened : Opened tokens index base scope)
    (openEnded : ∀ token ∈ tokens, token.finishesAt = none) {routine : Nat} {token : Token}
    (dispatches : Dispatches tokens routine token state) (order : index < routine)
    (last : ∀ other, index < other → other < routine → ¬OpensBody tokens other) :
    (state.atRoutine tokens).routineParent? tokens routine = some scope.node ↔
      StaysOpen tokens index routine ∨
        FoundAgain tokens routine (state.atRoutine tokens) scope.node := by
  obtain ⟨kept, part, ⟨later, scopes, inner⟩, exactly⟩ :=
    opened.atRoutine openEnded dispatches order last
  have grows : (after tokens (index + 1)).arena.Grows (state.atRoutine tokens).arena := by
    refine ((grows_after tokens order).trans ?_).trans (shut_grows ..)
    exact dispatches.reached ▸ (reach_settles tokens (after tokens routine) token).grows
  have plain : ∀ other ∈ later, (state.atRoutine tokens).scopeKindIs Kind.isCallable other = false :=
    fun other member => Arena.Inner.notCallable (inner other member)
  unfold routineParent? FoundAgain
  generalize state.atRoutine tokens = ready at *
  rcases List.prefix_concat_iff.mp part with whole | below
  · have stays := exactly.mp whole
    have callable : ready.scopeKindIs Kind.isCallable scope := by
      rw [scopeKindIs_grows grows (opened.holds scope (by simp))]
      exact opened.callable
    have body : ready.scopes.innermost? (ready.scopeKindIs Kind.isCallable) = some scope := by
      rw [scopes, whole, List.append_assoc, List.singleton_append]
      exact Scopes.innermost?_append_cons callable plain
    simp [body, stays]
  · have closed : ¬StaysOpen tokens index routine := by
      intro stays
      have length := below.length_le
      rw [exactly.mpr stays, List.length_append, List.length_singleton] at length
      omega
    have innermost : ready.scopes.innermost? (ready.scopeKindIs Kind.isCallable) =
        Scopes.innermost? kept (ready.scopeKindIs Kind.isCallable) := by
      rw [scopes]
      exact Scopes.innermost?_append_of_none plain
    cases found : Scopes.innermost? kept (ready.scopeKindIs Kind.isCallable) with
    | none => simp [innermost, found, closed]
    | some outer =>
      have older := opened.older outer (below.subset (Scopes.innermost?_mem found))
      have different : outer.node ≠ scope.node :=
        Nat.ne_of_lt (Nat.lt_of_lt_of_le older opened.born.1)
      simp [innermost, found, closed, different]

/-- The routine that the token at the index declares is a child of the node. -/
def FiledUnder (tokens : Tokens) (index : Nat) (node : NodeId) : Prop :=
  ∃ id made, BornAt tokens index id ∧ (finished tokens).node? id = some made ∧
    made.info.kind = .routine ∧ made.parent = some node

theorem dispatch_routine
    (word : token.kind = .routine ∨ token.kind = .keyword ∧ token.reads "ROUTINE")
    (tokens : Tokens) (index : Nat) (state : State) :
    state.dispatch tokens index token = state.onRoutine tokens index token := by
  rcases word with word | ⟨word, reads⟩
  · simp only [State.dispatch, word]
  · have noKey : token.readsOneOf ["KEY", "INDEX"] = false := readsOneOf_of_reads reads (by decide)
    simp only [Token.readsOneOf, List.any_cons, List.any_nil, Bool.or_false] at noKey
    simp [State.dispatch, word, reads, noKey]

theorem onRoutine_arena (tokens : Tokens) (index : Nat) (token : Token) (state : State) :
    (state.onRoutine tokens index token).arena =
      ((state.atRoutine tokens).add ((state.atRoutine tokens).routineParent? tokens index)
        (routineInfo tokens index token (routineName tokens index token))).1.arena := by
  rw [onRoutine_eq]
  dsimp only
  split <;> rfl

/-- A routine that is dispatched makes one node, below the parent it has found. -/
theorem Dispatches.filed_iff (dispatches : Dispatches tokens index token state)
    (word : token.kind = .routine ∨ token.kind = .keyword ∧ token.reads "ROUTINE") (node : NodeId) :
    FiledUnder tokens index node ↔
      (state.atRoutine tokens).routineParent? tokens index = some node := by
  have bound : index < tokens.length := (List.getElem?_eq_some_iff.mp dispatches.found).1
  have arena : (after tokens (index + 1)).arena = _ :=
    (congrArg State.arena (dispatches.after_succ.trans (dispatch_routine word ..))).trans
      (onRoutine_arena ..)
  have size : (state.atRoutine tokens).arena.nodes.size =
      (after tokens index).arena.nodes.size := by
    have settles := reach_settles tokens (after tokens index) token
    rw [← dispatches.reached] at settles
    exact (close_size ..).trans settles.size
  obtain ⟨children, made⟩ := Arena.push_made (state.atRoutine tokens).arena
    ((state.atRoutine tokens).routineParent? tokens index)
    (routineInfo tokens index token (routineName tokens index token)) none
  have born : ∀ id, BornAt tokens index id ↔ id = (state.atRoutine tokens).arena.nodes.size := by
    intro id
    have larger : (after tokens (index + 1)).arena.nodes.size =
        (after tokens index).arena.nodes.size + 1 := by
      rw [arena, ← size]
      exact Arena.add_size ..
    rw [BornAt, larger, size, Nat.lt_succ_iff]
    constructor
    · rintro ⟨low, high⟩
      exact Nat.le_antisymm high low
    · intro same
      exact same ▸ ⟨Nat.le_refl _, Nat.le_refl _⟩
  have grows := grows_finished tokens (Nat.succ_le_of_lt bound)
  rw [Nat.succ_eq_add_one, arena] at grows
  obtain ⟨later, foundLater, keeps⟩ := grows.kept made
  constructor
  · rintro ⟨id, held, isBorn, found, -, parent⟩
    rw [(born id).mp isBorn] at found
    cases found.symm.trans foundLater
    exact keeps.parent.symm.trans parent
  · intro parent
    exact ⟨_, later, (born _).mpr rfl, foundLater, keeps.kind, keeps.parent.trans parent⟩

/-- A token that a look ahead has dealt with makes no node. -/
theorem not_filed_of_handled (found : tokens[index]? = some token)
    (handled : index ∈ ((after tokens index).reach tokens token).handled) (node : NodeId) :
    ¬FiledUnder tokens index node := by
  rintro ⟨id, made, born, -⟩
  have same : after tokens (index + 1) = (after tokens index).reach tokens token := by
    rw [State.after_succ, step_eq found]
    simp [handled]
  rw [BornAt, same, (reach_settles tokens (after tokens index) token).size] at born
  exact Nat.not_lt_of_le born.1 born.2

/-- A routine is a child of the last body before it exactly when no look ahead passes over it, and
the scope of the body stays open up to it or the body is found again. Where a body opens on top of
an open routine, its scope does not stay open. -/
theorem routine_filed_under_body_iff {body routine : Nat} {token : Token} {node : NodeId}
    {kind : Kind} (openEnded : ∀ token ∈ tokens, token.finishesAt = none)
    (opens : OpensBody tokens body) (born : BornAt tokens body node)
    (shown : (finished tokens).kind? node = some kind) (callable : kind.isCallable)
    (found : tokens[routine]? = some token)
    (word : token.kind = .routine ∨ token.kind = .keyword ∧ token.reads "ROUTINE")
    (order : body < routine)
    (last : ∀ other, body < other → other < routine → ¬OpensBody tokens other) :
    FiledUnder tokens routine node ↔
      routine ∉ ((after tokens routine).reach tokens token).handled ∧
        (StaysOpen tokens body routine ∨ FoundAgain tokens routine
          (((after tokens routine).reach tokens token).atRoutine tokens) node) := by
  obtain ⟨base, scope, opened⟩ := opens.opened
  have bound : routine < tokens.length := (List.getElem?_eq_some_iff.mp found).1
  have early : (after tokens (body + 1)).arena.kind? node = some kind := by
    rw [← (grows_finished tokens (Nat.le_trans order (Nat.le_of_lt bound))).kind?_eq born.2]
    exact shown
  obtain rfl := opened.only born early callable
  by_cases handled : routine ∈ ((after tokens routine).reach tokens token).handled
  · simp [handled, not_filed_of_handled found handled]
  · have dispatches : Dispatches tokens routine token _ := ⟨found, rfl, handled⟩
    rw [dispatches.filed_iff word, opened.routineParent openEnded dispatches order last]
    simp [handled]

/-- A procedure with a special routine, a method after it, and a routine in the method. -/
def methodAfterRoutine : Tokens :=
  [{ kind := .label, value := "Main", line := 0, start := 0 },
    { kind := .procedure, value := "PROCEDURE", line := 0, start := 8 },
    { kind := .executionMarker, value := "CODE", line := 1, start := 2 },
    { kind := .label, value := "Main::Sub", line := 2, start := 0 },
    { kind := .routine, value := "ROUTINE", line := 2, start := 12 },
    { kind := .label, value := "Cls.Init", line := 3, start := 0 },
    { kind := .procedure, value := "PROCEDURE", line := 3, start := 12 },
    { kind := .executionMarker, value := "CODE", line := 4, start := 2 },
    { kind := .label, value := "Work", line := 5, start := 0 },
    { kind := .routine, value := "ROUTINE", line := 5, start := 8 }]

theorem OpensBody.procedure (opens : OpensBody tokens index) :
    ∃ token, tokens[index]? = some token ∧ token.kind = .procedure := by
  obtain ⟨token, _, dispatches, word, _⟩ := opens
  exact ⟨token, dispatches.found, word⟩

private theorem init_opens : OpensBody methodAfterRoutine 6 :=
  ⟨_, _, ⟨rfl, rfl, by decide +kernel⟩, rfl, by decide +kernel⟩

private theorem init_is_last :
    ∀ other, 6 < other → other < 9 → ¬OpensBody methodAfterRoutine other := by
  intro other low high opens
  obtain ⟨token, found, word⟩ := opens.procedure
  clear opens
  obtain rfl | rfl : other = 7 ∨ other = 8 := by omega
  · cases found
    cases word
  · cases found
    cases word

theorem routine_of_a_method_after_a_special_routine :
    OpensBody methodAfterRoutine 6 ∧ BornAt methodAfterRoutine 6 5 ∧
    (FiledUnder methodAfterRoutine 9 5 ↔
      9 ∉ ((after methodAfterRoutine 9).reach methodAfterRoutine
        { kind := .routine, value := "ROUTINE", line := 5, start := 8 }).handled ∧
      (StaysOpen methodAfterRoutine 6 9 ∨ FoundAgain methodAfterRoutine 9
        (((after methodAfterRoutine 9).reach methodAfterRoutine
          { kind := .routine, value := "ROUTINE", line := 5, start := 8 }).atRoutine
            methodAfterRoutine) 5)) := by
  have born : BornAt methodAfterRoutine 6 5 := ⟨by decide +kernel, by decide +kernel⟩
  have shown : (finished methodAfterRoutine).kind? 5 = some .method := by decide +kernel
  exact ⟨init_opens, born, routine_filed_under_body_iff (by decide) init_opens born shown rfl rfl
    (.inl rfl) (by decide) init_is_last⟩

/-- The method is the last body before the routine, and yet the routine goes to the procedure whose
special routine was open when the method started. -/
theorem special_routine_takes_the_routine_of_a_method :
    (∀ token ∈ methodAfterRoutine, token.finishesAt = none) ∧
    ((methodAfterRoutine.filter fun token => token.kind == .procedure || token.kind == .routine).map
      Token.line).Nodup ∧
    OpensBody methodAfterRoutine 6 ∧ BornAt methodAfterRoutine 6 5 ∧
    (finished methodAfterRoutine).kind? 5 = some .method ∧
    (∀ other, 6 < other → other < 9 → ¬OpensBody methodAfterRoutine other) ∧
    FiledUnder methodAfterRoutine 9 0 ∧ ¬FiledUnder methodAfterRoutine 9 5 := by
  have dispatches : Dispatches methodAfterRoutine 9 _ _ := ⟨rfl, rfl, by decide +kernel⟩
  refine ⟨by decide, by decide, init_opens, ⟨by decide +kernel, by decide +kernel⟩,
    by decide +kernel, init_is_last, ?_, ?_⟩
  · rw [dispatches.filed_iff (.inl rfl)]
    decide +kernel
  · rw [dispatches.filed_iff (.inl rfl)]
    decide +kernel

end Clarion.Outline.State
