import Clarion.Proofs.Handles
import Clarion.Proofs.MethodOwners
import Mathlib.Data.List.Perm.Subperm

/-! The discipline of the scope stack. Between any two tokens at most one method implementation and
at most one routine are open, and no node is open twice. A token closes scopes from the top and
opens at most one: a method only above scopes that are no methods, a routine only above scopes that
are no routines, and always with a node that is new or that was made ahead and is not open yet. -/
namespace Clarion.Outline.State

variable {state before after : State} {tokens : Tokens} {index : Nat} {token : Token}
  {kept : Scopes} {scope : Scope} {node : NodeId} {held : Node}

/-! ### What opens on top of what -/

theorem scopeKindIs_routine : state.scopeKindIs (· == .routine) scope ↔
    state.arena.kind? scope.node = some .routine := by
  simp only [scopeKindIs]
  cases state.arena.kind? scope.node <;> simp

/-- The scope is the only method and the only routine among those it opens on top of. -/
structure Alone (arena : Arena) (kept : Scopes) (scope : Scope) : Prop where
  method : scope.kind = .methodImplementation →
    ∀ other ∈ kept, other.kind ≠ .methodImplementation
  routine : arena.kind? scope.node = some .routine →
    ∀ other ∈ kept, arena.kind? other.node ≠ some .routine

/-- How a token changes the open scopes and the records made ahead: scopes close from the top, a
record that waits opens, or a scope opens with a new node while records may be made ahead. -/
inductive Restacks (before after : State) : Prop where
  | closes (kept : after.scopes <+: before.scopes) (waiting : after.prebuilt = before.prebuilt) :
    Restacks before after
  | record {index : Nat} {scope : Scope}
    (recorded : before.prebuilt.lookup index = some scope.node)
    (scopes : after.scopes = before.scopes ++ [scope])
    (waiting : after.prebuilt = before.prebuilt.filter (·.1 != index))
    (alone : Alone after.arena before.scopes scope) : Restacks before after
  | opens {kept : Scopes} {scope : Scope} {made : List (Nat × NodeId)}
    (isPrefix : kept <+: before.scopes) (scopes : after.scopes = kept ++ [scope])
    (own : before.arena.nodes.size ≤ scope.node) (alone : Alone after.arena kept scope)
    (waiting : after.prebuilt = made ++ before.prebuilt) (distinct : (made.map Prod.snd).Nodup)
    (newer : ∀ entry ∈ made, scope.node < entry.2) : Restacks before after

theorem Restacks.same (scopes : after.scopes = before.scopes)
    (waiting : after.prebuilt = before.prebuilt) : before.Restacks after :=
  .closes (scopes ▸ List.prefix_refl _) waiting

/-- A scope opens with a new node, and no record is made ahead. -/
theorem Restacks.pushes (isPrefix : kept <+: before.scopes)
    (scopes : after.scopes = kept ++ [scope]) (own : before.arena.nodes.size ≤ scope.node)
    (alone : Alone after.arena kept scope) (waiting : after.prebuilt = before.prebuilt) : before.Restacks after :=
  .opens isPrefix scopes own alone (waiting.trans (List.nil_append _).symm) .nil (by simp)

/-- The scope of a node that is no method implementation is none either. -/
theorem scopeOf_plain (state : State) (found : state.arena.node? node = some held)
    (plain : held.info.traits.isMethodImplementation = false) (finishesAt : Option Nat) :
    (state.scopeOf node finishesAt).kind ≠ .methodImplementation := by
  simp only [scopeOf, found, Option.elim_some, Node.scopeKind, plain]
  repeat' split
  all_goals simp_all

/-- The scope of a node that is neither a method nor a routine may open anywhere. -/
theorem alone_of_plain (state : State) (found : state.arena.node? node = some held)
    (plain : held.info.traits.isMethodImplementation = false)
    (noRoutine : held.info.kind ≠ .routine) (finishesAt : Option Nat) (kept : Scopes) :
    Alone state.arena kept (state.scopeOf node finishesAt) where
  method isMethod := absurd isMethod (scopeOf_plain state found plain finishesAt)
  routine isRoutine := by
    have kind : state.arena.kind? node = some held.info.kind := by simp [Arena.kind?, found]
    exact absurd (Option.some.inj (kind.symm.trans isRoutine)) noRoutine

/-- Every method implementation is shown as a method. -/
theorem implementation_kind {count : Nat} (order : count ≤ tokens.length)
    (found : (State.after tokens count).arena.node? node = some held)
    (implements : held.info.traits.isMethodImplementation) : held.info.kind = .method := by
  obtain ⟨later, foundLater, keeps⟩ := (grows_finished tokens order).kept found
  obtain ⟨_, _, _, _, _, opened⟩ :=
    implementation_origin foundLater (keeps.traits ▸ implements)
  rw [← keeps.kind]
  exact (opened.last_links foundLater).2.2

/-- A record made ahead is a structure and no method. -/
theorem Dispatches.record_plain (here : Dispatches tokens index token state) {entry : Nat × NodeId}
    (member : entry ∈ state.prebuilt) : ∃ node, state.arena.node? entry.2 = some node ∧
      node.info.kind = .structureDecl ∧ node.info.traits.isMethodImplementation = false := by
  have bound := (List.getElem?_eq_some_iff.mp here.found).1
  have settles := reach_settles tokens (State.after tokens index) token
  rw [here.reached] at member ⊢
  rw [settles.prebuilt] at member
  obtain ⟨old, found, kind⟩ := Option.map_eq_some_iff.mp (prebuilt_after tokens index member).1
  obtain ⟨node, foundNode, keeps⟩ := settles.grows.kept found
  refine ⟨node, foundNode, keeps.kind.trans kind, ?_⟩
  rw [keeps.traits, Bool.eq_false_iff]
  intro implements
  rw [implementation_kind (Nat.le_of_lt bound) found implements] at kind
  cases kind

/-- A structure that declares something opens anywhere. -/
theorem openStructure_restacks (tokens : Tokens) (index : Nat) (token : Token) (state : State) :
    state.Restacks (state.openStructure tokens index token) := by
  have files := (structureMade_files tokens index token state).adds
  obtain ⟨own, parent, children, made⟩ := structureMade_node tokens index token state
  obtain ⟨records, waiting, distinct, newer⟩ := openStructure_records tokens index token state
  have furnishes := furnish_furnishes tokens index token (state.structureMade tokens index token).2
    (state.structureMade tokens index token).1
  obtain ⟨node, found, keeps⟩ := furnishes.grows.kept made
  have scopes := openScope_scopes
    ((state.structureMade tokens index token).1.furnish tokens index token
      (state.structureMade tokens index token).2)
    (state.structureMade tokens index token).2 token.finishesAt
  rw [furnishes.scopes, files.scopes, ← openStructure_eq] at scopes
  refine .opens (List.prefix_refl _) scopes own ?_ waiting distinct newer
  refine alone_of_plain _ found ?_ ?_ token.finishesAt _
  · rw [keeps.traits]
    rfl
  · rw [keeps.kind]
    exact (Kind.ofStructureWord_inner _).2

/-- A body that is no method implementation opens anywhere. -/
theorem openBody_restacks (isPrefix : state.scopes <+: before.scopes)
    (size : before.arena.nodes.size ≤ state.arena.nodes.size)
    (waiting : state.prebuilt = before.prebuilt) (parent : Option NodeId) (finishesAt : Option Nat)
    (name : String) (isGlobal : Bool) :
    before.Restacks
      (state.openBody parent (procedureInfo tokens index token name isGlobal) finishesAt) := by
  obtain ⟨children, made⟩ := Arena.push_made state.arena parent
    (procedureInfo tokens index token name isGlobal) none
  have scopes := openBody_scopes state parent (procedureInfo tokens index token name isGlobal)
    finishesAt
  rw [add_id] at scopes
  exact .pushes isPrefix scopes size (alone_of_plain (state.add parent _).1 made rfl nofun _ _)
    waiting

/-- A method opens when every other method has closed. -/
theorem openMethod_restacks (tokens : Tokens) (index : Nat) (token : Token)
    (className methodName : String) (state : State) :
    state.Restacks (state.openMethod tokens index token className methodName) := by
  have adds := atMethods_adds tokens index token className methodName state
  have scopes := adds.scopes
  have waiting := adds.prebuilt
  have size := (atMethods_grows tokens index token className methodName state).size
  rw [shut_scopes] at scopes
  rw [shut_prebuilt] at waiting
  rw [openMethod_eq]
  dsimp only
  generalize state.atMethods tokens index token className methodName = ready at scopes waiting size
  have kind := add_kind? ready.1 (some ready.2.1)
    (methodInfo tokens index token className methodName ready.2.2)
  have opened := openBody_scopes ready.1 (some ready.2.1)
    (methodInfo tokens index token className methodName ready.2.2) token.finishesAt
  rw [scopes, add_id] at opened
  refine .pushes (Scopes.splitFrom_initial state.scopes _) opened size ⟨?_, ?_⟩ waiting
  · intro _ other member isMethod
    have none := Scopes.splitFrom_none _ _ other member
    simp [isMethod] at none
  · intro isRoutine
    cases kind.symm.trans isRoutine

/-- A routine opens when every other routine has closed. -/
theorem Sound.onRoutine_restacks (sound : state.Sound) (tokens : Tokens) (index : Nat)
    (token : Token) : state.Restacks (state.onRoutine tokens index token) := by
  have scopes : (state.atRoutine tokens).scopes =
      (state.scopes.splitFrom (state.scopeKindIs (· == .routine))).1 := shut_scopes ..
  have waiting : (state.atRoutine tokens).prebuilt = state.prebuilt := shut_prebuilt ..
  have isPrefix := Scopes.splitFrom_initial state.scopes (state.scopeKindIs (· == .routine))
  rw [← scopes] at isPrefix
  have closed : state.arena.Grows (state.atRoutine tokens).arena := shut_grows ..
  rw [onRoutine_eq]
  dsimp only
  generalize (state.atRoutine tokens).routineParent? tokens index = parent
  obtain ⟨children, made⟩ := Arena.push_made (state.atRoutine tokens).arena parent
    (routineInfo tokens index token (routineName tokens index token)) none
  have grows : state.arena.Grows ((state.atRoutine tokens).add parent
      (routineInfo tokens index token (routineName tokens index token))).1.arena :=
    closed.trans (add_adds ..).grows
  split
  · refine .pushes isPrefix (openScope_scopes ..) (Nat.le_trans closed.size (add_id ..).ge) ⟨?_, ?_⟩
      waiting
    · intro isMethod
      rw [add_id] at isMethod
      exact absurd isMethod (scopeOf_plain _ made rfl token.finishesAt)
    · intro _ other member isRoutine
      have none := Scopes.splitFrom_none _ _ other (scopes ▸ member)
      have kind := grows.kind?_eq (sound.scopes other (isPrefix.subset member))
      rw [scopeKindIs_routine.mpr (kind.symm.trans isRoutine)] at none
      cases none
  · exact .closes isPrefix waiting

/-- Every token restacks the scopes in this way. -/
theorem Dispatches.restacks (here : Dispatches tokens index token state) :
    state.Restacks (state.dispatch tokens index token) := by
  have acts := here.sound.acts here.found
  generalize state.dispatch tokens index token = after at acts
  cases acts with
  | files neutral filed => exact .same filed.adds.scopes filed.adds.prebuilt
  | block opens silent => exact .same rfl rfl
  | record opens word loud recorded =>
    obtain ⟨node, found, kind, plain⟩ := here.record_plain (mem_of_lookup recorded)
    refine .record recorded (openScope_scopes ..) rfl ?_
    exact alone_of_plain { state with prebuilt := _ } found plain (by simp [kind]) _ _
  | declares opens word loud fresh => exact openStructure_restacks ..
  | globalBody word use =>
    refine openBody_restacks ?_ (atRoot_size ..).ge (atRoot_prebuilt ..) ..
    rw [atRoot_scopes]
    exact List.nil_prefix
  | enclosedBody word use => exact openBody_restacks (List.prefix_refl _) (Nat.le_refl _) rfl ..
  | method word use => exact openMethod_restacks ..
  | routine word => exact here.sound.onRoutine_restacks ..
  | marker word =>
    obtain ⟨_, _, _, _, same⟩ := onMarker_frame token state
    exact .same (by rw [same]) (by rw [same])
  | loopStop stops =>
    obtain ⟨_, same⟩ := onLoopTerminator_frame tokens index state
    exact .same (by rw [same]) (by rw [same])
  | ends word =>
    rcases onEnd_cases token state with ⟨_, _, _, same⟩ | ⟨_, _, same⟩ | ⟨_, _, _, _, same⟩
    · exact .same (by rw [same]) (by rw [same])
    · exact .same (by rw [same]) (by rw [same])
    · exact .closes (by rw [same]; exact List.dropLast_prefix _) (by rw [same]; rfl)

theorem reach_restacks (tokens : Tokens) (state : State) (token : Token) :
    state.Restacks (state.reach tokens token) := by
  refine .closes ?_ (reach_settles ..).prebuilt
  unfold reach
  split
  · exact List.prefix_refl _
  · rw [advanceLine_scopes, Scopes.closeAtLine, List.splitAt_eq]
    exact List.take_prefix ..

/-! ### At most one -/

/-- One scope on top of others leaves at most one of a sort, if it is the only one of that sort. -/
theorem countP_concat_le {holds : Scope → Bool} (few : kept.countP holds ≤ 1)
    (alone : holds scope → ∀ other ∈ kept, ¬holds other) :
    (kept ++ [scope]).countP holds ≤ 1 := by
  rw [List.countP_append, List.countP_singleton]
  split
  · rename_i here
    rw [List.countP_eq_zero.mpr (alone here)]
  · exact few

/-- A property of at most one open scope stays so. -/
theorem Restacks.countP_le {holds : Scope → Bool} (restacks : before.Restacks after)
    (few : before.scopes.countP holds ≤ 1)
    (alone : ∀ kept scope, Alone after.arena kept scope → kept <+: before.scopes → holds scope →
      ∀ other ∈ kept, ¬holds other) :
    after.scopes.countP holds ≤ 1 := by
  cases restacks with
  | closes isPrefix waiting => exact Nat.le_trans isPrefix.sublist.countP_le few
  | record recorded scopes waiting only =>
    rw [scopes]
    exact countP_concat_le few (alone _ _ only (List.prefix_refl _))
  | opens isPrefix scopes own only =>
    rw [scopes]
    exact countP_concat_le (Nat.le_trans isPrefix.sublist.countP_le few) (alone _ _ only isPrefix)

/-! ### No node twice -/

/-- The nodes of the open scopes and of the records made ahead. -/
def remembered (state : State) : List NodeId :=
  state.scopes.map Scope.node ++ state.prebuilt.map Prod.snd

theorem Grounded.remembered_holds (grounded : state.Grounded) :
    ∀ id ∈ state.remembered, state.arena.Holds id := by
  intro id member
  rcases List.mem_append.mp member with member | member
  · obtain ⟨scope, isOpen, rfl⟩ := List.mem_map.mp member
    exact grounded.scopes scope isOpen
  · obtain ⟨entry, waits, rfl⟩ := List.mem_map.mp member
    exact grounded.prebuilt entry waits

/-- A record that waits for its turn is one of those made ahead; the others go on waiting. -/
theorem waiting_subperm {waiting : List (Nat × NodeId)}
    (recorded : waiting.lookup index = some node) :
    (node :: (waiting.filter (·.1 != index)).map Prod.snd).Subperm (waiting.map Prod.snd) := by
  have listed : node ∈ (waiting.filter fun entry => !(entry.1 != index)).map Prod.snd :=
    List.mem_map.mpr ⟨(index, node), by simp [mem_of_lookup recorded], rfl⟩
  have parts := (List.filter_append_perm (·.1 != index) waiting).map Prod.snd
  rw [List.map_append] at parts
  have joined := (List.singleton_sublist.mpr listed).append_right
    ((waiting.filter (·.1 != index)).map Prod.snd)
  exact joined.subperm.trans (List.perm_append_comm.trans parts).subperm

/-- What is remembered afterwards was remembered before, or is one of several new nodes. -/
theorem Restacks.recalls (restacks : before.Restacks after) : ∃ fresh : List NodeId,
    fresh.Nodup ∧ (∀ id ∈ fresh, before.arena.nodes.size ≤ id) ∧
      after.remembered.Subperm (fresh ++ before.remembered) := by
  cases restacks with
  | closes isPrefix waiting =>
    refine ⟨[], .nil, by simp, ?_⟩
    rw [remembered, waiting]
    exact ((isPrefix.sublist.map _).append_right _).subperm
  | record recorded scopes waiting alone =>
    refine ⟨[], .nil, by simp, ?_⟩
    rw [remembered, scopes, waiting, List.map_append, List.map_singleton, List.append_assoc]
    exact (List.subperm_append_left _).mpr (waiting_subperm recorded)
  | @opens kept scope made isPrefix scopes own alone waiting distinct newer =>
    have newerNodes : ∀ id ∈ made.map Prod.snd, scope.node < id := by
      intro id member
      obtain ⟨entry, listed, rfl⟩ := List.mem_map.mp member
      exact newer entry listed
    refine ⟨scope.node :: made.map Prod.snd, ?_, ?_, ?_⟩
    · exact List.nodup_cons.mpr ⟨fun member => Nat.lt_irrefl _ (newerNodes _ member), distinct⟩
    · intro id member
      rcases List.mem_cons.mp member with rfl | member
      · exact own
      · exact Nat.le_trans own (Nat.le_of_lt (newerNodes id member))
    · have part := (isPrefix.sublist.map Scope.node).append_right (before.prebuilt.map Prod.snd)
      have whole := (part.append_left (scope.node :: made.map Prod.snd)).subperm
      -- The new node stands between the kept ones and those made ahead: it is moved to the front.
      have moved := (List.perm_append_comm_assoc (kept.map Scope.node) (made.map Prod.snd)
        (before.prebuilt.map Prod.snd)).cons scope.node
      refine List.Subperm.trans (List.Perm.subperm ?_) whole
      rw [remembered, scopes, waiting, List.map_append, List.map_append, List.map_singleton]
      exact (List.perm_append_comm.append_right _).trans moved

theorem Restacks.nodup (restacks : before.Restacks after) (grounded : before.Grounded)
    (distinct : before.remembered.Nodup) : after.remembered.Nodup := by
  obtain ⟨fresh, different, new, part, perm, sublist⟩ := restacks.recalls
  have whole : (fresh ++ before.remembered).Nodup := by
    refine List.nodup_append.mpr ⟨different, distinct, ?_⟩
    rintro id member _ old rfl
    exact Nat.not_lt_of_le (new id member) (grounded.remembered_holds id old)
  exact perm.nodup_iff.mp (whole.sublist sublist)

/-! ### The discipline -/

/-- At most one method implementation and at most one routine are open, and no node is both open and
made ahead, or either of them twice. -/
structure Disciplined (state : State) : Prop where
  methods : state.scopes.countP (·.kind == .methodImplementation) ≤ 1
  routines : state.scopes.countP (state.scopeKindIs (· == .routine)) ≤ 1
  nodes : state.remembered.Nodup

theorem Disciplined.restack (disciplined : before.Disciplined) (grounded : before.Grounded)
    (grows : before.arena.Grows after.arena) (restacks : before.Restacks after) :
    after.Disciplined where
  methods := by
    refine restacks.countP_le disciplined.methods fun kept scope alone _ isMethod other member => ?_
    simpa using alone.method (by simpa using isMethod) other member
  routines := by
    -- Kinds of nodes do not change, so the open routines may be counted in the later arena.
    have same : before.scopes.countP (after.scopeKindIs (· == .routine)) =
        before.scopes.countP (before.scopeKindIs (· == .routine)) :=
      List.countP_congr fun scope member => by
        rw [scopeKindIs_grows grows (grounded.scopes scope member)]
    refine restacks.countP_le (same ▸ disciplined.routines)
      fun kept scope alone _ isRoutine other member => ?_
    rw [scopeKindIs_routine] at isRoutine ⊢
    exact alone.routine isRoutine other member
  nodes := restacks.nodup grounded disciplined.nodes

theorem disciplined_after (tokens : Tokens) (count : Nat) :
    (State.after tokens count).Disciplined := by
  induction count with
  | zero => exact ⟨Nat.zero_le _, Nat.zero_le _, .nil⟩
  | succ count ih =>
    have reached (token : Token) : ((State.after tokens count).reach tokens token).Disciplined :=
      ih.restack (sound_after ..).toGrounded (reach_settles ..).grows (reach_restacks ..)
    rcases after_succ_cases tokens count with same | ⟨token, same⟩ | ⟨token, state, here, same⟩
    · exact same ▸ ih
    · exact same ▸ reached token
    · rw [same]
      exact (here.reached ▸ reached token).restack here.sound.toGrounded
        (here.sound.dispatch here.found).2 here.restacks

/-- Between any two tokens the scope stack holds at most one method implementation, at most one
scope whose node is a routine, and no node twice. -/
theorem scope_stack_is_disciplined (tokens : Tokens) (count : Nat) :
    let state := State.after tokens count
    (state.scopes.filter (·.kind == .methodImplementation)).length ≤ 1 ∧
      (state.scopes.filter fun scope => state.arena.kind? scope.node == some .routine).length ≤ 1 ∧
      (state.scopes.map Scope.node).Nodup := by
  obtain ⟨methods, routines, nodes⟩ := disciplined_after tokens count
  refine ⟨?_, ?_, (List.nodup_append.mp nodes).1⟩
  · rwa [← List.countP_eq_length_filter]
  · rw [← List.countP_eq_length_filter]
    refine Nat.le_trans (Nat.le_of_eq (List.countP_congr fun scope _ => ?_)) routines
    rw [scopeKindIs_routine, beq_iff_eq]

end Clarion.Outline.State
