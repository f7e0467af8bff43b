import Clarion.Proofs.Implementations
import Clarion.Proofs.LookAheadMarks
import Clarion.Proofs.RoutineOwner

/-! The nodes that the pass remembers from one token to the next: open scopes, the last method, the
class table and the records made ahead. A token adds to them only nodes that it makes itself, and a
token that opens a method only the method. So the root of an undeclared class and the group of its
methods are out of reach for every token but those that find them by name. -/
namespace Clarion.Outline.State

variable {state : State} {tokens : Tokens} {index : Nat} {token : Token} {id : NodeId}

/-- A node that the pass remembers. -/
inductive Handles (state : State) : NodeId → Prop where
  | scope {scope : Scope} (isOpen : scope ∈ state.scopes) : Handles state scope.node
  | lastMethod {id : NodeId} (last : state.lastMethod = some id) : Handles state id
  | definition {entry : String × NodeId} (member : entry ∈ state.classes) : Handles state entry.2
  | record {entry : Nat × NodeId} (member : entry ∈ state.prebuilt) : Handles state entry.2

theorem Handles.mono {before after : State} (handles : after.Handles id)
    (scopes : ∀ scope ∈ after.scopes, scope ∈ before.scopes)
    (lastMethod : ∀ id, after.lastMethod = some id → before.lastMethod = some id)
    (classes : after.classes = before.classes) (prebuilt : after.prebuilt = before.prebuilt) :
    before.Handles id := by
  cases handles with
  | scope isOpen => exact .scope (scopes _ isOpen)
  | lastMethod last => exact .lastMethod (lastMethod _ last)
  | definition member => exact .definition (classes ▸ member)
  | record member => exact .record (prebuilt ▸ member)

/-- Coming to another line, the pass forgets nodes and remembers no others. -/
theorem Settles.handles {before after : State} (settles : before.Settles after)
    (handles : after.Handles id) : before.Handles id :=
  handles.mono settles.scopes settles.lastMethod settles.classes settles.prebuilt

theorem Grounded.handles_holds (grounded : state.Grounded) (handles : state.Handles id) :
    state.arena.Holds id := by
  cases handles with
  | scope isOpen => exact grounded.scopes _ isOpen
  | lastMethod last => exact grounded.lastMethod _ last
  | definition member => exact grounded.classes _ member
  | record member => exact grounded.prebuilt _ member

/-! ### Structures -/

/-- The second state knows records made ahead beside those of the first, each with a new node of its
own. -/
structure MakesRecords (before after : State) : Prop where
  size : before.arena.nodes.size ≤ after.arena.nodes.size
  records : ∃ made, after.prebuilt = made ++ before.prebuilt ∧ (made.map Prod.snd).Nodup ∧
    ∀ entry ∈ made, before.arena.nodes.size ≤ entry.2 ∧ entry.2 < after.arena.nodes.size

namespace MakesRecords

variable {before middle after : State}

theorem same (grows : before.arena.Grows after.arena) (same : after.prebuilt = before.prebuilt) :
    MakesRecords before after :=
  ⟨grows.size, [], same, .nil, by simp⟩

/-- Records that are made one after the other have different nodes, since each is new. -/
theorem trans (first : MakesRecords before middle) (second : MakesRecords middle after) :
    MakesRecords before after := by
  obtain ⟨early, earlies, earlyDistinct, earlyNew⟩ := first.records
  obtain ⟨late, lates, lateDistinct, lateNew⟩ := second.records
  refine ⟨Nat.le_trans first.size second.size, late ++ early,
    by rw [lates, earlies, List.append_assoc], ?_, fun entry member => ?_⟩
  · rw [List.map_append]
    refine List.nodup_append.mpr ⟨lateDistinct, earlyDistinct, ?_⟩
    rintro _ lateMember _ earlyMember rfl
    obtain ⟨newer, listed, same⟩ := List.mem_map.mp lateMember
    obtain ⟨older, listedOlder, sameOlder⟩ := List.mem_map.mp earlyMember
    have held := (earlyNew older listedOlder).2
    rw [sameOlder, ← same] at held
    exact Nat.not_lt_of_le (lateNew newer listed).1 held
  · rcases List.mem_append.mp member with isLate | isEarly
    · obtain ⟨new, held⟩ := lateNew entry isLate
      exact ⟨Nat.le_trans first.size new, held⟩
    · obtain ⟨new, held⟩ := earlyNew entry isEarly
      exact ⟨new, Nat.lt_of_lt_of_le held second.size⟩

end MakesRecords

theorem Looks.makesRecords {opener : Token} {before after : State}
    (looks : Looks tokens opener index before after) : MakesRecords before after := by
  have grows := looks.grows
  cases looks with
  | passes hidden => exact .same grows rfl
  | closes hidden deals => exact .same grows rfl
  | record parent info shown word =>
    refine ⟨grows.size, [(index, before.arena.nodes.size)], rfl, by simp, fun entry member => ?_⟩
    rw [List.mem_singleton.mp member]
    exact ⟨Nat.le_refl _, add_id before parent info ▸ add_holds before parent info⟩
  | member parent info shown deals => exact .same grows rfl

/-- A fresh structure makes fresh records ahead. -/
theorem furnish_records (tokens : Tokens) (index : Nat) (token : Token) (state : State) :
    MakesRecords (state.structureMade tokens index token).1
      ((state.structureMade tokens index token).1.furnish tokens index token
        (state.structureMade tokens index token).2) := by
  by_cases looks : token.reads "FILE" ∨ token.reads "VIEW"
  · have walked : MakesRecords (state.lookedTo tokens index token 0).1
        (state.lookedTo tokens index token (tokens.blockEnd index)).1 :=
      lookedTo_related (fun _ => .same (.refl _) rfl) (fun _ _ _ => .trans)
        (fun _ _ _ looks => looks.makesRecords) index state (Nat.zero_le _)
    rwa [lookedTo_start tokens token state (Nat.zero_le _), ← furnish_walks looks] at walked
  · exact .same (furnish_furnishes ..).grows (furnish_marks looks ..).2

/-- A structure that declares something makes fresh records ahead. -/
theorem openStructure_records (tokens : Tokens) (index : Nat) (token : Token) (state : State) :
    ∃ made, (state.openStructure tokens index token).prebuilt = made ++ state.prebuilt ∧
      (made.map Prod.snd).Nodup ∧
      ∀ entry ∈ made, (state.structureMade tokens index token).2 < entry.2 := by
  have files := (structureMade_files tokens index token state).adds
  have held := structureMade_holds tokens index token state
  rw [openStructure_eq]
  obtain ⟨-, made, records, distinct, fresh⟩ := furnish_records tokens index token state
  refine ⟨made, records.trans (by rw [files.prebuilt]), distinct, fun entry member => ?_⟩
  exact Nat.lt_of_lt_of_le held (fresh entry member).1

theorem recordClass_classes (label : Option String) (node : NodeId) (state : State)
    {entry : String × NodeId} (member : entry ∈ (state.recordClass label node).classes) :
    entry ∈ state.classes ∨ ∃ name, label = some name ∧ entry = (Text.foldUpper name, node) := by
  cases label with
  | none => exact .inl member
  | some name =>
    rcases List.mem_cons.mp member with rfl | member
    · exact .inr ⟨name, rfl, rfl⟩
    · exact .inl member

theorem lookThroughFile_classes (tokens : Tokens) (index : Nat) (file : NodeId) (state : State) :
    (state.lookThroughFile tokens index file).classes = state.classes := by
  unfold lookThroughFile
  generalize blockIndices tokens index = indices
  induction indices generalizing state with
  | nil => rfl
  | cons inner rest ih =>
    refine (ih _).trans ?_
    rcases fileStep_cases tokens file state inner with same | ⟨_, _, _, _, _, _, _, same⟩ |
      ⟨_, _, _, _, _, _, same⟩ <;> rw [same] <;> rfl

/-- A fresh structure enters the class table under its own label only, and only when it is a class
or an interface. -/
theorem furnish_classes (tokens : Tokens) (index : Nat) (token : Token) (node : NodeId)
    (state : State) {entry : String × NodeId}
    (member : entry ∈ (state.furnish tokens index token node).classes) :
    entry ∈ state.classes ∨ (token.reads "CLASS" ∨ token.reads "INTERFACE") ∧
      ∃ name, labelOf tokens index token = some name ∧ entry = (Text.foldUpper name, node) := by
  unfold furnish at member
  dsimp only at member
  split at member
  · rename_i isClass
    rcases recordClass_classes _ node _ member with old | named
    · exact .inl old
    · exact .inr ⟨.inl isClass, named⟩
  · split at member
    · rename_i isInterface
      rcases recordClass_classes _ node _ member with old | named
      · exact .inl old
      · exact .inr ⟨.inr isInterface, named⟩
    · split at member
      · exact .inl member
      · split at member
        · rw [lookThroughFile_classes] at member
          exact .inl member
        · split at member
          · rw [(lookThroughView_tables ..).1] at member
            exact .inl member
          · exact .inl member

/-- The entry of a class table points to a class or an interface, under the label it has in capital
letters. -/
def Defines (arena : Arena) (entry : String × NodeId) : Prop :=
  ∃ node name, arena.node? entry.2 = some node ∧ node.info.traits.label = some name ∧
    Text.foldUpper name = entry.1 ∧
    (node.info.kind = .classDecl ∨ node.info.kind = .interfaceDecl)

theorem Defines.mono {before after : Arena} {entry : String × NodeId}
    (defines : Defines before entry) (grows : before.Grows after) : Defines after entry := by
  obtain ⟨node, name, found, label, key, kind⟩ := defines
  obtain ⟨later, foundLater, keeps⟩ := grows.kept found
  exact ⟨later, name, foundLater, keeps.traits ▸ label, key, keeps.kind ▸ kind⟩

theorem kind_of_definition (reads : token.reads "CLASS" ∨ token.reads "INTERFACE") :
    Kind.ofStructureWord token.value = .classDecl ∨
      Kind.ofStructureWord token.value = .interfaceDecl := by
  unfold Kind.ofStructureWord
  split
  · exact .inl rfl
  · rename_i noClass
    have isInterface : Text.isOneOfFold token.value ["INTERFACE"] := by
      simp_all [Text.isOneOfFold, Token.reads]
    exact .inr (if_pos isInterface)

/-- A structure token enters the class table with its own node. -/
theorem openStructure_classes (tokens : Tokens) (index : Nat) (token : Token) (state : State)
    {entry : String × NodeId}
    (member : entry ∈ (state.openStructure tokens index token).classes) :
    entry ∈ state.classes ∨ state.arena.nodes.size ≤ entry.2 ∧
      Defines (state.openStructure tokens index token).arena entry := by
  have files := (structureMade_files tokens index token state).adds
  obtain ⟨fresh, parent, children, made⟩ := structureMade_node tokens index token state
  have grows := (furnish_furnishes tokens index token (state.structureMade tokens index token).2
    (state.structureMade tokens index token).1).grows
  rw [openStructure_eq] at member ⊢
  rcases furnish_classes _ _ _ _ _ member with old | ⟨reads, name, label, rfl⟩
  · exact .inl (files.classes ▸ old)
  · have here : Defines (state.structureMade tokens index token).1.arena
        (Text.foldUpper name, (state.structureMade tokens index token).2) :=
      ⟨_, name, made, label, rfl, kind_of_definition reads⟩
    exact .inr ⟨fresh, here.mono grows⟩

/-! ### Every token -/

/-- A node that the token makes; for a procedure, its last one. -/
def IsNew (token : Token) (before after : State) (id : NodeId) : Prop :=
  before.arena.nodes.size ≤ id ∧ (token.kind = .procedure → id + 1 = after.arena.nodes.size)

/-- A body remembers its own node beside what was remembered in the state it opens in. -/
theorem Handles.body {ready after : State} {scope : Scope} (handles : after.Handles id)
    (fresh : state.arena.nodes.size ≤ ready.arena.nodes.size)
    (earlier : ready.Handles id → state.Handles id)
    (scopes : after.scopes = ready.scopes ++ [scope]) (node : scope.node = ready.arena.nodes.size)
    (lastMethod : ∀ id, after.lastMethod = some id →
      ready.lastMethod = some id ∨ id = ready.arena.nodes.size)
    (classes : after.classes = ready.classes) (prebuilt : after.prebuilt = ready.prebuilt)
    (size : after.arena.nodes.size = ready.arena.nodes.size + 1) :
    state.Handles id ∨ IsNew token state after id := by
  have new : IsNew token state after ready.arena.nodes.size := ⟨fresh, fun _ => size.symm⟩
  cases handles with
  | scope isOpen =>
    rw [scopes] at isOpen
    rcases List.mem_append.mp isOpen with old | opened
    · exact .inl (earlier (.scope old))
    · rw [List.mem_singleton.mp opened, node]
      exact .inr new
  | lastMethod last =>
    rcases lastMethod _ last with old | rfl
    · exact .inl (earlier (.lastMethod old))
    · exact .inr new
  | definition member => exact .inl (earlier (.definition (classes ▸ member)))
  | record member => exact .inl (earlier (.record (prebuilt ▸ member)))

theorem openStructure_handles (word : token.kind = .structureWord)
    (handles : (state.openStructure tokens index token).Handles id) :
    state.Handles id ∨ IsNew token state (state.openStructure tokens index token) id := by
  have files := (structureMade_files tokens index token state).adds
  have furnishes := furnish_furnishes tokens index token (state.structureMade tokens index token).2
    (state.structureMade tokens index token).1
  have new {id : NodeId} (fresh : state.arena.nodes.size ≤ id) :
      IsNew token state (state.openStructure tokens index token) id := by
    refine ⟨fresh, fun other => ?_⟩
    rw [word] at other
    cases other
  cases handles with
  | scope isOpen =>
    obtain ⟨opened, scopes, -, fresh, -⟩ := openStructure_opens tokens index token state
    rw [scopes] at isOpen
    rcases List.mem_append.mp isOpen with old | here
    · exact .inl (.scope old)
    · rw [List.mem_singleton.mp here]
      exact .inr (new fresh)
  | lastMethod last =>
    rw [openStructure_eq] at last
    exact .inl (.lastMethod (files.lastMethod ▸ furnishes.lastMethod ▸ last))
  | definition member =>
    rcases openStructure_classes tokens index token state member with old | ⟨fresh, -⟩
    · exact .inl (.definition old)
    · exact .inr (new fresh)
  | record member =>
    obtain ⟨made, records, -, fresh⟩ := openStructure_records tokens index token state
    rw [records] at member
    rcases List.mem_append.mp member with here | old
    · have own := (structureMade_node tokens index token state).1
      exact .inr (new (Nat.le_trans own (Nat.le_of_lt (fresh _ here))))
    · exact .inl (.record old)

theorem onRoutine_handles (noProcedure : token.kind ≠ .procedure)
    (handles : (state.onRoutine tokens index token).Handles id) :
    state.Handles id ∨ IsNew token state (state.onRoutine tokens index token) id := by
  have earlier (handles : (state.atRoutine tokens).Handles id) : state.Handles id := by
    refine handles.mono ?_ (fun _ last => shut_lastMethod tokens state _ ▸ last)
      (shut_classes ..) (shut_prebuilt ..)
    rw [atRoutine, shut_scopes]
    exact splitFrom_kept state.scopes _
  have size : state.arena.nodes.size ≤ (state.atRoutine tokens).arena.nodes.size :=
    (shut_grows tokens state _).size
  rw [onRoutine_eq] at handles ⊢
  dsimp only at handles ⊢
  split at handles
  · cases handles with
    | scope isOpen =>
      rw [openScope_scopes] at isOpen
      rcases List.mem_append.mp isOpen with old | opened
      · exact .inl (earlier (.scope old))
      · rw [List.mem_singleton.mp opened]
        refine .inr ⟨?_, fun other => absurd other noProcedure⟩
        exact Nat.le_trans size (Nat.le_of_eq (add_id ..).symm)
    | lastMethod last => exact .inl (earlier (.lastMethod last))
    | definition member => exact .inl (earlier (.definition member))
    | record member => exact .inl (earlier (.record member))
  · exact .inl (earlier (handles.mono (fun _ member => member) (fun _ last => last) rfl rfl))

/-- A token adds to what is remembered only nodes that it makes. -/
theorem Sound.dispatch_handles (sound : state.Sound) (found : tokens[index]? = some token)
    (handles : (state.dispatch tokens index token).Handles id) :
    state.Handles id ∨ IsNew token state (state.dispatch tokens index token) id := by
  have acts := sound.acts found
  generalize state.dispatch tokens index token = after at acts handles ⊢
  cases acts with
  | files neutral filed =>
    have adds := filed.adds
    exact .inl (handles.mono (fun _ member => adds.scopes ▸ member)
      (fun _ last => adds.lastMethod ▸ last) adds.classes adds.prebuilt)
  | block opens silent =>
    exact .inl (handles.mono (fun _ member => member) (fun _ last => last) rfl rfl)
  | @record node opens word loud recorded =>
    cases handles with
    | scope isOpen =>
      rw [openScope_scopes] at isOpen
      rcases List.mem_append.mp isOpen with old | opened
      · exact .inl (.scope old)
      · rw [List.mem_singleton.mp opened]
        exact .inl (.record (mem_of_lookup recorded))
    | lastMethod last => exact .inl (.lastMethod last)
    | definition member => exact .inl (.definition member)
    | record member => exact .inl (.record (List.mem_filter.mp member).1)
  | declares opens word loud fresh => exact openStructure_handles word handles
  | globalBody word use =>
    obtain ⟨size, -, scope, scopes, node⟩ := openBody_made (state.atRoot tokens) none
      (procedureInfo tokens index token (procedureName tokens index token) true) token.finishesAt
    refine handles.body (atRoot_size tokens state).ge (fun handles => handles.mono ?_ ?_ ?_ ?_)
      scopes node ?_ rfl rfl size
    · simp
    · simp
    · exact atRoot_classes tokens state
    · exact atRoot_prebuilt tokens state
    · exact fun _ last => .inl last
  | enclosedBody word use =>
    obtain ⟨size, -, scope, scopes, node⟩ := openBody_made state state.focus.block
      (procedureInfo tokens index token (procedureName tokens index token) false) token.finishesAt
    exact handles.body (Nat.le_refl _) (fun handles => handles) scopes node
      (fun _ last => .inl last) rfl rfl size
  | @method className methodName word use =>
    have adds := atMethods_adds tokens index token className methodName state
    have grows := atMethods_grows tokens index token className methodName state
    rw [openMethod_eq] at handles ⊢
    dsimp only at handles ⊢
    generalize state.atMethods tokens index token className methodName = parts at *
    obtain ⟨size, -, scope, scopes, node⟩ := openBody_made parts.1 (some parts.2.1)
      (methodInfo tokens index token className methodName parts.2.2) token.finishesAt
    refine handles.body grows.size (fun handles => handles.mono ?_ ?_ ?_ ?_) scopes node ?_ rfl rfl
      size
    · rw [adds.scopes, shut_scopes]
      exact splitFrom_kept state.scopes _
    · rw [adds.lastMethod, shut_lastMethod]
      exact fun _ last => last
    · rw [adds.classes, shut_classes]
    · rw [adds.prebuilt, shut_prebuilt]
    · rintro _ ⟨⟩
      exact .inr rfl
  | routine word =>
    refine onRoutine_handles (fun procedure => ?_) handles
    rcases word with word | ⟨word, -⟩
    · rw [procedure] at word
      cases word
    · rw [procedure] at word
      cases word
  | marker word =>
    obtain ⟨_, _, _, _, same⟩ := onMarker_frame token state
    rw [same] at handles
    exact .inl (handles.mono (fun _ member => member) (fun _ last => last) rfl rfl)
  | loopStop stops =>
    obtain ⟨_, same⟩ := onLoopTerminator_frame tokens index state
    rw [same] at handles
    exact .inl (handles.mono (fun _ member => member) (fun _ last => last) rfl rfl)
  | ends word =>
    rcases onEnd_cases token state with ⟨_, _, _, same⟩ | ⟨_, _, same⟩ | ⟨_, _, _, _, same⟩
    · rw [same] at handles
      exact .inl (handles.mono (fun _ member => member) (fun _ last => last) rfl rfl)
    · rw [same] at handles
      exact .inl handles
    · rw [same] at handles
      exact .inl (handles.mono (List.dropLast_subset _) (fun _ last => last) rfl rfl)

/-- Only a structure that declares something enters the class table, with its own node. -/
theorem Sound.dispatch_classes (sound : state.Sound) (found : tokens[index]? = some token)
    {entry : String × NodeId} (member : entry ∈ (state.dispatch tokens index token).classes) :
    entry ∈ state.classes ∨ Defines (state.dispatch tokens index token).arena entry := by
  have acts := sound.acts found
  generalize state.dispatch tokens index token = after at acts member ⊢
  cases acts with
  | files neutral filed => exact .inl (filed.adds.classes ▸ member)
  | block opens silent => exact .inl member
  | record opens word loud recorded => exact .inl member
  | declares opens word loud fresh =>
    rcases openStructure_classes tokens index token state member with old | ⟨-, defines⟩
    · exact .inl old
    · exact .inr defines
  | globalBody word use => exact .inl (atRoot_classes tokens state ▸ member)
  | enclosedBody word use => exact .inl member
  | @method className methodName word use =>
    have kept := (atMethods_adds tokens index token className methodName state).classes
    rw [shut_classes] at kept
    rw [openMethod_eq] at member
    exact .inl (kept ▸ member)
  | routine word =>
    have kept : (state.atRoutine tokens).classes = state.classes := shut_classes ..
    rw [onRoutine_eq] at member
    dsimp only at member
    split at member
    · exact .inl (kept ▸ member)
    · exact .inl (kept ▸ member)
  | marker word =>
    obtain ⟨_, _, _, _, same⟩ := onMarker_frame token state
    rw [same] at member
    exact .inl member
  | loopStop stops =>
    obtain ⟨_, same⟩ := onLoopTerminator_frame tokens index state
    rw [same] at member
    exact .inl member
  | ends word =>
    obtain ⟨_, _, _, _, same⟩ := onEnd_frame token state
    rw [same] at member
    exact .inl member

/-- Every entry of the class table points to a definition. -/
theorem classes_define {count : Nat} {entry : String × NodeId}
    (member : entry ∈ (after tokens count).classes) :
    Defines (after tokens count).arena entry := by
  induction count with
  | zero => simp at member
  | succ count ih =>
    have older (old : entry ∈ (after tokens count).classes) :
        Defines (after tokens (count + 1)).arena entry :=
      (ih old).mono (grows_after tokens (Nat.le_succ count))
    rcases after_succ_cases tokens count with same | ⟨token, same⟩ | ⟨token, state, here, same⟩
    · exact older (same ▸ member)
    · rw [same, (reach_settles ..).classes] at member
      exact older member
    · rw [same] at member older ⊢
      rcases here.sound.dispatch_classes here.found member with old | defines
      · rw [here.reached, (reach_settles ..).classes] at old
        exact older old
      · exact defines

/-! ### Nodes out of reach -/

/-- A node that a token makes on the way to the method it opens: the root of an undeclared class, or
the group of its methods. -/
def Hidden (tokens : Tokens) (id : NodeId) : Prop :=
  ∃ index className methodName owner methods last,
    Implements tokens index className methodName owner methods last ∧ BornAt tokens index id ∧
      id ≠ last

/-- Nothing that the pass remembers is out of reach. -/
theorem not_hidden_of_handles {count : Nat} (handles : (after tokens count).Handles id) :
    ¬Hidden tokens id := by
  induction count with
  | zero =>
    have held := Sound.empty.toGrounded.handles_holds handles
    exact absurd held (Nat.not_lt_zero _)
  | succ count ih =>
    have held := (sound_after tokens (count + 1)).toGrounded.handles_holds handles
    rcases after_succ_cases tokens count with same | ⟨token, same⟩ | ⟨token, state, here, same⟩
    · exact ih (same ▸ handles)
    · rw [same] at handles
      exact ih (reach_settles .. |>.handles handles)
    · have settles := reach_settles tokens (after tokens count) token
      rw [← here.reached] at settles
      rw [same] at handles
      rcases here.sound.dispatch_handles here.found handles with old | ⟨fresh, last⟩
      · exact ih (settles.handles old)
      · rintro ⟨index, className, methodName, owner, methods, final, implements, born, different⟩
        -- The token makes the node itself, so it is the token that opens the method.
        obtain rfl := born.unique ⟨settles.size ▸ fresh, held⟩
        obtain ⟨again, _, dispatches, word, -⟩ := methodAt?_eq_some_iff.mp implements.opens
        cases dispatches.found.symm.trans here.found
        have size := last word
        rw [← same, implements.last] at size
        exact different (Nat.succ.inj size)

/-- A node out of reach is neither a method nor a procedure. -/
theorem Hidden.node (hidden : Hidden tokens id) : ∃ node, (finished tokens).node? id = some node ∧
    node.info.traits.isMethodImplementation = false ∧ node.info.kind ≠ .procedure := by
  obtain ⟨index, className, methodName, owner, methods, last, implements, born, different⟩ := hidden
  have grows := grows_finished tokens (lt_length_of_methodAt? implements.opens)
  obtain ⟨node, found⟩ := (grows.holds born.2).node?
  refine ⟨node, found, ?_⟩
  rcases implements.others id node born found with same | ⟨rfl, traits, -⟩ | ⟨rfl, founds⟩
  · exact absurd same different
  · rw [traits, (implements.isGroup.links found).2.2]
    exact ⟨rfl, nofun⟩
  · obtain ⟨again, token, foundAgain, -, -, -, info⟩ := founds.shown
    cases foundAgain.symm.trans found
    rw [info]
    exact ⟨rfl, nofun⟩

/-- A token that opens no method has no handle on a node out of reach. -/
theorem Known.not_hidden (known : ((after tokens index).reach tokens token).Known id)
    (found : tokens[index]? = some token) (plain : methodAt? tokens index = none)
    (held : (after tokens (index + 1)).arena.Holds id) : ¬Hidden tokens id := by
  have settles := reach_settles tokens (after tokens index) token
  have widens := reach_widens tokens (after tokens index) token
  have grows := grows_finished tokens (Nat.le_of_lt (List.getElem?_eq_some_iff.mp found).1)
  intro hidden
  obtain ⟨node, stands, noMethod, noProcedure⟩ := hidden.node
  cases known with
  | named named =>
    cases named with
    | scope isOpen => exact not_hidden_of_handles (.scope (settles.scopes _ isOpen)) hidden
    | lastMethod last =>
      exact not_hidden_of_handles (.lastMethod (settles.lastMethod _ last)) hidden
    | lastGlobal last =>
      rw [widens.lastGlobal_eq] at last
      have tested := List.find?_some last
      obtain ⟨old, foundOld, isGlobal⟩ := (Option.any_eq_true ..).mp tested
      obtain ⟨later, foundLater, keeps⟩ := grows.kept foundOld
      cases foundLater.symm.trans stands
      rw [keeps.kind] at noProcedure
      simp [noProcedure] at isGlobal
  | method foundMethod implements =>
    obtain ⟨old, foundOld, traits, -⟩ := widens.node? foundMethod
    obtain ⟨later, foundLater, keeps⟩ := grows.kept foundOld
    cases foundLater.symm.trans stands
    rw [keeps.traits, traits, implements] at noMethod
    cases noMethod
  | fresh later =>
    obtain ⟨other, _, _, _, _, _, implements, born, -⟩ := hidden
    obtain rfl := born.unique ⟨settles.size ▸ later, held⟩
    cases plain.symm.trans implements.opens

end Clarion.Outline.State
