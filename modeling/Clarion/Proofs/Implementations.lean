import Clarion.Proofs.Origins

/-! Method implementations, and the origin of every node. A token that opens a method files it with
the methods of an owner: the class that declares the method, or the root that collects the methods
of an undeclared class, founded on first use. Every node of a finished outline is made by one token,
and is one of the nodes that such a token or any other can make. -/
namespace Clarion.Outline.State

variable {state : State} {tokens : Tokens} {index : Nat} {token : Token}
  {className methodName : String} {id owner : NodeId} {node : Node}

/-! ### Tokens that open a method -/

/-- The class and the method that the token at an index opens, when it opens a method. -/
def methodAt? (tokens : Tokens) (index : Nat) : Option (String × String) :=
  tokens[index]?.bind fun token =>
    let state := (after tokens index).reach tokens token
    if token.kind == .procedure && !state.handled.contains index then
      match state.procedureUse tokens index token with
      | .method className methodName => some (className, methodName)
      | _ => none
    else none

theorem methodAt?_eq_some_iff : methodAt? tokens index = some (className, methodName) ↔
    ∃ token state, Dispatches tokens index token state ∧ token.kind = .procedure ∧
      state.procedureUse tokens index token = .method className methodName := by
  unfold methodAt?
  constructor
  · intro opens
    obtain ⟨token, found, opens⟩ := Option.bind_eq_some_iff.mp opens
    dsimp only at opens
    split at opens
    · rename_i dispatched
      simp only [Bool.and_eq_true, beq_iff_eq, Bool.not_eq_true', List.contains_eq_mem,
        decide_eq_false_iff_not] at dispatched
      split at opens
      · rename_i use
        cases opens
        exact ⟨token, _, ⟨found, rfl, dispatched.2⟩, dispatched.1, use⟩
      · cases opens
    · cases opens
  · rintro ⟨token, state, dispatches, word, use⟩
    have fresh := dispatches.fresh
    rw [dispatches.reached] at fresh use
    simp [dispatches.found, word, fresh, use]

/-- Coming to another line moves spans only. -/
theorem reach_widens (tokens : Tokens) (state : State) (token : Token) :
    state.arena.Widens (state.reach tokens token).arena := by
  unfold reach
  split
  · exact .refl _
  · have widens := close_widens tokens
      { state with scopes := (state.scopes.closeAtLine token.line (tokens.onLine token.line)
          state.hasMethods).1 }
      (state.scopes.closeAtLine token.line (tokens.onLine token.line) state.hasMethods).2
      state.currentLine
    unfold advanceLine
    dsimp only
    generalize close tokens _ _ _ = closed at widens ⊢
    split <;> exact widens

/-- Whether a class declares a method does not depend on spans. -/
theorem declaringClass?_widens {before after : State} (widens : before.arena.Widens after.arena)
    (classes : after.classes = before.classes) (className methodName : String) :
    after.declaringClass? className methodName = before.declaringClass? className methodName := by
  simp only [declaringClass?, classes, widens.findClass_eq, widens.findMethodDeclaration_eq]

/-- A class that declares a method has a group for its methods. -/
theorem declaringClass?_group
    (declares : state.declaringClass? className methodName = some owner) :
    ∃ methods child, state.arena.group? owner .methods = some methods ∧
      state.arena.findByBareName methods methodName = some child := by
  obtain ⟨-, declares⟩ := Option.filter_eq_some_iff.mp declares
  obtain ⟨child, declared⟩ := Option.isSome_iff_exists.mp declares
  obtain ⟨methods, recorded, found⟩ := Option.bind_eq_some_iff.mp declared
  exact ⟨methods, child, recorded, found⟩

/-- The owner that a method is filed with, and the arena in which that owner is there. -/
inductive Adopts (tokens : Tokens) (index : Nat) (token : Token) (className methodName : String)
    (state : State) (arena : Arena) : Arena → NodeId → String → Prop where
  | declared {owner : NodeId} (declares : state.declaringClass? className methodName = some owner) :
    Adopts tokens index token className methodName state arena arena owner "Implementation"
  | collected {root : NodeId} (undeclared : state.declaringClass? className methodName = none)
    (found : state.arena.findImplementationRoot className = some root) :
    Adopts tokens index token className methodName state arena arena root
      (className ++ "." ++ methodName)
  | founded (undeclared : state.declaringClass? className methodName = none)
    (missing : state.arena.findImplementationRoot className = none) :
    Adopts tokens index token className methodName state arena
      (arena.add none (undeclaredClassInfo tokens index token className)).1 arena.nodes.size
      (className ++ "." ++ methodName)

/-- The arena with a method filed with the methods of its owner. -/
def filed (arena : Arena) (owner : NodeId) (info : Info) : Arena :=
  ((arena.ensureGroup owner .methods).1.add (some (arena.ensureGroup owner .methods).2) info).1

theorem methodOwner_adopts (tokens : Tokens) (index : Nat) (token : Token)
    (className methodName : String) (state : State) :
    Adopts tokens index token className methodName state state.arena
      (state.methodOwner tokens index token className methodName).1.arena
      (state.methodOwner tokens index token className methodName).2.1
      (state.methodOwner tokens index token className methodName).2.2 := by
  unfold methodOwner
  split
  · rename_i owner declares
    exact .declared declares
  · rename_i undeclared
    dsimp only
    split
    · rename_i root found
      exact .collected undeclared found
    · rename_i missing
      rw [add_id]
      exact .founded undeclared missing

/-- The owner does not depend on spans. -/
theorem Adopts.of_widens {before later : State} {arena ready : Arena} {detail : String}
    (adopts : Adopts tokens index token className methodName later arena ready owner detail)
    (widens : before.arena.Widens later.arena) (classes : later.classes = before.classes) :
    Adopts tokens index token className methodName before arena ready owner detail := by
  have same := declaringClass?_widens widens classes className methodName
  have root := widens.findImplementationRoot_eq className
  cases adopts with
  | declared declares => exact .declared (same ▸ declares)
  | collected undeclared found => exact .collected (same ▸ undeclared) (root ▸ found)
  | founded undeclared missing => exact .founded (same ▸ undeclared) (root ▸ missing)

/-- A token that opens a method moves spans, makes its owner ready, and files the method there. -/
theorem method_step (opens : methodAt? tokens index = some (className, methodName)) :
    ∃ token moved ready owner detail, tokens[index]? = some token ∧
      (after tokens index).arena.Widens moved ∧
      Adopts tokens index token className methodName (after tokens index) moved ready owner detail ∧
      (after tokens (index + 1)).arena =
        filed ready owner (methodInfo tokens index token className methodName detail) := by
  obtain ⟨token, state, dispatches, word, use⟩ := methodAt?_eq_some_iff.mp opens
  have settles := reach_settles tokens (after tokens index) token
  have reached := reach_widens tokens (after tokens index) token
  rw [← dispatches.reached] at settles reached
  have shut := shut_widens tokens state state.scopes.splitMethods
  have moved := reached.trans shut
  have classes : (state.shut tokens state.scopes.splitMethods).classes =
      (after tokens index).classes := by
    rw [shut_classes, settles.classes]
  have adopts := (methodOwner_adopts tokens index token className methodName
    (state.shut tokens state.scopes.splitMethods)).of_widens moved classes
  refine ⟨token, _, _, _, _, dispatches.found, moved, adopts, ?_⟩
  rw [dispatches.after_succ]
  simp only [State.dispatch, word, onProcedure_eq, use]
  rfl

/-! ### The order of creation along the pass -/

/-- What a token makes of the arena when it opens no method. -/
theorem plain_step (found : tokens[index]? = some token) (plain : methodAt? tokens index = none) :
    ((after tokens index).reach tokens token).Draws tokens index token
      (after tokens (index + 1)).arena := by
  rw [after_succ, step_eq found]
  split
  · exact .start
  · rename_i fresh
    refine ((sound_after tokens index).reach tokens token).dispatch_draws found ?_
    intro word className methodName use
    have opens := methodAt?_eq_some_iff.mpr
      ⟨token, _, ⟨found, rfl, by simpa using fresh⟩, word, use⟩
    rw [plain] at opens
    cases opens

theorem Adopts.ready {arena ready : Arena} {detail : String}
    (adopts : Adopts tokens index token className methodName state arena ready owner detail)
    (sound : state.Sound) (widens : state.arena.Widens arena) (arranged : arena.Arranged) :
    ready.Arranged ∧ ready.Holds owner := by
  cases adopts with
  | declared declares =>
    exact ⟨arranged, widens.grows.holds (sound.declaringClass_holds declares)⟩
  | collected undeclared found =>
    have member := List.mem_of_find?_eq_some found
    exact ⟨arranged, widens.grows.holds (sound.arena.root_holds member)⟩
  | founded undeclared missing =>
    refine ⟨arranged.add nofun, ?_⟩
    rw [Arena.Holds, Arena.add_size]
    exact Nat.lt_succ_self _

/-- The group of the owner's methods is ready for the method. -/
theorem group_ready {arena : Arena} (arranged : arena.Arranged) (held : arena.Holds owner) :
    ∀ above, some (arena.ensureGroup owner .methods).2 = some above →
      (arena.ensureGroup owner .methods).1.Holds above := by
  obtain ⟨shape, recorded⟩ := arranged.toWellFormed.ensureGroup held .methods
  rintro _ ⟨⟩
  exact shape.group_holds recorded

/-- Between any two tokens, children stand in the order of their creation. -/
theorem arranged_after (tokens : Tokens) (count : Nat) : (after tokens count).arena.Arranged := by
  induction count with
  | zero => exact .empty
  | succ count ih =>
    cases opens : methodAt? tokens count with
    | none =>
      cases found : tokens[count]? with
      | none =>
        rw [after_succ, step_none found]
        exact ih
      | some token =>
        exact (plain_step found opens).arranged ((reach_widens ..).arranged ih)
    | some parts =>
      obtain ⟨token, moved, ready, owner, detail, -, widens, adopts, made⟩ := method_step opens
      obtain ⟨arranged, held⟩ := adopts.ready (sound_after ..) widens (widens.arranged ih)
      rw [made]
      exact (arranged.ensureGroup held .methods).add (group_ready arranged held)

theorem finished_widens (tokens : Tokens) :
    (after tokens tokens.length).arena.Widens (finished tokens) :=
  close_widens tokens { after tokens tokens.length with scopes := [] } _ _

theorem arranged_finished (tokens : Tokens) : (finished tokens).Arranged :=
  (finished_widens tokens).arranged (arranged_after ..)

/-! ### What a method brings -/

theorem BornAt.unique {other : Nat} (born : BornAt tokens index id)
    (again : BornAt tokens other id) : index = other := by
  rcases Nat.lt_trichotomy index other with before | same | after
  · exact absurd (born.lt_size before) (Nat.not_lt_of_le again.1)
  · exact same
  · exact absurd (again.lt_size after) (Nat.not_lt_of_le born.1)

/-- The token at an index founds the root that collects the methods of an undeclared class. -/
structure Founds (tokens : Tokens) (index : Nat) (className : String) (root : NodeId) : Prop where
  opens : ∃ methodName, methodAt? tokens index = some (className, methodName)
  missing : (after tokens index).arena.findImplementationRoot className = none
  born : BornAt tokens index root
  shown : ∃ node token, (finished tokens).node? root = some node ∧ tokens[index]? = some token ∧
    node.parent = none ∧ node.group = none ∧
    node.info = { undeclaredClassInfo tokens index token className with range := node.info.range }

/-- The owner that the method opened at an index is filed with, and the detail it shows. -/
inductive Owns (tokens : Tokens) (index : Nat) (className methodName : String) :
    NodeId → String → Prop where
  | declared {owner : NodeId}
    (declares : (after tokens index).declaringClass? className methodName = some owner) :
    Owns tokens index className methodName owner "Implementation"
  | collected {root : NodeId}
    (undeclared : (after tokens index).declaringClass? className methodName = none)
    (found : (after tokens index).arena.findImplementationRoot className = some root) :
    Owns tokens index className methodName root (className ++ "." ++ methodName)
  | founded {root : NodeId}
    (undeclared : (after tokens index).declaringClass? className methodName = none)
    (founds : Founds tokens index className root) :
    Owns tokens index className methodName root (className ++ "." ++ methodName)

/-- The method that the token at an index opens: its owner, the group it is filed in, and its
node. Nothing else is created at that token, except that owner and that group. -/
structure Implements (tokens : Tokens) (index : Nat) (className methodName : String)
    (owner methods id : NodeId) : Prop where
  opens : methodAt? tokens index = some (className, methodName)
  recorded : (after tokens (index + 1)).arena.group? owner .methods = some methods
  born : BornAt tokens index id
  last : (after tokens (index + 1)).arena.nodes.size = id + 1
  shown : ∃ node token detail, (finished tokens).node? id = some node ∧
    tokens[index]? = some token ∧ Owns tokens index className methodName owner detail ∧
    node.parent = some methods ∧ node.group = none ∧
    node.info = { methodInfo tokens index token className methodName detail with
      range := node.info.range }
  others : ∀ other node, BornAt tokens index other → (finished tokens).node? other = some node →
    other = id ∨
      (other = methods ∧ node.info.traits = {} ∧ node.info.name = Group.methods.label) ∨
      other = owner ∧ Founds tokens index className owner

theorem lt_length_of_methodAt? {parts : String × String}
    (opens : methodAt? tokens index = some parts) : index < tokens.length := by
  obtain ⟨token, found, -⟩ := Option.bind_eq_some_iff.mp opens
  exact (List.getElem?_eq_some_iff.mp found).1

/-- The owner that is made ready is the one that owns the method, and the only node that can be
new at that point. -/
theorem Adopts.owns {moved ready : Arena} {detail : String}
    (adopts : Adopts tokens index token className methodName (after tokens index) moved ready owner
      detail)
    (opens : methodAt? tokens index = some (className, methodName))
    (widens : (after tokens index).arena.Widens moved) (here : tokens[index]? = some token)
    (grown : ready.Grows (after tokens (index + 1)).arena) :
    Owns tokens index className methodName owner detail ∧
      ∀ other, ready.Holds other → (after tokens index).arena.nodes.size ≤ other →
        other = owner ∧ Founds tokens index className owner := by
  have size := widens.size
  cases adopts with
  | declared declares =>
    refine ⟨.declared declares, fun other held fresh => absurd held (Nat.not_lt_of_le ?_)⟩
    exact Nat.le_trans (Nat.le_of_eq size) fresh
  | collected undeclared found =>
    refine ⟨.collected undeclared found, fun other held fresh => absurd held (Nat.not_lt_of_le ?_)⟩
    exact Nat.le_trans (Nat.le_of_eq size) fresh
  | founded undeclared missing =>
    have made : moved.nodes.size <
        (moved.add none (undeclaredClassInfo tokens index token className)).1.nodes.size := by
      rw [Arena.add_size]
      exact Nat.lt_succ_self _
    have founds : Founds tokens index className moved.nodes.size := by
      refine ⟨⟨_, opens⟩, missing, ⟨Nat.le_of_eq size.symm, grown.holds made⟩, ?_⟩
      have bound := (List.getElem?_eq_some_iff.mp here).1
      have stands : (moved.add none (undeclaredClassInfo tokens index token className)).1.node?
          moved.nodes.size = some { info := undeclaredClassInfo tokens index token className } :=
        Arena.push_node?_new nofun
      obtain ⟨node, found, keeps⟩ := (grown.trans (grows_finished tokens bound)).kept stands
      exact ⟨node, token, found, here, keeps.parent, keeps.group, keeps.info⟩
    refine ⟨.founded undeclared founds, fun other held fresh => ⟨?_, founds⟩⟩
    rw [Arena.Holds, Arena.add_size] at held
    exact Nat.le_antisymm (Nat.lt_succ_iff.mp held) (Nat.le_trans (Nat.le_of_eq size) fresh)

/-- Every token that opens a method implements it. -/
theorem exists_implements (opens : methodAt? tokens index = some (className, methodName)) :
    ∃ owner methods id, Implements tokens index className methodName owner methods id := by
  obtain ⟨token, moved, ready, owner, detail, here, widens, adopts, made⟩ := method_step opens
  obtain ⟨arranged, held⟩ :=
    adopts.ready (sound_after ..) widens (widens.arranged (arranged_after ..))
  obtain ⟨-, recorded⟩ := arranged.toWellFormed.ensureGroup held .methods
  have grouped := Arena.ensureGroup_grows ready owner .methods
  have grown : ready.Grows (after tokens (index + 1)).arena := by
    rw [made]
    exact grouped.trans Arena.add_grows
  obtain ⟨owns, newOwner⟩ := adopts.owns opens widens here grown
  have size : (after tokens (index + 1)).arena.nodes.size =
      (ready.ensureGroup owner .methods).1.nodes.size + 1 := by
    rw [made, filed, Arena.add_size]
  have later := grows_finished tokens (lt_length_of_methodAt? opens)
  rw [made] at later
  refine ⟨owner, (ready.ensureGroup owner .methods).2, _, opens, ?_, ⟨?_, ?_⟩, size, ?_, ?_⟩
  · rw [made]
    exact (Arena.push_group? ..).trans recorded
  · refine Nat.le_trans ?_ grouped.size
    rw [← widens.size]
    cases adopts with
    | declared | collected => exact Nat.le_refl _
    | founded => exact Arena.add_grows.size
  · rw [size]
    exact Nat.lt_succ_self _
  · obtain ⟨node, found, keeps⟩ := later.kept (Arena.push_node?_new (group_ready arranged held))
    exact ⟨node, token, detail, found, here, owns, keeps.parent, keeps.group, keeps.info⟩
  · intro other last born found
    rcases Nat.lt_or_eq_of_le (Nat.lt_succ_iff.mp (size ▸ born.2)) with earlier | rfl
    · obtain ⟨node, foundNode⟩ := Arena.Holds.node? earlier
      obtain ⟨again, foundAgain, keeps⟩ := (Arena.add_grows.trans later).kept foundNode
      cases foundAgain.symm.trans found
      rcases Arena.ensureGroup_cases held foundNode with old | ⟨rfl, above, rfl⟩
      · exact .inr (.inr (newOwner other old born.1))
      · exact .inr (.inl ⟨rfl, keeps.traits, keeps.name⟩)
    · exact .inl rfl

/-! ### The nodes of a method, its group and its class -/

section

variable {root methods last : NodeId}

theorem Founds.named (founds : Founds tokens index className root)
    (found : (finished tokens).node? root = some node) :
    node.info.name = className ++ Arena.implementationSuffix := by
  obtain ⟨again, token, foundAgain, -, -, -, info⟩ := founds.shown
  cases foundAgain.symm.trans found
  rw [info]
  rfl

theorem Founds.links (founds : Founds tokens index className root)
    (found : (finished tokens).node? root = some node) :
    node.parent = none ∧ node.group = none := by
  obtain ⟨again, token, foundAgain, -, parent, group, -⟩ := founds.shown
  cases foundAgain.symm.trans found
  exact ⟨parent, group⟩

theorem Founds.kind (founds : Founds tokens index className root) :
    (finished tokens).kind? root = some .classDecl := by
  obtain ⟨node, token, found, -, -, -, info⟩ := founds.shown
  rw [Arena.kind?, found, Option.map_some, info]
  rfl

theorem Implements.last_links (implements : Implements tokens index className methodName owner
      methods last) (found : (finished tokens).node? last = some node) :
    node.parent = some methods ∧ node.group = none ∧ node.info.kind = .method := by
  obtain ⟨again, token, detail, foundAgain, -, -, parent, group, info⟩ := implements.shown
  cases foundAgain.symm.trans found
  rw [info]
  exact ⟨parent, group, rfl⟩

theorem Implements.finished_group
    (implements : Implements tokens index className methodName owner methods last) :
    (finished tokens).group? owner .methods = some methods :=
  (grows_finished tokens (lt_length_of_methodAt? implements.opens)).groups implements.recorded

theorem Implements.isGroup (implements : Implements tokens index className methodName owner methods
      last) : (finished tokens).IsGroup owner .methods methods :=
  (arranged_finished tokens).group implements.finished_group

theorem Founds.not_group {group : Group} (founds : Founds tokens index className root) :
    ¬(finished tokens).IsGroup owner group root := by
  intro isGroup
  obtain ⟨node, -, found, -⟩ := founds.shown
  cases (founds.links found).2.symm.trans (isGroup.links found).2.1

end

/-! ### The origin of a node -/

/-- Every node of the finished outline is made by one token. A token that opens no method makes a
symbol or a group where it has a handle on a node; any other implements a method. -/
inductive Origin (tokens : Tokens) (id : NodeId) (node : Node) : Prop where
  | plain {index : Nat} {token : Token} (found : tokens[index]? = some token)
    (opens : methodAt? tokens index = none) (born : BornAt tokens index id)
    (made : Arena.Builds.Plain (Makes tokens index token)
      ((after tokens index).reach tokens token).Known (finished tokens) node) :
    Origin tokens id node
  | grouped {index : Nat} {token : Token} (found : tokens[index]? = some token)
    (opens : methodAt? tokens index = none) (born : BornAt tokens index id)
    (made : Arena.Builds.Grouped ((after tokens index).reach tokens token).Known (finished tokens)
      node) :
    Origin tokens id node
  | method {index : Nat} {className methodName : String} {owner methods last : NodeId}
    (implements : Implements tokens index className methodName owner methods last)
    (born : BornAt tokens index id) : Origin tokens id node

theorem exists_origin (found : (finished tokens).node? id = some node) : Origin tokens id node := by
  have held : (after tokens tokens.length).arena.Holds id :=
    Nat.lt_of_lt_of_eq (Arena.holds_of_node? found) (finish_size ..)
  obtain ⟨index, bound, born⟩ := exists_born held
  cases opens : methodAt? tokens index with
  | some parts =>
    obtain ⟨owner, methods, last, implements⟩ := exists_implements opens
    exact .method implements born
  | none =>
    have here : tokens[index]? = some tokens[index] := List.getElem?_eq_getElem bound
    have widens := reach_widens tokens (after tokens index) tokens[index]
    have grows := grows_finished tokens bound
    obtain ⟨made, foundMade⟩ := Arena.Holds.node? born.2
    obtain ⟨later, foundLater, keeps⟩ := grows.kept foundMade
    cases foundLater.symm.trans found
    have fresh : ¬((after tokens index).reach tokens tokens[index]).arena.Holds id := by
      rw [Arena.Holds, widens.size]
      exact Nat.not_lt_of_le born.1
    rcases (plain_step here opens).new (widens.arranged (arranged_after ..)) foundMade fresh with
      plain | grouped
    · exact .plain here opens born (plain.keeps grows keeps)
    · exact .grouped here opens born (grouped.keeps grows keeps)

/-- What the tokens of a document can make: a symbol, a group, a method with a body, or the root of an
undeclared class. -/
inductive Makeable (tokens : Tokens) : Info → Prop where
  | symbol {index : Nat} {token : Token} {info : Info} (makes : Makes tokens index token info) :
    Makeable tokens info
  | group {info : Info} (kind : info.kind = .container) (traits : info.traits = {}) :
    Makeable tokens info
  | method (index : Nat) (token : Token) (className methodName detail : String) :
    Makeable tokens (methodInfo tokens index token className methodName detail)
  | undeclaredClass (index : Nat) (token : Token) (className : String) :
    Makeable tokens (undeclaredClassInfo tokens index token className)

/-- Up to its span, a node of the finished outline is as some token made it. -/
theorem exists_info (found : (finished tokens).node? id = some node) :
    ∃ info, Makeable tokens info ∧ node.info = { info with range := node.info.range } := by
  cases exists_origin found with
  | plain _ _ _ made =>
    obtain ⟨info, makes, same⟩ := made.info
    exact ⟨info, .symbol makes, same⟩
  | grouped _ _ _ made => exact ⟨node.info, .group made.kind made.traits, rfl⟩
  | method implements born =>
    rcases implements.others id node born found with rfl | ⟨rfl, traits, -⟩ | ⟨rfl, founds⟩
    · obtain ⟨again, _, _, foundAgain, -, -, -, -, info⟩ := implements.shown
      cases foundAgain.symm.trans found
      exact ⟨_, .method .., info⟩
    · exact ⟨node.info, .group (implements.isGroup.links found).2.2 traits, rfl⟩
    · obtain ⟨again, _, foundAgain, -, -, -, info⟩ := founds.shown
      cases foundAgain.symm.trans found
      exact ⟨_, .undeclaredClass .., info⟩

end Clarion.Outline.State
