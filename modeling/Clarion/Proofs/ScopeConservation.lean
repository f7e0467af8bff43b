import Clarion.Proofs.ScopeStack
import Mathlib.Data.List.Induction
import Mathlib.Data.List.Perm.Basic

/-! No scope is lost and none closes twice. Whatever is done to the stack of open scopes either opens
one on top or takes a part off the top and returns it, so that the scopes ever opened are at any
time those on the stack and those returned. -/
namespace Clarion.Outline.Scopes

/-- What is done to the open scopes: one opens, a line is reached, all method implementations close,
the outermost scope of a sort closes, an end pops, or all close. -/
inductive Operation where
  | push (scope : Scope)
  | reachLine (line : Nat) (lineTokens : List Token) (hasMethods : Bool)
  | splitMethods
  | splitFrom (holds : Scope → Bool)
  | popOpenEnded (closes : Scope → Bool)
  | clear

namespace Operation

/-- The scope that the operation opens. -/
def opens : Operation → Scopes
  | push scope => [scope]
  | _ => []

/-- The scopes that are open after the operation, and those that it returns as closed. -/
def apply (scopes : Scopes) : Operation → Scopes × Scopes
  | push scope => (scopes ++ [scope], [])
  | reachLine line lineTokens hasMethods => scopes.closeAtLine line lineTokens hasMethods
  | splitMethods => scopes.splitMethods
  | splitFrom holds => scopes.splitFrom holds
  | popOpenEnded closes => ((scopes.popOpenEnded closes).1, (scopes.popOpenEnded closes).2.toList)
  | clear => ([], scopes)

end Operation

theorem splitAt_append (scopes : Scopes) (count : Nat) :
    scopes = (scopes.splitAt count).1 ++ (scopes.splitAt count).2 := by
  rw [List.splitAt_eq, List.take_append_drop]

theorem popOpenEnded_append (scopes : Scopes) (closes : Scope → Bool) :
    scopes = (scopes.popOpenEnded closes).1 ++ (scopes.popOpenEnded closes).2.toList := by
  unfold popOpenEnded
  split
  · rename_i top last
    split
    · obtain ⟨rest, rfl⟩ := List.getLast?_eq_some_iff.mp last
      simp
    · simp
  · simp

/-- What an operation returns is the top of the stack as it stands. The rest stays, and below a scope
that opens nothing changes. -/
theorem Operation.apply_splits (operation : Operation) (scopes : Scopes) :
    ∃ kept, scopes = kept ++ (operation.apply scopes).2 ∧
      (operation.apply scopes).1 = kept ++ operation.opens := by
  have closes {parts : Scopes × Scopes} (whole : scopes = parts.1 ++ parts.2) :
      ∃ kept, scopes = kept ++ parts.2 ∧ parts.1 = kept ++ [] :=
    ⟨parts.1, whole, (List.append_nil _).symm⟩
  cases operation with
  | push scope => exact ⟨scopes, (List.append_nil _).symm, rfl⟩
  | reachLine line lineTokens hasMethods => exact closes (splitAt_append ..)
  | splitMethods => exact closes (splitAt_append ..)
  | splitFrom holds => exact closes (splitAt_append ..)
  | popOpenEnded test => exact closes (popOpenEnded_append ..)
  | clear => exact closes rfl

theorem append_exchange (kept closed returned opened : Scopes) :
    (kept ++ closed ++ returned ++ opened).Perm (kept ++ opened ++ (returned ++ closed)) := by
  simp only [List.append_assoc]
  refine List.Perm.append_left kept ?_
  calc (closed ++ (returned ++ opened)).Perm (returned ++ opened ++ closed) := List.perm_append_comm
    List.Perm _ (opened ++ returned ++ closed) := List.perm_append_comm.append_right closed
    _ = opened ++ (returned ++ closed) := List.append_assoc ..

/-- Every scope opened so far, the stack, and every scope returned so far, each in its order. -/
structure Account where
  opened : Scopes := []
  stack : Scopes := []
  returned : Scopes := []

namespace Account

variable {account : Account}

/-- The account after one more operation. -/
def next (account : Account) (operation : Operation) : Account where
  opened := account.opened ++ operation.opens
  stack := (operation.apply account.stack).1
  returned := account.returned ++ (operation.apply account.stack).2

/-- The account of some operations, from an empty stack on. -/
def of (operations : List Operation) : Account :=
  operations.foldl next {}

/-- The stack holds opened scopes in the order of their opening, and every opened scope is on the
stack or returned, each as many times as it was opened. -/
structure Balanced (account : Account) : Prop where
  inOrder : account.stack.Sublist account.opened
  whole : account.opened.Perm (account.stack ++ account.returned)

theorem Balanced.next (balanced : account.Balanced) (operation : Operation) :
    (account.next operation).Balanced := by
  obtain ⟨kept, before, after⟩ := operation.apply_splits account.stack
  have inOrder := balanced.inOrder
  have whole := balanced.whole
  unfold Account.next
  generalize operation.apply account.stack = parts at before after ⊢
  rw [before] at inOrder whole
  refine ⟨?_, ?_⟩
  · rw [after]
    exact ((List.sublist_append_left kept parts.2).trans inOrder).append_right _
  · have moved := append_exchange kept parts.2 account.returned operation.opens
    rw [after]
    exact (whole.append_right operation.opens).trans moved

theorem of_concat (operations : List Operation) (operation : Operation) :
    of (operations ++ [operation]) = (of operations).next operation := by
  simp [of]

theorem balanced_of (operations : List Operation) : (of operations).Balanced := by
  induction operations using List.reverseRecOn with
  | nil => exact ⟨.slnil, .nil⟩
  | append_singleton operations operation ih =>
    rw [of_concat]
    exact ih.next operation

end Account

/-- After any operations the scopes ever opened are those on the stack, in the order of their
opening, and those returned; each operation returns the top of the stack as it stands and changes
nothing below; and no method implementation is left when all of them close. -/
theorem scopes_are_conserved (operations : List Operation) :
    (Account.of operations).stack.Sublist (Account.of operations).opened ∧
    (Account.of operations).opened.Perm
      ((Account.of operations).stack ++ (Account.of operations).returned) ∧
    (∀ operation, ∃ kept returned,
      (Account.of operations).stack = kept ++ returned ∧
      (Account.of (operations ++ [operation])).stack = kept ++ operation.opens ∧
      (Account.of (operations ++ [operation])).returned =
        (Account.of operations).returned ++ returned) ∧
    ∀ scope ∈ (Account.of (operations ++ [.splitMethods])).stack,
      scope.kind ≠ .methodImplementation := by
  obtain ⟨inOrder, whole⟩ := Account.balanced_of operations
  refine ⟨inOrder, whole, fun operation => ?_, ?_⟩
  · obtain ⟨kept, before, after⟩ := operation.apply_splits (Account.of operations).stack
    rw [Account.of_concat]
    exact ⟨kept, _, before, after, rfl⟩
  · rw [Account.of_concat]
    intro scope member
    simpa using splitFrom_none _ _ scope member

/-- The method implementations close with what was opened inside them. -/
example (outer method inner : Scope) (plain : outer.kind = .ordinaryStructure)
    (implements : method.kind = .methodImplementation) :
    Account.of [.push outer, .push method, .push inner, .splitMethods] =
      ⟨[outer, method, inner], [outer], [method, inner]⟩ := by
  simp [Account.of, Account.next, Operation.opens, Operation.apply, splitMethods, splitFrom, plain,
    implements, List.findIdx?_cons]

end Clarion.Outline.Scopes
