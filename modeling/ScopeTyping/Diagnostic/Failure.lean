import ScopeTyping.Diagnostic.Error

/-! How a computation over a story can fail, and computations that change a state as
they go. What such a computation did to its state before it failed stays done. -/
namespace ScopeTyping

/-- The two ways to end without a result: the story is wrong, or the question was. -/
inductive Failure where
  | error (error : SemanticError)
  | fault (fault : Fault)
  deriving DecidableEq

/-- A computation that can fail for a reason and that keeps its changes to the state when it
does. -/
abbrev Fallible (Reason State : Type) := ExceptT Reason (StateM State)

namespace Fallible

variable {Reason State α β : Type}

/-- The outcome of a computation and the state afterwards. -/
def outcome (attempt : Fallible Reason State α) (state : State) : Except Reason α × State :=
  attempt.run.run state

@[simp] theorem outcome_pure (value : α) (state : State) :
    (pure value : Fallible Reason State α).outcome state = (.ok value, state) := rfl

@[simp] theorem outcome_throw (reason : Reason) (state : State) :
    (throw reason : Fallible Reason State α).outcome state = (.error reason, state) := rfl

/-- The second of two steps goes on from the state that the first one leaves, and is not
taken if the first one fails. -/
theorem outcome_bind (first : Fallible Reason State α) (second : α → Fallible Reason State β)
    (state : State) :
    (first >>= second).outcome state = match first.outcome state with
      | (.ok value, between) => (second value).outcome between
      | (.error reason, between) => (.error reason, between) := by
  simp only [outcome, ExceptT.run_bind, StateT.run_bind]
  rcases StateT.run (ExceptT.run first) state with ⟨result, between⟩
  cases result <;> rfl

end Fallible

/-- A computation over a story. -/
abbrev Attempt (State : Type) := Fallible Failure State

namespace Attempt

/-- Goes on with the answer to a question, or ends with its fault. -/
def guard {State α : Type} (answer : Except Fault α) : Attempt State α :=
  match answer with
  | .ok value => pure value
  | .error fault => throw (.fault fault)

/-- Ends with an error at a node. -/
def report {State α : Type} (tree : Tree) (node : NodeId) (cause : Cause) : Attempt State α := do
  throw (.error (← guard (SemanticError.atNode tree node cause)))

/-- Ends with the error of a node that lacks a child of kind `expected`. -/
def malformed {State α : Type} (tree : Tree) (parent : NodeId) (expected : Kind) :
    Attempt State α := do
  throw (.error (← guard (SemanticError.malformed tree parent expected)))

/-- The first child of a kind, which the grammar asks for. -/
def requiredChild {State : Type} (tree : Tree) (parent : NodeId) (kind : Kind) :
    Attempt State NodeId := do
  match ← guard (tree.child? parent kind) with
  | some child => pure child
  | none => malformed tree parent kind

@[simp] theorem outcome_guard {State α : Type} (answer : Except Fault α) (state : State) :
    (guard answer : Attempt State α).outcome state = (answer.mapError .fault, state) := by
  cases answer <;> rfl

end Attempt

namespace Walk

/-- Goes through the items of a walk in order; its fault counts once they are done. -/
def mapM {State α β : Type} (walk : Walk α) (each : α → Attempt State β) :
    Attempt State (List β) := do
  let results ← walk.items.mapM each
  match walk.fault with
  | some fault => throw (.fault fault)
  | none => pure results

/-- Goes through the items of a walk for their effects. -/
def forEach {State α : Type} (walk : Walk α) (each : α → Attempt State Unit) :
    Attempt State Unit := do
  walk.items.forM each
  match walk.fault with
  | some fault => throw (.fault fault)
  | none => pure ()

/-- Goes through the items of a walk with a value that each of them changes. -/
def foldM {State α β : Type} (walk : Walk α) (each : β → α → Attempt State β) (first : β) :
    Attempt State β := do
  let last ← walk.items.foldlM each first
  match walk.fault with
  | some fault => throw (.fault fault)
  | none => pure last

end Walk
end ScopeTyping
