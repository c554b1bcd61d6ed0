/-! A fault says why a question has no answer at all: it points outside the
structure that it asks about. Faults are kept apart from the errors that a story
itself can contain, because no change to the story mends them.

A walk lists what a traversal met, in order, together with the fault that cut it short,
if one did. Keeping the two side by side lets a consumer that is content with an early
item ignore a fault that lies behind it. -/
namespace ScopeTyping

/-- Why a computation ended without an answer. -/
inductive Fault where
  /-- A node index past the end of a tree of `size` nodes. -/
  | missingNode (size index : Nat)
  /-- A scope number past the end of a forest of `size` scopes. -/
  | missingScope (size index : Nat)
  /-- A name that no text of the name table stands for. -/
  | unknownName
  /-- A length asked of a span that stops before it starts. -/
  | reversedSpan
  /-- A story that was expected to fail and did not; `dump` shows its scopes. -/
  | unexpectedSuccess (dump : String)
  /-- A walk along children or parents that came back to where it had been. -/
  | endless
  deriving DecidableEq

/-- The sentence that reports a fault. -/
def Fault.message : Fault → String
  | .missingNode size index | .missingScope size index =>
    "index out of bounds: the len is " ++ toString size ++ " but the index is " ++ toString index
  | .unknownName => "Key out of bounds"
  | .reversedSpan => "attempt to subtract with overflow"
  | .unexpectedSuccess dump => "expected a semantic error, got scopes:\n" ++ dump
  | .endless => "the walk does not end"

/-- The items met on a walk, and the fault that stands where the next one should. -/
structure Walk (α : Type) where
  items : List α
  fault : Option Fault
  deriving DecidableEq

namespace Walk

/-- A walk that reached its end. -/
def whole {α : Type} (items : List α) : Walk α := ⟨items, none⟩

/-- A walk that met nothing but a fault. -/
def stopped {α : Type} (fault : Fault) : Walk α := ⟨[], some fault⟩

/-- One more item in front of a walk. -/
def cons {α : Type} (item : α) (rest : Walk α) : Walk α := ⟨item :: rest.items, rest.fault⟩

/-- The first walk and, unless it was cut short, the second one after it. -/
def append {α : Type} (first second : Walk α) : Walk α :=
  match first.fault with
  | some _ => first
  | none => ⟨first.items ++ second.items, second.fault⟩

/-- The walks of the pieces one after another, up to the first fault. -/
def concat {α : Type} : List (Walk α) → Walk α
  | [] => whole []
  | piece :: rest => piece.append (concat rest)

/-- All items of a walk that reached its end. -/
def toExcept {α : Type} (walk : Walk α) : Except Fault (List α) :=
  match walk.fault with
  | some fault => .error fault
  | none => .ok walk.items

/-- The first answer that `probe` gives; a fault counts only if the walk gets to it. -/
def findSome? {α β : Type} (probe : α → Option β) (walk : Walk α) : Except Fault (Option β) :=
  match walk.items.findSome? probe with
  | some found => .ok (some found)
  | none => match walk.fault with
    | some fault => .error fault
    | none => .ok none

/-- The first item; a fault counts only if no item comes before it. -/
def first? {α : Type} (walk : Walk α) : Except Fault (Option α) := walk.findSome? some

@[simp] theorem items_whole {α : Type} (items : List α) : (whole items).items = items := rfl

@[simp] theorem fault_whole {α : Type} (items : List α) : (whole items).fault = none := rfl

@[simp] theorem first?_cons {α : Type} (item : α) (rest : Walk α) :
    (cons item rest).first? = .ok (some item) := rfl

theorem append_whole_nil {α : Type} (walk : Walk α) : walk.append (whole []) = walk := by
  rcases walk with ⟨items, fault⟩
  cases fault <;> simp [append, whole]

end Walk

end ScopeTyping
