import ScopeTyping.Typing.Rules

/-! What the pass knows at each moment, and the journal that it keeps. The journal
holds every step that changed what was known and every question that was asked, each
with what was known right after it, so that a whole run can be looked at afterwards. -/
namespace ScopeTyping

/-- What is known at one moment of a run. -/
structure Snapshot where
  names : NameTable
  scopes : Forest
  annotations : Annotations

/-- Nothing but some names is known. -/
def Snapshot.initial (names : NameTable) : Snapshot := ⟨names, .empty, .empty⟩

/-- What a moment shows of a tree. -/
def Snapshot.view (snapshot : Snapshot) (tree : Tree) : View :=
  ⟨tree, snapshot.scopes, snapshot.annotations⟩

/-- The scopes of a moment and the nodes they belong to. -/
def Snapshot.resolution (snapshot : Snapshot) : Resolution :=
  ⟨snapshot.scopes, snapshot.annotations⟩

/-- A question to the rules. -/
inductive Call where
  | path (node : NodeId) (scope : ScopeId) (mustExist : Bool)
  | expression (node : NodeId) (scope : ScopeId)
  | declared (node : NodeId)
  | returns (body : NodeId) (scope : ScopeId) (declared : Ty)

/-- The answer to a question. -/
inductive Answer where
  | type (ty : Ty)
  | accepted
  | refused (error : SemanticError)

/-- A step of a run. -/
inductive Event where
  /-- A node is about to be visited in a scope. -/
  | visited (node : NodeId) (scope : ScopeId)
  /-- A scope was opened. -/
  | opened (scope : ScopeId)
  /-- A scope was attached to a node. -/
  | attached (node : NodeId) (scope : ScopeId)
  /-- A symbol was bound in a scope. -/
  | bound (scope : ScopeId) (symbol : Symbol)
  /-- The names that a scope's header binds are all bound. -/
  | ready (scope : ScopeId)
  /-- A question was answered. -/
  | asked (call : Call) (answer : Answer)

/-- A step of a run with what was known right after it. -/
structure Moment where
  event : Event
  known : Snapshot

/-- The state of a run: what is known now, and the journal, its newest moment first. -/
structure Progress where
  known : Snapshot
  journal : List Moment

/-- A part of the pass. -/
abbrev Pass := Attempt Progress

namespace Pass

/-- What is known now. -/
def known : Pass Snapshot := return (← get).known

/-- Adds a step to the journal. -/
def record (event : Event) : Pass Unit :=
  modify fun progress =>
    { progress with journal := ⟨event, progress.known⟩ :: progress.journal }

/-- Changes what is known. -/
def update (change : Snapshot → Snapshot) : Pass Unit :=
  modify fun progress => { progress with known := change progress.known }

/-- Asks a question: names that the answer needed are kept, and so is the answer, unless
there was none. -/
def ask {α : Type} (tree : Tree) (call : Call) (answer : α → Answer) (question : View → Typing α) :
    Pass α := do
  let now ← known
  let (outcome, names) := (question (now.view tree)).outcome now.names
  update fun snapshot => { snapshot with names }
  match outcome with
  | .ok value =>
    record (.asked call (answer value))
    pure value
  | .error (.error error) =>
    record (.asked call (.refused error))
    throw (.error error)
  | .error (.fault fault) => throw (.fault fault)

/-- Opens a scope. -/
def openScope (parent : Option ScopeId) (kind : ScopeKind) : Pass ScopeId := do
  let (scope, scopes) := (← known).scopes.create parent kind
  update fun snapshot => { snapshot with scopes }
  record (.opened scope)
  pure scope

/-- Attaches a scope to a node, which must not have one. -/
def attach (tree : Tree) (node : NodeId) (scope : ScopeId) : Pass Unit := do
  match (← known).annotations.attach? node scope with
  | some annotations =>
    update fun snapshot => { snapshot with annotations }
    record (.attached node scope)
  | none =>
    Attempt.report tree node (.scopeAlreadyAttached (← Attempt.guard (tree.kind node)))

/-- Binds the text of a node in a scope. -/
def bind (tree : Tree) (scope : ScopeId) (id : NodeId) (ty : Ty) : Pass Unit := do
  let node ← Attempt.guard (tree.node id)
  let (name, names) := (← known).names.intern node.text
  update fun snapshot => { snapshot with names }
  let (_, scopes) ← Attempt.guard ((← known).scopes.insert scope ⟨name, ty⟩)
  update fun snapshot => { snapshot with scopes }
  record (.bound scope ⟨name, ty⟩)

end Pass
end ScopeTyping
