import ScopeTyping.Pass.Journal

/-! The pass itself: which scope each construct's parts see. Stories, indented blocks,
loops over collections and functions open a scope; the bodies of conditionals, of
`while`, of `when` and of `try` share the scope around them; functions see nothing
around them. Every handler is given how to visit the nodes below its own.

A whole run goes from some names and no scopes to a resolution of the story, or to the first
failure, with the names and the journal that it leaves behind. -/
namespace ScopeTyping

/-- A pass over a tree by given rules. -/
structure Resolver where
  tree : Tree
  rules : Rules

namespace Resolver

/-- How to visit a node in a scope. -/
abbrev Visit := NodeId → ScopeId → Pass Unit

/-- The node at a place. -/
def node (resolver : Resolver) (id : NodeId) : Pass Node :=
  Attempt.guard (resolver.tree.node id)

/-- The first child of a kind, if there is one. -/
def child? (resolver : Resolver) (parent : NodeId) (kind : Kind) : Pass (Option NodeId) :=
  Attempt.guard (resolver.tree.child? parent kind)

/-- The first child of a kind, which the grammar asks for. -/
def requiredChild (resolver : Resolver) (parent : NodeId) (kind : Kind) : Pass NodeId :=
  Attempt.requiredChild resolver.tree parent kind

/-- The symbol of a path. -/
def path (resolver : Resolver) (id : NodeId) (scope : ScopeId) (mustExist : Bool) : Pass Symbol :=
  Pass.ask resolver.tree (.path id scope mustExist) (fun symbol => .type symbol.ty) fun view =>
    resolver.rules.path view scope id mustExist

/-- The type of an expression. -/
def expression (resolver : Resolver) (id : NodeId) (scope : ScopeId) : Pass Ty :=
  Pass.ask resolver.tree (.expression id scope) .type fun view =>
    resolver.rules.expression view scope id

/-- The type that a node writes down. -/
def declared (resolver : Resolver) (id : NodeId) : Pass Ty :=
  Pass.ask resolver.tree (.declared id) .type fun view =>
    resolver.rules.declared view id

/-- Checks the returns of a body. -/
def checkReturns (resolver : Resolver) (body : NodeId) (scope : ScopeId) (ty : Ty) : Pass Unit :=
  Pass.ask resolver.tree (.returns body scope ty) (fun _ => .accepted) fun view =>
    resolver.rules.returns view body scope ty

/-- Visits the children of a node in one scope. -/
def visitChildren (resolver : Resolver) (visit : Visit) (id : NodeId) (scope : ScopeId) :
    Pass Unit := do
  (← resolver.node id).children.forM fun child => visit child scope

/-- Visits the statements of a construct's body in one scope, and answers with the body. -/
def visitBody (resolver : Resolver) (visit : Visit) (id : NodeId) (scope : ScopeId) :
    Pass NodeId := do
  let body ← resolver.requiredChild id .nestedBlock
  resolver.visitChildren visit body scope
  pure body

/-- Visits the children of a construct that come after its body. -/
def visitAfter (resolver : Resolver) (visit : Visit) (id body : NodeId) (scope : ScopeId) :
    Pass Unit := do
  let children := (← resolver.node id).children
  ((children.dropWhile (· != body)).drop 1).forM fun child => visit child scope

/-- Opens a scope for a node and visits its children in it. -/
def enclose (resolver : Resolver) (visit : Visit) (id : NodeId) (parent : Option ScopeId)
    (kind : ScopeKind) : Pass Unit := do
  let inner ← Pass.openScope parent kind
  Pass.record (.ready inner)
  Pass.attach resolver.tree id inner
  resolver.visitChildren visit id inner

/-- A story opens a scope that sees nothing around it. -/
def start (resolver : Resolver) (visit : Visit) (id : NodeId) : Pass Unit :=
  resolver.enclose visit id none .root

/-- An indented block opens a scope inside the one around it. -/
def nestedBlock (resolver : Resolver) (visit : Visit) (id : NodeId) (scope : ScopeId) :
    Pass Unit :=
  resolver.enclose visit id (some scope) .block

/-- Types the two sides of an assignment; answers with the path, the variable that it
leads to and the type of the value. -/
def sides (resolver : Resolver) (id : NodeId) (scope : ScopeId) :
    Pass (NodeId × Symbol × Ty) := do
  let path ← resolver.requiredChild id .path
  let target ← resolver.path path scope false
  let fragment ← resolver.requiredChild id .assignmentFragment
  let value ← resolver.requiredChild fragment .baseExpression
  let found ← resolver.expression value scope
  pure (path, target, found)

/-- An assignment binds a variable that is not visible yet to the type of the value; one
that is visible has to accept the value and keeps its type. -/
def assignment (resolver : Resolver) (visit : Visit) (id : NodeId) (scope : ScopeId) :
    Pass Unit := do
  let (path, target, found) ← resolver.sides id scope
  if target.ty.isAbsent then
    let head ← resolver.requiredChild path .name
    Pass.bind resolver.tree scope head (if found.isAbsent then .any else found)
  else unless target.ty.accepts found do
    Attempt.report resolver.tree id (.typeAssignmentDifferent target.ty found)
  resolver.visitChildren visit id scope

/-- Binds the variables that the header of a loop names, whose types are not tracked, and
visits the body of the loop in the scope that they stand in. -/
def loopBody (resolver : Resolver) (visit : Visit) (id header : NodeId) (scope : ScopeId) :
    Pass Unit := do
  let output ← resolver.requiredChild header .output
  (resolver.tree.childrenOfKind output .name).forEach fun name =>
    Pass.bind resolver.tree scope name .any
  Pass.record (.ready scope)
  discard (resolver.visitBody visit id scope)

/-- A loop over a collection opens a scope for its variables and its body. -/
def foreachBlock (resolver : Resolver) (visit : Visit) (id : NodeId) (scope : ScopeId) :
    Pass Unit := do
  let inner ← Pass.openScope (some scope) .loop
  Pass.attach resolver.tree id inner
  let header ← resolver.requiredChild id .foreachStatement
  if let some iterable ← resolver.child? header .baseExpression then
    discard (resolver.expression iterable scope)
  resolver.loopBody visit id header inner

/-- Types the condition that a header of the given kind holds. -/
def condition (resolver : Resolver) (header : Kind) (id : NodeId) (scope : ScopeId) :
    Pass Unit := do
  let header ← resolver.requiredChild id header
  let condition ← resolver.requiredChild header .baseExpression
  discard (resolver.expression condition scope)

/-- Visits the body of a construct and then its branches, all in the scope around it. -/
def branching (resolver : Resolver) (visit : Visit) (id : NodeId) (scope : ScopeId) :
    Pass Unit := do
  let body ← resolver.visitBody visit id scope
  resolver.visitAfter visit id body scope

/-- A conditional types its condition before its body and its branches are visited. -/
def ifBlock (resolver : Resolver) (visit : Visit) (id : NodeId) (scope : ScopeId) :
    Pass Unit := do
  resolver.condition .ifStatement id scope
  resolver.branching visit id scope

/-- A branch with a condition of its own. -/
def elseifBlock (resolver : Resolver) (visit : Visit) (id : NodeId) (scope : ScopeId) :
    Pass Unit := do
  resolver.condition .elseifStatement id scope
  discard (resolver.visitBody visit id scope)

/-- A `try` visits its body and then its handlers in the scope around it. -/
def tryBlock (resolver : Resolver) (visit : Visit) (id : NodeId) (scope : ScopeId) :
    Pass Unit :=
  resolver.branching visit id scope

/-- Binds a parameter of a function to the type written for it. -/
def parameter (resolver : Resolver) (scope : ScopeId) (id : NodeId) : Pass Unit := do
  let name ← resolver.requiredChild id .name
  let types ← resolver.requiredChild id .types
  let ty ← resolver.declared types
  Pass.bind resolver.tree scope name ty

/-- The type that a signature says is returned; without a word on it, any is. -/
def returnType (resolver : Resolver) (signature : NodeId) : Pass Ty := do
  match ← resolver.child? signature .functionOutput with
  | some output => resolver.declared (← resolver.requiredChild output .types)
  | none => pure .any

/-- Opens the scope of a function, which sees nothing around it, and binds the
parameters; answers with the scope and the type that is returned. -/
def signature (resolver : Resolver) (id : NodeId) : Pass (ScopeId × Ty) := do
  let scope ← Pass.openScope none .function
  (resolver.tree.childrenOfKind id .typedArgument).forEach (resolver.parameter scope)
  Pass.record (.ready scope)
  let ty ← resolver.returnType id
  pure (scope, ty)

/-- A function is visited in a scope of its own, and then its returns are checked. -/
def functionBlock (resolver : Resolver) (visit : Visit) (id : NodeId) : Pass Unit := do
  let header ← resolver.requiredChild id .functionStatement
  let (scope, ty) ← resolver.signature header
  Pass.attach resolver.tree id scope
  let body ← resolver.visitBody visit id scope
  resolver.checkReturns body scope ty

/-- Handles a node by its kind. Kinds without a rule of their own hand their scope on to
their children. -/
def handle (resolver : Resolver) (visit : Visit) (id : NodeId) (scope : ScopeId) :
    Pass Unit := do
  match (← resolver.node id).kind with
  | .start => resolver.start visit id
  | .nestedBlock => resolver.nestedBlock visit id scope
  | .assignment => resolver.assignment visit id scope
  | .foreachBlock => resolver.foreachBlock visit id scope
  | .whileBlock | .whenBlock | .elseBlock => discard (resolver.visitBody visit id scope)
  | .ifBlock => resolver.ifBlock visit id scope
  | .elseifBlock => resolver.elseifBlock visit id scope
  | .tryBlock => resolver.tryBlock visit id scope
  | .functionBlock => resolver.functionBlock visit id
  | _ => resolver.visitChildren visit id scope

/-- Visits a node, given how to visit the nodes below it. -/
def visitWith (resolver : Resolver) (visit : Visit) (id : NodeId) (scope : ScopeId) :
    Pass Unit := do
  Pass.record (.visited id scope)
  resolver.handle visit id scope

/-- Visits a node with no more than so many levels below it. -/
def visitWithin (resolver : Resolver) : Nat → Visit
  | 0, _, _ => throw (.fault .endless)
  | depth + 1, id, scope => resolver.visitWith (resolver.visitWithin depth) id scope

/-- Visits a node in a scope. A tree that does not run in circles is no deeper than it
has nodes. -/
def visit (resolver : Resolver) : Visit := resolver.visitWithin (resolver.tree.size + 1)

end Resolver

/-- What a run leaves behind, its journal in the order in which things happened. -/
structure Run where
  outcome : Except Failure Resolution
  names : NameTable
  journal : List Moment

namespace Resolver

/-- Visits the whole tree, which has to be a story. -/
def visitStory (resolver : Resolver) : Pass Unit := do
  let root := resolver.tree.root
  let kind := (← resolver.node root).kind
  if kind = .start then resolver.start resolver.visit root
  else Attempt.malformed resolver.tree root .start

/-- Runs the pass with the names of a table. -/
def run (resolver : Resolver) (names : NameTable) : Run :=
  let (outcome, progress) := resolver.visitStory.outcome ⟨.initial names, []⟩
  { outcome := outcome.map fun _ => progress.known.resolution
    names := progress.known.names
    journal := progress.journal.reverse }

end Resolver

namespace Run

/-- The questions of a run with their answers, in the order of the answers. -/
def calls (run : Run) : List (Call × Answer) :=
  run.journal.filterMap fun moment => match moment.event with
    | .asked call answer => some (call, answer)
    | _ => none

end Run

/-- Resolves a story by the rules of the language, with the names of a table. -/
def Tree.resolve (tree : Tree) (names : NameTable) : Run :=
  (Resolver.mk tree .standard).run names

end ScopeTyping
