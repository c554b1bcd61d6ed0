import ScopeTyping.Diagnostic.Failure
import ScopeTyping.Scope.Annotations

/-! What typing looks at. Typing reads a tree, the scopes that are open and the nodes
they belong to; the only thing that it may change is the name table. -/
namespace ScopeTyping

/-- A tree together with what is known about its scopes. -/
structure View where
  tree : Tree
  scopes : Forest
  annotations : Annotations

/-- A computation that may give names to texts, and keeps them when it fails. -/
abbrev Typing := Attempt NameTable

/-- The name of a text, handed out now if it has none yet. -/
def Typing.intern (text : String) : Typing Name :=
  modifyGet fun names => names.intern text

/-- The text of a name. -/
def Typing.textOf (name : Name) : Typing String := do
  Attempt.guard ((← get).text name)

namespace View

/-- The node at a place. -/
def node (view : View) (id : NodeId) : Typing Node := Attempt.guard (view.tree.node id)

/-- The first child of a node, which an expression is asked to be. -/
def firstChild (view : View) (parent : NodeId) : Typing NodeId := do
  match (← view.node parent).children with
  | child :: _ => pure child
  | [] => Attempt.malformed view.tree parent .baseExpression

/-- The two children of a node, which are asked to be expressions. -/
def twoChildren (view : View) (parent : NodeId) : Typing (NodeId × NodeId) := do
  match (← view.node parent).children with
  | [first, second] => pure (first, second)
  | _ => Attempt.malformed view.tree parent .baseExpression

/-- The bound that walks down the tree are given: a tree that does not run in circles
is no deeper than it has nodes. -/
def depth (view : View) : Nat := view.tree.size + 1

end View
end ScopeTyping
