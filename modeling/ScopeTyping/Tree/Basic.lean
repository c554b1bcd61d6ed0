import ScopeTyping.Span.Json
import ScopeTyping.Tree.Kind

/-! Stories as trees. All nodes lie in one array and refer to their children by
place, so a tree may share nodes, and a tree that was not built step by step may
name children that are not there; asking for those is a fault. -/
namespace ScopeTyping

/-- The place of a node in its tree. -/
structure NodeId where
  index : Nat
  deriving DecidableEq

/-- A node with the text that it carries and its children in source order. -/
structure Node where
  kind : Kind
  span : Span
  text : String
  children : List NodeId
  deriving DecidableEq

/-- A story: its nodes and the one that the story starts at. -/
structure Tree where
  nodes : Array Node
  root : NodeId

namespace Tree

/-- How many nodes there are. -/
def size (tree : Tree) : Nat := tree.nodes.size

/-- The node at a place. -/
def node (tree : Tree) (id : NodeId) : Except Fault Node :=
  match tree.nodes[id.index]? with
  | some found => .ok found
  | none => .error (.missingNode tree.size id.index)

/-- The kind of the node at a place. -/
def kind (tree : Tree) (id : NodeId) : Except Fault Kind := (tree.node id).map Node.kind

/-- The places among `ids` whose node is of a kind, up to the first place without a node. -/
def ofKind (tree : Tree) (kind : Kind) : List NodeId → Walk NodeId
  | [] => .whole []
  | id :: rest =>
    match tree.kind id with
    | .error fault => .stopped fault
    | .ok found => if found = kind then .cons id (tree.ofKind kind rest) else tree.ofKind kind rest

/-- The children of a kind, in source order. -/
def childrenOfKind (tree : Tree) (id : NodeId) (kind : Kind) : Walk NodeId :=
  match tree.node id with
  | .error fault => .stopped fault
  | .ok found => tree.ofKind kind found.children

/-- The first child of a kind. -/
def child? (tree : Tree) (id : NodeId) (kind : Kind) : Except Fault (Option NodeId) :=
  (tree.childrenOfKind id kind).first?

theorem node_eq_ok_iff {tree : Tree} {id : NodeId} {found : Node} :
    tree.node id = .ok found ↔ tree.nodes[id.index]? = some found := by
  unfold node
  split <;> simp_all

theorem node_of_lt {tree : Tree} {id : NodeId} (inside : id.index < tree.size) :
    tree.node id = .ok tree.nodes[id.index] := by
  simp [node, size] at inside ⊢
  simp [inside]

end Tree
end ScopeTyping
