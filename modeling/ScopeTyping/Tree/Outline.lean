import ScopeTyping.Tree.Basic

/-! The shape of a story without its places: kinds and texts, nested as the tree
nests them, and the indented text that shows a shape line by line. -/
namespace ScopeTyping

/-- A node of a story with everything below it unfolded. -/
inductive Outline where
  | node (kind : Kind) (text : String) (children : List Outline)

/-- The shape below a node; the first argument bounds how deep the tree may be. -/
def Tree.unfold (tree : Tree) : Nat → NodeId → Except Fault Outline
  | 0, _ => .error .endless
  | depth + 1, id => do
    let found ← tree.node id
    let children ← found.children.mapM (tree.unfold depth)
    pure (.node found.kind found.text children)

namespace Outline

/-- The line of a node: two spaces for each level above it, its kind, and behind a
space its text, if it has one. -/
def line (depth : Nat) (kind : Kind) (text : String) : String :=
  String.join (List.replicate depth "  ") ++ kind.ruleName ++
    (if text = "" then "" else " " ++ text)

mutual
/-- The lines of a shape, each node before its children. -/
def lines (depth : Nat) : Outline → List String
  | .node kind text children => line depth kind text :: linesOfAll (depth + 1) children
/-- The lines of shapes that stand side by side. -/
def linesOfAll (depth : Nat) : List Outline → List String
  | [] => []
  | shape :: rest => lines depth shape ++ linesOfAll depth rest
end

/-- The text of a shape: its lines, each with a line end. -/
def text (shape : Outline) : String := String.join ((shape.lines 0).map (· ++ "\n"))

end Outline

/-- The shape of a whole story. A tree that does not run in circles is no deeper
than it has nodes. -/
def Tree.shape (tree : Tree) : Except Fault Outline := tree.unfold (tree.size + 1) tree.root

/-- The indented text of a whole story. -/
def Tree.outline (tree : Tree) : Except Fault String := tree.shape.map Outline.text

end ScopeTyping
