import ScopeTyping.Tree.Basic

/-! Building trees from the leaves up. Leaf tokens are laid out one after another
with a gap of one byte, and every other node spans its children, so each node gets a
place in a source text that is never written. -/
namespace ScopeTyping

/-- The nodes built so far and the offset at which the next token starts. -/
structure Builder where
  nodes : Array Node
  offset : Nat

/-- A step of building; it is a fault to refer to a node that was not built before. -/
abbrev Build := StateT Builder (Except Fault)

namespace Builder

/-- Nothing has been built. -/
def empty : Builder := ⟨#[], 0⟩

/-- A node that was built before. -/
def node (builder : Builder) (id : NodeId) : Except Fault Node :=
  match builder.nodes[id.index]? with
  | some found => .ok found
  | none => .error (.missingNode builder.nodes.size id.index)

/-- The span of a token that starts at `offset`. -/
def tokenSpan (offset : Nat) (text : String) : Span :=
  ⟨offset, min (offset + text.utf8ByteSize) Span.limit⟩

/-- The span of a node over its children's spans; without children it is where the
next token starts. -/
def spanOver (offset : Nat) : List Span → Span
  | [] => .point offset
  | first :: rest => rest.foldl Span.cover first

/-- The tree of what has been built, from `root` down. -/
def finish (builder : Builder) (root : NodeId) : Tree := ⟨builder.nodes, root⟩

end Builder

namespace Build

/-- A node that was built before. -/
def node (id : NodeId) : Build Node := do
  (← get).node id

/-- Adds a node behind those that are there. -/
def push (node : Node) : Build NodeId :=
  modifyGet fun builder => (⟨builder.nodes.size⟩, { builder with nodes := builder.nodes.push node })

/-- A leaf that carries source text, laid out behind the leaves that are there. -/
def token (kind : Kind) (text : String) : Build NodeId := do
  let span := Builder.tokenSpan (← get).offset text
  modify fun builder => { builder with offset := min (span.stop + 1) Span.limit }
  push ⟨kind, span, text, []⟩

/-- The span of a node that was built before. -/
def span (id : NodeId) : Build Span := do
  return (← node id).span

/-- A node over children that also carries text of its own. -/
def labelled (kind : Kind) (text : String) (children : List NodeId) : Build NodeId := do
  let spans ← children.mapM span
  push ⟨kind, Builder.spanOver (← get).offset spans, text, children⟩

/-- A node over children. -/
def branch (kind : Kind) (children : List NodeId) : Build NodeId := labelled kind "" children

/-- An expression inside the wrapper that the grammar puts around it, once. -/
def wrap (inner : NodeId) : Build NodeId := do
  if (← node inner).kind = .baseExpression then return inner
  else branch .baseExpression [inner]

/-- A statement inside its slot; simple statements have a wrapper of their own in it. -/
def statement (inner : NodeId) : Build NodeId := do
  match (← node inner).kind with
  | .assignment | .returnStatement | .absoluteExpression =>
    branch .block [← branch .rules [inner]]
  | _ => branch .block [inner]

/-- An indented list of statements. -/
def nestedBlock (statements : List NodeId) : Build NodeId := do
  branch .nestedBlock (← statements.mapM statement)

/-- The root of a story over its statements. -/
def start (statements : List NodeId) : Build NodeId := do
  branch .start (← statements.mapM statement)

end Build

/-- The story of what has been built, with `statements` at its top level. -/
def Builder.story (builder : Builder) (statements : List NodeId) : Except Fault Tree := do
  let (root, built) ← (Build.start statements).run builder
  pure (built.finish root)

end ScopeTyping
