import Mathlib.Data.List.Forall2
import ScopeTyping.Tree.Basic

/-! Programs without places. A tree says where each node lies and what stands around it; the
syntax here keeps only what was written. `ExprAt`, `WrittenAt` and `PartAt` relate the two: they
say at which nodes an expression, a written type or a part of a program stands, wrappers and
slots included. -/
namespace ScopeTyping

/-! ### Syntax -/

/-- A type as it is written: a base name and the types in brackets behind it. -/
inductive Written where
  | mk (base : String) (args : List Written)

/-- A step of a path from a value to a part of it. -/
inductive Key (α : Type) where
  | field (name : String)
  | index (value : α)

/-- An expression. The wrapper that the grammar puts around expressions is part of the syntax,
for it may be written where it is not needed. -/
inductive Expr where
  | literal (kind : Kind) (text : String)
  | wrapped (inner : Expr)
  | list (items : List Expr)
  | map (entries : List (Expr × Expr))
  | path (head : String) (keys : List (Key Expr))
  | binary (op : String) (left right : Expr)
  | unary (op : String) (operand : Expr)

/-- How a construct begins whose body belongs to the scope around it. -/
inductive Header where
  | ifBlock (condition : Expr)
  | elseifBlock (condition : Expr)
  | elseBlock
  | whileBlock (condition : Expr)
  | whenBlock (subject : Expr)
  | tryBlock

/-- How a construct begins whose body has a scope of its own. -/
inductive Opening where
  | block
  | catchBlock (binding : Option String)
  | finallyBlock
  | foreachBlock (iterable : Expr) (names : List String)
  | functionBlock (name : String) (params : List (String × Written)) (output : Option Written)

/-- A statement, or a branch or a handler of one. Only an `if` and a `try` have branches. -/
inductive Part where
  | assignment (head : String) (keys : List (Key Expr)) (value : Expr)
  | returned (value : Option Expr)
  | evaluated (value : Expr)
  | shared (header : Header) (body branches : List Part)
  | scoped (opening : Opening) (body : List Part)

/-- The expression inside the wrapper, if it has one. -/
def Expr.core : Expr → Expr
  | .wrapped inner => inner
  | bare => bare

/-- Kinds of leaves that are expressions. -/
def Kind.isLiteral : Kind → Bool
  | .number | .string | .boolean | .time | .regexp | .void => true
  | _ => false

namespace Header

/-- The kind of node that the construct is. -/
def kind : Header → Kind
  | ifBlock _ => .ifBlock
  | elseifBlock _ => .elseifBlock
  | elseBlock => .elseBlock
  | whileBlock _ => .whileBlock
  | whenBlock _ => .whenBlock
  | tryBlock => .tryBlock

/-- The node in front of the body with the expression that it holds. -/
def opener? : Header → Option (Kind × Expr)
  | ifBlock condition => some (.ifStatement, condition)
  | elseifBlock condition => some (.elseifStatement, condition)
  | whileBlock condition => some (.whileStatement, condition)
  | whenBlock subject => some (.whenStatement, subject)
  | elseBlock | tryBlock => none

/-- Whether branches may stand behind the body. -/
def branches : Header → Bool
  | ifBlock _ | tryBlock => true
  | _ => false

end Header

/-- The kind of node that a construct is which has a header of its own and a body. -/
def Opening.headed? : Opening → Option Kind
  | foreachBlock .. => some .foreachBlock
  | functionBlock .. => some .functionBlock
  | _ => none

/-! ### Where programs stand -/

/-- The node at a place, but for its span. -/
def Shows (nodes : Array Node) (id : NodeId) (kind : Kind) (text : String)
    (children : List NodeId) : Prop :=
  ∃ span, nodes[id.index]? = some ⟨kind, span, text, children⟩

section
variable (nodes : Array Node)

/-- An identifier stands at a node. -/
def NameAt (text : String) (id : NodeId) : Prop := Shows nodes id .name text []

/-- A written type stands at a node. -/
inductive WrittenAt : Written → NodeId → Prop where
  | mk {id : NodeId} {base : String} {ids : List NodeId} {args : List Written}
      (shows : Shows nodes id .types base ids) (inner : List.Forall₂ WrittenAt args ids) :
      WrittenAt (.mk base args) id

/-- An entry of a map stands at a node, given where expressions stand. -/
inductive EntryAt (stands : Expr → NodeId → Prop) : Expr × Expr → NodeId → Prop where
  | mk {id left right : NodeId} {key value : Expr} (shows : Shows nodes id .mapItem "" [left, right])
      (first : stands key left) (second : stands value right) : EntryAt stands (key, value) id

/-- A step of a path stands at a node, given where expressions stand. -/
inductive KeyAt (stands : Expr → NodeId → Prop) : Key Expr → NodeId → Prop where
  | field {id name : NodeId} {text : String} (shows : Shows nodes id .pathFragment "" [name])
      (named : NameAt nodes text name) : KeyAt stands (.field text) id
  | index {id innerId : NodeId} {value : Expr} (shows : Shows nodes id .pathFragment "" [innerId])
      (inner : stands value innerId) : KeyAt stands (.index value) id

/-- An expression stands at a node. -/
inductive ExprAt : Expr → NodeId → Prop where
  | literal {id : NodeId} {kind : Kind} {text : String} (shows : Shows nodes id kind text [])
      (leaf : kind.isLiteral = true) : ExprAt (.literal kind text) id
  | wrapped {id innerId : NodeId} {expr : Expr} (shows : Shows nodes id .baseExpression "" [innerId])
      (inner : ExprAt expr innerId) : ExprAt (.wrapped expr) id
  | list {id : NodeId} {ids : List NodeId} {items : List Expr} (shows : Shows nodes id .list "" ids)
      (inner : List.Forall₂ ExprAt items ids) : ExprAt (.list items) id
  | map {id : NodeId} {ids : List NodeId} {entries : List (Expr × Expr)}
      (shows : Shows nodes id .map "" ids)
      (inner : List.Forall₂ (EntryAt nodes ExprAt) entries ids) : ExprAt (.map entries) id
  | path {id name : NodeId} {ids : List NodeId} {head : String} {keys : List (Key Expr)}
      (shows : Shows nodes id .path "" (name :: ids)) (named : NameAt nodes head name)
      (inner : List.Forall₂ (KeyAt nodes ExprAt) keys ids) : ExprAt (.path head keys) id
  | binary {id leftId rightId : NodeId} {op : String} {left right : Expr}
      (shows : Shows nodes id .binaryExpression op [leftId, rightId])
      (first : ExprAt left leftId) (second : ExprAt right rightId) :
      ExprAt (.binary op left right) id
  | unary {id innerId : NodeId} {op : String} {operand : Expr}
      (shows : Shows nodes id .unaryExpression op [innerId]) (inner : ExprAt operand innerId) :
      ExprAt (.unary op operand) id

/-- Nodes stand in front of the body of a construct that shares the scope around it. -/
inductive HeaderAt : Header → List NodeId → Prop where
  | silent {header : Header} (silent : header.opener? = none) : HeaderAt header []
  | opener {id innerId : NodeId} {header : Header} {kind : Kind} {expr : Expr}
      (opener : header.opener? = some (kind, expr)) (shows : Shows nodes id kind "" [innerId])
      (inner : ExprAt nodes (.wrapped expr) innerId) : HeaderAt header [id]

/-- A parameter of a function stands at a node. -/
inductive ParameterAt : String × Written → NodeId → Prop where
  | mk {id name types : NodeId} {text : String} {written : Written}
      (shows : Shows nodes id .typedArgument "" [name, types]) (named : NameAt nodes text name)
      (typed : WrittenAt nodes written types) : ParameterAt (text, written) id

/-- The type that a function returns stands at a node. -/
inductive OutputAt : Written → NodeId → Prop where
  | mk {id types : NodeId} {written : Written} (shows : Shows nodes id .functionOutput "" [types])
      (typed : WrittenAt nodes written types) : OutputAt written id

/-- A node stands in front of the body of a construct that has a scope of its own. -/
inductive OpeningAt : Opening → NodeId → Prop where
  | foreachBlock {id innerId output : NodeId} {ids : List NodeId} {iterable : Expr}
      {names : List String} (shows : Shows nodes id .foreachStatement "" [innerId, output])
      (inner : ExprAt nodes (.wrapped iterable) innerId) (outputs : Shows nodes output .output "" ids)
      (named : List.Forall₂ (NameAt nodes) names ids) : OpeningAt (.foreachBlock iterable names) id
  | functionBlock {id name : NodeId} {paramIds outputIds : List NodeId} {text : String}
      {params : List (String × Written)} {output : Option Written}
      (shows : Shows nodes id .functionStatement "" (name :: (paramIds ++ outputIds)))
      (named : NameAt nodes text name)
      (parameters : List.Forall₂ (ParameterAt nodes) params paramIds)
      (returns : List.Forall₂ (OutputAt nodes) output.toList outputIds) :
      OpeningAt (.functionBlock text params output) id

/-- A part of a program stands at a node, or in the slot that the node is. -/
inductive PartAt : Part → NodeId → Prop where
  | slot {id innerId : NodeId} {kind : Kind} {part : Part} (shows : Shows nodes id kind "" [innerId])
      (slot : kind = .block ∨ kind = .rules) (inner : PartAt part innerId) : PartAt part id
  | assignment {id target fragment innerId : NodeId} {head : String} {keys : List (Key Expr)}
      {value : Expr} (shows : Shows nodes id .assignment "" [target, fragment])
      (left : ExprAt nodes (.path head keys) target)
      (right : Shows nodes fragment .assignmentFragment "" [innerId])
      (inner : ExprAt nodes (.wrapped value) innerId) : PartAt (.assignment head keys value) id
  | returned {id : NodeId} {ids : List NodeId} {value : Option Expr}
      (shows : Shows nodes id .returnStatement "" ids)
      (inner : List.Forall₂ (ExprAt nodes) (value.map Expr.wrapped).toList ids) :
      PartAt (.returned value) id
  | evaluated {id innerId : NodeId} {value : Expr}
      (shows : Shows nodes id .absoluteExpression "" [innerId])
      (inner : ExprAt nodes (.wrapped value) innerId) : PartAt (.evaluated value) id
  | shared {id bodyId : NodeId} {heads slots branchIds : List NodeId} {header : Header}
      {body branches : List Part}
      (shows : Shows nodes id header.kind "" (heads ++ bodyId :: branchIds))
      (headed : HeaderAt nodes header heads) (branched : header.branches = false → branches = [])
      (held : Shows nodes bodyId .nestedBlock "" slots) (inner : List.Forall₂ PartAt body slots)
      (others : List.Forall₂ PartAt branches branchIds) :
      PartAt (.shared header body branches) id
  | block {id : NodeId} {slots : List NodeId} {body : List Part}
      (shows : Shows nodes id .nestedBlock "" slots) (inner : List.Forall₂ PartAt body slots) :
      PartAt (.scoped .block body) id
  | catchBlock {id header bodyId : NodeId} {ids : List NodeId} {binding : Option String}
      {body : List Part} (shows : Shows nodes id .catchBlock "" [header, bodyId])
      (caught : Shows nodes header .catchStatement "" ids)
      (named : List.Forall₂ (NameAt nodes) binding.toList ids)
      (inner : PartAt (.scoped .block body) bodyId) : PartAt (.scoped (.catchBlock binding) body) id
  | finallyBlock {id bodyId : NodeId} {body : List Part}
      (shows : Shows nodes id .finallyBlock "" [bodyId])
      (inner : PartAt (.scoped .block body) bodyId) : PartAt (.scoped .finallyBlock body) id
  | opening {id header bodyId : NodeId} {slots : List NodeId} {kind : Kind} {opening : Opening}
      {body : List Part} (headed : opening.headed? = some kind)
      (shows : Shows nodes id kind "" [header, bodyId]) (opened : OpeningAt nodes opening header)
      (held : Shows nodes bodyId .nestedBlock "" slots) (inner : List.Forall₂ PartAt body slots) :
      PartAt (.scoped opening body) id

end

/-- A program stands at a story. -/
def ProgramAt (nodes : Array Node) (program : List Part) (root : NodeId) : Prop :=
  ∃ slots, Shows nodes root .start "" slots ∧ List.Forall₂ (PartAt nodes) program slots

end ScopeTyping
