import ScopeTyping.Numeral
import ScopeTyping.Typing.Path

/-! The types of expressions. An expression is typed from its parts, in the order in
which they are written, and the first part that has no type decides the error.

The types that stories write down are read from their arguments outwards, so an unknown
argument is reported before an unknown base name. -/
namespace ScopeTyping
namespace Typing

/-- The types of the key and the value of a map's entry. -/
def entry (view : View) (typeOf : NodeId → Typing Ty) (id : NodeId) : Typing (Ty × Ty) := do
  let (key, value) ← view.twoChildren id
  let key ← typeOf key
  let value ← typeOf value
  pure (key, value)

/-- The type of an operator between two operands. -/
def binary (view : View) (typeOf : NodeId → Typing Ty) (id : NodeId) (symbol : String) :
    Typing Ty := do
  match BinaryOp.ofSymbol? symbol with
  | none => Attempt.report view.tree id (.operatorUnknown symbol)
  | some op =>
    let (left, right) ← view.twoChildren id
    let left ← typeOf left
    let right ← typeOf right
    match op.resultType left right with
    | some ty => pure ty
    | none => Attempt.report view.tree id (.typeOperationIncompatible op.symbol left right)

/-- The type of an operator in front of one operand. -/
def unary (view : View) (typeOf : NodeId → Typing Ty) (id : NodeId) (symbol : String) :
    Typing Ty := do
  match UnaryOp.ofSymbol? symbol with
  | none => Attempt.report view.tree id (.operatorUnknown symbol)
  | some op =>
    let operand ← typeOf (← view.firstChild id)
    match op.resultType operand with
    | some ty => pure ty
    | none => Attempt.report view.tree id (.typeUnaryIncompatible op.symbol operand)

/-- The type of an expression, given how to type the expressions inside it. -/
def expressionWith (view : View) (scope : ScopeId) (typeOf : NodeId → Typing Ty) (id : NodeId) :
    Typing Ty := do
  let node ← view.node id
  match node.kind with
  | .baseExpression | .expression => typeOf (← view.firstChild id)
  | .number => pure (if Literal.isFloat node.text then .float else .int)
  | .string => pure .string
  | .boolean => pure .boolean
  | .time => pure .time
  | .regexp => pure .regexp
  | .void => pure .any
  | .list => return .list (.joinAll (← node.children.mapM typeOf))
  | .map =>
    let entries ← (view.tree.childrenOfKind id .mapItem).mapM (entry view typeOf)
    pure (.map (.joinAll (entries.map Prod.fst)) (.joinAll (entries.map Prod.snd)))
  | .path => return (← pathWith view scope typeOf id true).ty
  | .binaryExpression => binary view typeOf id node.text
  | .unaryExpression => unary view typeOf id node.text
  | kind => Attempt.report view.tree id (.notAnExpression kind)

/-- The type of an expression that is nested no deeper than the bound. -/
def expressionWithin (view : View) (scope : ScopeId) : Nat → NodeId → Typing Ty
  | 0, _ => throw (.fault .endless)
  | depth + 1, id => expressionWith view scope (expressionWithin view scope depth) id

/-- The type of an expression as seen from a scope. -/
def expression (view : View) (scope : ScopeId) (id : NodeId) : Typing Ty :=
  expressionWithin view scope view.depth id

/-- The symbol of a path as seen from a scope. -/
def path (view : View) (scope : ScopeId) (id : NodeId) (mustExist : Bool) : Typing Symbol :=
  pathWith view scope (expression view scope) id mustExist

/-- How an unknown written type is shown: its base name, with the number of its
arguments if it has any. -/
def unknownTypeName (base : String) (arity : Nat) : String :=
  if arity = 0 then base else base ++ "[" ++ toString arity ++ " arguments]"

/-- The type that a node writes down, given how to read its type arguments. -/
def declaredWith (view : View) (declaredBy : NodeId → Typing Ty) (id : NodeId) : Typing Ty := do
  let args ← (view.tree.childrenOfKind id .types).mapM declaredBy
  let base := (← view.node id).text
  match Ty.ofSignature? base args with
  | some ty => pure ty
  | none => Attempt.report view.tree id (.typeNameUnknown (unknownTypeName base args.length))

/-- The type that a node writes down, nested no deeper than the bound. -/
def declaredWithin (view : View) : Nat → NodeId → Typing Ty
  | 0, _ => throw (.fault .endless)
  | depth + 1, id => declaredWith view (declaredWithin view depth) id

/-- The type that a node writes down. -/
def declared (view : View) (id : NodeId) : Typing Ty := declaredWithin view view.depth id

end Typing
end ScopeTyping
