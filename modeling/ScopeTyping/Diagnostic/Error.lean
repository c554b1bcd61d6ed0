import ScopeTyping.Tree.Basic
import ScopeTyping.Ty.Operator

/-! The errors that a story can contain. An error is a cause at a node; its code, its
sentence, its label and the help that goes with it are read off the cause and the span
of the node. -/
namespace ScopeTyping

/-- What is wrong with a story. -/
inductive Cause where
  /-- A variable of type `target` is given a value of type `source`. -/
  | typeAssignmentDifferent (target source : Ty)
  /-- No visible scope binds the variable; `suggestions` are close names that are bound. -/
  | unresolvedVariable (name : String) (suggestions : List String)
  /-- A function that declares `expected` returns `found`. -/
  | returnTypeMismatch (expected found : Ty)
  | typeOperationIncompatible (op : String) (left right : Ty)
  | typeUnaryIncompatible (op : String) (operand : Ty)
  /-- An index or a field of a value that has none. -/
  | typeIndexIncompatible (ty : Ty)
  /-- A written type that is no type. -/
  | typeNameUnknown (name : String)
  | operatorUnknown (op : String)
  | notAnExpression (kind : Kind)
  /-- A node of kind `parent` without the child that its grammar rule asks for. -/
  | malformedTree (parent expected : Kind)
  /-- A node that would get a second scope. -/
  | scopeAlreadyAttached (kind : Kind)
  deriving DecidableEq

namespace Cause

/-- The stable word for a kind of error. -/
def code : Cause → String
  | typeAssignmentDifferent .. => "type_assignment_different"
  | unresolvedVariable .. => "unresolved_variable"
  | returnTypeMismatch .. => "return_type_mismatch"
  | typeOperationIncompatible .. => "type_operation_incompatible"
  | typeUnaryIncompatible .. => "type_unary_incompatible"
  | typeIndexIncompatible .. => "type_index_incompatible"
  | typeNameUnknown .. => "type_name_unknown"
  | operatorUnknown .. => "operator_unknown"
  | notAnExpression .. => "not_an_expression"
  | malformedTree .. => "malformed_tree"
  | scopeAlreadyAttached .. => "scope_already_attached"

/-- Text quoted in a message. -/
def quoted (text : String) : String := "`" ++ text ++ "`"

/-- The sentence that reports the error. -/
def message : Cause → String
  | typeAssignmentDifferent target source =>
    "can't assign " ++ quoted source.text ++ " to a variable of type " ++ quoted target.text
  | unresolvedVariable name _ => "variable " ++ quoted name ++ " has not been defined"
  | returnTypeMismatch expected found =>
    "function returns " ++ quoted expected.text ++ " but " ++ quoted found.text ++ " is returned"
  | typeOperationIncompatible op left right =>
    quoted op ++ " can't be applied to " ++ quoted left.text ++ " and " ++ quoted right.text
  | typeUnaryIncompatible op operand =>
    quoted op ++ " can't be applied to " ++ quoted operand.text
  | typeIndexIncompatible ty => quoted ty.text ++ " can't be indexed"
  | typeNameUnknown name => "unknown type " ++ quoted name
  | operatorUnknown op => "unknown operator " ++ quoted op
  | notAnExpression kind => quoted kind.ruleName ++ " is not an expression"
  | malformedTree parent expected =>
    quoted parent.ruleName ++ " is missing its " ++ quoted expected.ruleName
  | scopeAlreadyAttached kind => quoted kind.ruleName ++ " already has a scope attached"

/-- Advice on mending the error, if there is any. -/
def help? : Cause → Option String
  | unresolvedVariable _ (first :: rest) =>
    some ("did you mean " ++ " or ".intercalate ((first :: rest).map quoted) ++ "?")
  | _ => none

end Cause

/-- An error of a story: what is wrong, at which node, and where that node stands. -/
structure SemanticError where
  cause : Cause
  node : NodeId
  span : Span
  deriving DecidableEq

namespace SemanticError

/-- The stable word for the kind of error. -/
def code (error : SemanticError) : String := error.cause.code

/-- The sentence that reports the error. -/
def message (error : SemanticError) : String := error.cause.message

/-- The one mark that the error puts on the source: its text, its offset and its
length, which is zero for a span that stops before it starts. -/
def label (error : SemanticError) : String × Nat × Nat :=
  (error.code, error.span.start, error.span.stop - error.span.start)

/-- An error at a node of a tree. -/
def atNode (tree : Tree) (node : NodeId) (cause : Cause) : Except Fault SemanticError :=
  (tree.node node).map fun found => ⟨cause, node, found.span⟩

/-- The error of a node that lacks a child of kind `expected`. -/
def malformed (tree : Tree) (parent : NodeId) (expected : Kind) : Except Fault SemanticError :=
  (tree.node parent).map fun found => ⟨.malformedTree found.kind expected, parent, found.span⟩

end SemanticError
end ScopeTyping
