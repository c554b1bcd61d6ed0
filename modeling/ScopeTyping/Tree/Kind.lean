/-! The kinds of node that a story's grammar produces, each with the name of its
grammar rule. Rule names tell the kinds apart: `ofRuleName?_ruleName`. -/
namespace ScopeTyping

/-- What a node of a story stands for. -/
inductive Kind where
  /-- The whole story. -/
  | start
  /-- A slot for one statement. -/
  | block
  /-- The wrapper of a simple statement. -/
  | rules
  /-- An indented list of statements. -/
  | nestedBlock
  /-- `path = expression`. -/
  | assignment
  /-- The right-hand side of an assignment. -/
  | assignmentFragment
  /-- A variable, perhaps followed by fragments: `a`, `a[0]`, `a.b`. -/
  | path
  /-- An index or a field behind the head of a path. -/
  | pathFragment
  /-- `return`, perhaps with a value. -/
  | returnStatement
  /-- An expression that stands for its effects. -/
  | absoluteExpression
  | ifBlock
  /-- The condition of an `if`. -/
  | ifStatement
  | elseifBlock
  /-- The condition of an `else if`. -/
  | elseifStatement
  | elseBlock
  | whileBlock
  /-- The condition of a `while`. -/
  | whileStatement
  | whenBlock
  /-- The subject of a `when`. -/
  | whenStatement
  | foreachBlock
  /-- The iterated expression and the loop variables. -/
  | foreachStatement
  /-- The names of the loop variables. -/
  | output
  | tryBlock
  | catchBlock
  /-- The name that a `catch` gives to what it caught. -/
  | catchStatement
  | finallyBlock
  | functionBlock
  /-- The signature of a function. -/
  | functionStatement
  /-- A parameter with its type. -/
  | typedArgument
  /-- The type that a function returns. -/
  | functionOutput
  /-- A written type: its text is the base name, its children are the type arguments. -/
  | types
  /-- The wrapper of an expression. -/
  | baseExpression
  /-- A parenthesised expression. -/
  | expression
  /-- An operator between two operands; its text is the operator. -/
  | binaryExpression
  /-- An operator in front of an operand; its text is the operator. -/
  | unaryExpression
  | number
  | string
  | boolean
  /-- A duration such as `5m`. -/
  | time
  | regexp
  /-- `null`. -/
  | void
  | list
  | map
  /-- One `key: value` of a map. -/
  | mapItem
  /-- An identifier. -/
  | name
  deriving DecidableEq

namespace Kind

/-- Every kind, in the order of the grammar. -/
def all : List Kind :=
  [start, block, rules, nestedBlock, assignment, assignmentFragment, path, pathFragment,
    returnStatement, absoluteExpression, ifBlock, ifStatement, elseifBlock, elseifStatement,
    elseBlock, whileBlock, whileStatement, whenBlock, whenStatement, foreachBlock,
    foreachStatement, output, tryBlock, catchBlock, catchStatement, finallyBlock, functionBlock,
    functionStatement, typedArgument, functionOutput, types, baseExpression, expression,
    binaryExpression, unaryExpression, number, string, boolean, time, regexp, void, list, map,
    mapItem, name]

/-- The name of the grammar rule that produces the kind. -/
def ruleName : Kind → String
  | start => "start"
  | block => "block"
  | rules => "rules"
  | nestedBlock => "nested_block"
  | assignment => "assignment"
  | assignmentFragment => "assignment_fragment"
  | path => "path"
  | pathFragment => "path_fragment"
  | returnStatement => "return_statement"
  | absoluteExpression => "absolute_expression"
  | ifBlock => "if_block"
  | ifStatement => "if_statement"
  | elseifBlock => "elseif_block"
  | elseifStatement => "elseif_statement"
  | elseBlock => "else_block"
  | whileBlock => "while_block"
  | whileStatement => "while_statement"
  | whenBlock => "when_block"
  | whenStatement => "when_statement"
  | foreachBlock => "foreach_block"
  | foreachStatement => "foreach_statement"
  | output => "output"
  | tryBlock => "try_block"
  | catchBlock => "catch_block"
  | catchStatement => "catch_statement"
  | finallyBlock => "finally_block"
  | functionBlock => "function_block"
  | functionStatement => "function_statement"
  | typedArgument => "typed_argument"
  | functionOutput => "function_output"
  | types => "types"
  | baseExpression => "base_expression"
  | expression => "expression"
  | binaryExpression => "binary_expression"
  | unaryExpression => "unary_expression"
  | number => "number"
  | string => "string"
  | boolean => "boolean"
  | time => "time"
  | regexp => "regexp"
  | void => "void"
  | list => "list"
  | map => "map"
  | mapItem => "map_item"
  | name => "name"

/-- The kind that a grammar rule produces. -/
def ofRuleName? (rule : String) : Option Kind := all.find? (·.ruleName == rule)

theorem mem_all (kind : Kind) : kind ∈ all := by
  cases kind <;> decide

theorem ofRuleName?_ruleName (kind : Kind) : ofRuleName? kind.ruleName = some kind := by
  cases kind <;> decide

end Kind
end ScopeTyping
