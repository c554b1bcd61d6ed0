import ScopeTyping.Ty.Basic

/-! Operators and the types that they give. An operator applied to operands that it
does not support has no result type. -/
namespace ScopeTyping

/-- Operators between two operands. -/
inductive BinaryOp where
  | add | sub | mul | div | mod | eq | ne | lt | le | gt | ge | and | or
  deriving DecidableEq

/-- Operators in front of one operand. -/
inductive UnaryOp where
  | not | neg
  deriving DecidableEq

/-- The type of a difference, product or remainder: numbers stay integers only among
themselves, and an operand of unknown type leaves the result unknown. -/
def Ty.arithmetic : Ty → Ty → Option Ty
  | .any, .any | .any, .int | .any, .float | .int, .any | .float, .any => some .any
  | .int, .int => some .int
  | .int, .float | .float, .int | .float, .float => some .float
  | _, _ => none

/-- The type of a sum: what `arithmetic` says of numbers, concatenation of strings,
and of lists if one of the two list types accepts the other. -/
def Ty.sum : Ty → Ty → Option Ty
  | .any, _ => some .any
  | _, .any => some .any
  | .string, .string => some .string
  | .list left, .list right =>
    if left.accepts right then some (.list left)
    else if right.accepts left then some (.list right)
    else none
  | left, right => left.arithmetic right

/-- Whether values of the two types have an order between them. -/
def Ty.comparable (left right : Ty) : Bool :=
  left.isAny || right.isAny || (left.isNumeric && right.isNumeric) ||
    (left == .string && right == .string)

/-- Whether a value of the type may stand as a condition. -/
def Ty.isTruthValue : Ty → Bool
  | .boolean | .any => true
  | _ => false

namespace BinaryOp

/-- Every binary operator. -/
def all : List BinaryOp := [add, sub, mul, div, mod, eq, ne, lt, le, gt, ge, and, or]

/-- The token that is written for the operator. -/
def symbol : BinaryOp → String
  | add => "+"
  | sub => "-"
  | mul => "*"
  | div => "/"
  | mod => "%"
  | eq => "=="
  | ne => "!="
  | lt => "<"
  | le => "<="
  | gt => ">"
  | ge => ">="
  | and => "and"
  | or => "or"

/-- The operator that a token stands for. -/
def ofSymbol? (token : String) : Option BinaryOp := all.find? (·.symbol == token)

/-- The type of `left op right`, if the operands support the operator. -/
def resultType : BinaryOp → Ty → Ty → Option Ty
  | add, left, right => left.sum right
  | sub, left, right | mul, left, right | mod, left, right => left.arithmetic right
  | div, left, right => (left.arithmetic right).map fun ty => if ty.isAny then ty else .float
  | eq, _, _ | ne, _, _ => some .boolean
  | lt, left, right | le, left, right | gt, left, right | ge, left, right =>
    if left.comparable right then some .boolean else none
  | and, left, right | or, left, right =>
    if left.isTruthValue && right.isTruthValue then some .boolean else none

theorem mem_all (op : BinaryOp) : op ∈ all := by
  cases op <;> simp [all]

theorem ofSymbol?_symbol (op : BinaryOp) : ofSymbol? op.symbol = some op := by
  cases op <;> decide

end BinaryOp

namespace UnaryOp

/-- The token that is written for the operator. -/
def symbol : UnaryOp → String
  | not => "not"
  | neg => "-"

/-- The operator that a token stands for; negation of truth has two tokens. -/
def ofSymbol? : String → Option UnaryOp
  | "not" | "!" => some not
  | "-" => some neg
  | _ => none

/-- The type of `op operand`, if the operand supports the operator. -/
def resultType : UnaryOp → Ty → Option Ty
  | not, .boolean | not, .any => some .boolean
  | neg, .int => some .int
  | neg, .float => some .float
  | neg, .any => some .any
  | _, _ => none

theorem ofSymbol?_symbol (op : UnaryOp) : ofSymbol? op.symbol = some op := by
  cases op <;> decide

end UnaryOp
end ScopeTyping
