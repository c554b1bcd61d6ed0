import ScopeTyping.Numeral
import ScopeTyping.Tree.Builder

/-! The constructs of the language, each as one building step over nodes that were
built before it. A construct adds the nodes that the grammar produces for it, in the
order in which they are written, and answers with the outermost one. -/
namespace ScopeTyping

/-- A building step. -/
inductive Construct where
  /-- Any leaf. -/
  | token (kind : Kind) (text : String)
  /-- Any node over children. -/
  | branch (kind : Kind) (children : List NodeId)
  /-- Any node over children that carries text. -/
  | labelled (kind : Kind) (text : String) (children : List NodeId)
  | name (text : String)
  | int (value : Int)
  | float (value : Binary64)
  | string (text : String)
  | boolean (value : Bool)
  | null
  | time (text : String)
  | regexp (pattern : String)
  | list (items : List NodeId)
  | map (entries : List (NodeId × NodeId))
  /-- A variable alone. -/
  | path (head : String)
  /-- A variable followed by indices: `head[i][j]`. -/
  | indexedPath (head : String) (indices : List NodeId)
  /-- A variable followed by fields: `head.a.b`. -/
  | dottedPath (head : String) (fields : List String)
  | binary (op : String) (left right : NodeId)
  | unary (op : String) (operand : NodeId)
  /-- The wrapper of an expression. -/
  | wrapped (inner : NodeId)
  | assignment (target value : NodeId)
  /-- An assignment to a variable alone. -/
  | assign (name : String) (value : NodeId)
  | returnStatement (value : Option NodeId)
  | absoluteExpression (value : NodeId)
  /-- The slot of a statement. -/
  | statement (inner : NodeId)
  | nestedBlock (statements : List NodeId)
  | ifBlock (condition : NodeId) (body branches : List NodeId)
  | elseifBlock (condition : NodeId) (body : List NodeId)
  | elseBlock (body : List NodeId)
  | whileBlock (condition : NodeId) (body : List NodeId)
  | whenBlock (subject : NodeId) (body : List NodeId)
  | foreachBlock (iterable : NodeId) (names : List String) (body : List NodeId)
  | tryBlock (body handlers : List NodeId)
  | catchBlock (binding : Option String) (body : List NodeId)
  | finallyBlock (body : List NodeId)
  /-- A written type with its type arguments. -/
  | types (name : String) (args : List NodeId)
  | functionBlock (name : String) (params : List (String × NodeId)) (output : Option NodeId)
      (body : List NodeId)

namespace Build

/-- A block: its header, if it has one, its body and what stands behind the body. -/
def block (kind : Kind) (header body branches : List NodeId) : Build NodeId := do
  let body ← nestedBlock body
  branch kind (header ++ body :: branches)

/-- A block whose header is one expression inside a node of its own. -/
def headed (outer header : Kind) (condition : NodeId) (body : List NodeId)
    (branches : List NodeId) : Build NodeId := do
  let condition ← wrap condition
  let header ← branch header [condition]
  block outer [header] body branches

/-- A parameter of a function. -/
def parameter (name : String) (type : NodeId) : Build NodeId := do
  let name ← token .name name
  branch .typedArgument [name, type]

/-- An entry of a map. -/
def entry (key value : NodeId) : Build NodeId := do
  let key ← wrap key
  let value ← wrap value
  branch .mapItem [key, value]

/-- The assignment of a value to a path. -/
def assignment (target value : NodeId) : Build NodeId := do
  let value ← wrap value
  let fragment ← branch .assignmentFragment [value]
  branch .assignment [target, fragment]

/-- A variable followed by fragments, given how to build each of them. -/
def path {ι : Type} (head : String) (items : List ι) (fragment : ι → Build NodeId) :
    Build NodeId := do
  let head ← token .name head
  let fragments ← items.mapM fragment
  branch .path (head :: fragments)

/-- A variable followed by indices. -/
def indexedPath (head : String) (indices : List NodeId) : Build NodeId :=
  path head indices fun index => do branch .pathFragment [← wrap index]

/-- A variable followed by fields. -/
def dottedPath (head : String) (fields : List String) : Build NodeId :=
  path head fields fun field => do branch .pathFragment [← token .name field]

/-- The signature of a function. -/
def signature (name : String) (params : List (String × NodeId)) (output : Option NodeId) :
    Build NodeId := do
  let name ← token .name name
  let params ← params.mapM fun (param, type) => parameter param type
  let outputs ← output.toList.mapM fun type => branch .functionOutput [type]
  branch .functionStatement (name :: (params ++ outputs))

end Build

open Build in
/-- The nodes of a construct, and the place of the outermost one. -/
def Construct.build : Construct → Build NodeId
  | .token kind text => Build.token kind text
  | .branch kind children => Build.branch kind children
  | .labelled kind text children => Build.labelled kind text children
  | .name text => Build.token .name text
  | .int value => Build.token .number (Literal.ofInt value)
  | .float value => Build.token .number (Literal.ofBinary64 value)
  | .string text => Build.token .string (Literal.ofString text)
  | .boolean value => Build.token .boolean (Literal.ofBool value)
  | .null => Build.token .void "null"
  | .time text => Build.token .time text
  | .regexp pattern => Build.token .regexp (Literal.ofPattern pattern)
  | .list items => do Build.branch .list (← items.mapM wrap)
  | .map entries => do Build.branch .map (← entries.mapM fun (key, value) => entry key value)
  | .path head => Build.indexedPath head []
  | .indexedPath head indices => Build.indexedPath head indices
  | .dottedPath head fields => Build.dottedPath head fields
  | .binary op left right => Build.labelled .binaryExpression op [left, right]
  | .unary op operand => Build.labelled .unaryExpression op [operand]
  | .wrapped inner => wrap inner
  | .assignment target value => Build.assignment target value
  | .assign target value => do Build.assignment (← Build.indexedPath target []) value
  | .returnStatement value => do Build.branch .returnStatement (← value.toList.mapM wrap)
  | .absoluteExpression value => do Build.branch .absoluteExpression [← wrap value]
  | .statement inner => Build.statement inner
  | .nestedBlock statements => Build.nestedBlock statements
  | .ifBlock condition body branches => headed .ifBlock .ifStatement condition body branches
  | .elseifBlock condition body => headed .elseifBlock .elseifStatement condition body []
  | .elseBlock body => Build.block .elseBlock [] body []
  | .whileBlock condition body => headed .whileBlock .whileStatement condition body []
  | .whenBlock subject body => headed .whenBlock .whenStatement subject body []
  | .foreachBlock iterable names body => do
    let iterable ← wrap iterable
    let output ← Build.branch .output (← names.mapM (Build.token .name))
    let header ← Build.branch .foreachStatement [iterable, output]
    Build.block .foreachBlock [header] body []
  | .tryBlock body handlers => Build.block .tryBlock [] body handlers
  | .catchBlock binding body => do
    let header ← Build.branch .catchStatement (← binding.toList.mapM (Build.token .name))
    Build.block .catchBlock [header] body []
  | .finallyBlock body => Build.block .finallyBlock [] body []
  | .types base args => Build.labelled .types base args
  | .functionBlock called params output body => do
    let header ← signature called params output
    Build.block .functionBlock [header] body []

/-- The builder after a construct, and the place of the construct's outermost node. -/
def Builder.add (builder : Builder) (construct : Construct) : Except Fault (NodeId × Builder) :=
  construct.build.run builder

end ScopeTyping
