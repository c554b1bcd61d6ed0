import ScopeTyping.Pass.Visit
import ScopeTyping.Proofs.Program.Syntax

/-! What a program means, read off its syntax alone. Expressions are typed and parts are run
without places: nothing is attached to a node, and an error says what is wrong but not where.
That a node is not what its place asks for, or has a scope already, is nothing that a program
can be refused for (`Refusal`). -/
namespace ScopeTyping

/-! ### Readings -/

/-- Whether a cause tells of the shape of a tree and not of the program that it stands for. -/
def Cause.ofShape : Cause → Bool
  | notAnExpression .. | malformedTree .. | scopeAlreadyAttached .. => true
  | _ => false

/-- Why a program has no meaning. -/
inductive Refusal where
  | cause (cause : Cause) (ofProgram : cause.ofShape = false)
  | fault (fault : Fault)

/-- A computation that reads a program, and keeps its changes to the state when it fails. -/
abbrev Reading (State : Type) := Fallible Refusal State

namespace Reading

variable {State α β : Type}

/-- Goes on with the answer to a question, or ends with its fault. -/
def guard (answer : Except Fault α) : Reading State α :=
  match answer with
  | .ok value => pure value
  | .error fault => throw (.fault fault)

/-- Ends with an error of the program. -/
def refuse (cause : Cause) (ofProgram : cause.ofShape = false) : Reading State α :=
  throw (.cause cause ofProgram)

end Reading

/-! ### Types -/

/-- A reading that may give names to texts. -/
abbrev TypeReading := Reading NameTable

namespace TypeReading

/-- The name of a text, handed out now if it has none yet. -/
def intern (text : String) : TypeReading Name :=
  modifyGet fun names => names.intern text

/-- The text of a name. -/
def textOf (name : Name) : TypeReading String := do
  Reading.guard ((← get).text name)

/-- Ends with the error of a name that no scope binds. -/
def unresolved {α : Type} (scopes : Forest) (scope : ScopeId) (name : Name) : TypeReading α := do
  let visible ← Reading.guard (scopes.visibleNames scope)
  let text ← textOf name
  let candidates ← visible.mapM textOf
  Reading.refuse (.unresolvedVariable text (suggestions text candidates)) rfl

/-- The part that a step of a path reaches. -/
def part (isField : Bool) (base : Ty) : TypeReading Ty :=
  match base.part? isField with
  | some part => pure part
  | none => Reading.refuse (.typeIndexIncompatible base) rfl

/-- The item that an index reaches; the index has to have a type, whichever it is. -/
def item (base : Ty) (index : TypeReading Ty) : TypeReading Ty := do
  discard index
  part false base

/-- The symbol that a path denotes, given what its steps reach and what is to be done with a
name that no scope binds. -/
def symbol (scopes : Forest) (scope : ScopeId) (head : String) (follow : Ty → TypeReading Ty)
    (unbound : Name → TypeReading Symbol) : TypeReading Symbol := do
  let name ← intern head
  match ← Reading.guard (scopes.lookup scope name) with
  | some symbol =>
    let ty ← follow symbol.ty
    pure ⟨name, ty⟩
  | none => unbound name

/-- The type of an operator between two operands, given how to type these. -/
def binary (symbol : String) (left right : TypeReading Ty) : TypeReading Ty := do
  match BinaryOp.ofSymbol? symbol with
  | none => Reading.refuse (.operatorUnknown symbol) rfl
  | some op =>
    let left ← left
    let right ← right
    match op.resultType left right with
    | some ty => pure ty
    | none => Reading.refuse (.typeOperationIncompatible op.symbol left right) rfl

/-- The type of an operator in front of an operand, given how to type this. -/
def unary (symbol : String) (operand : TypeReading Ty) : TypeReading Ty := do
  match UnaryOp.ofSymbol? symbol with
  | none => Reading.refuse (.operatorUnknown symbol) rfl
  | some op =>
    let operand ← operand
    match op.resultType operand with
    | some ty => pure ty
    | none => Reading.refuse (.typeUnaryIncompatible op.symbol operand) rfl

end TypeReading

/-- The type of a literal. -/
def Kind.literalType (text : String) : Kind → Ty
  | .number => if Literal.isFloat text then .float else .int
  | .string => .string
  | .boolean => .boolean
  | .time => .time
  | .regexp => .regexp
  | _ => .any

mutual

/-- The type of an expression as seen from a scope. -/
def Expr.type (scopes : Forest) (scope : ScopeId) : Expr → TypeReading Ty
  | .literal kind text => pure (kind.literalType text)
  | .wrapped inner => inner.type scopes scope
  | .list items => return .list (.joinAll (← Expr.types scopes scope items))
  | .map entries => do
    let entries ← Expr.entryTypes scopes scope entries
    pure (.map (.joinAll (entries.map Prod.fst)) (.joinAll (entries.map Prod.snd)))
  | .path head keys => return (← TypeReading.symbol scopes scope head
      (fun ty => Expr.follow scopes scope ty keys) (TypeReading.unresolved scopes scope)).ty
  | .binary op left right => TypeReading.binary op (left.type scopes scope) (right.type scopes scope)
  | .unary op operand => TypeReading.unary op (operand.type scopes scope)

/-- The types of expressions, in order. -/
def Expr.types (scopes : Forest) (scope : ScopeId) : List Expr → TypeReading (List Ty)
  | [] => pure []
  | first :: rest => do
    let ty ← first.type scopes scope
    let types ← Expr.types scopes scope rest
    pure (ty :: types)

/-- The types of the keys and the values of entries, in order. -/
def Expr.entryTypes (scopes : Forest) (scope : ScopeId) :
    List (Expr × Expr) → TypeReading (List (Ty × Ty))
  | [] => pure []
  | (key, value) :: rest => do
    let key ← key.type scopes scope
    let value ← value.type scopes scope
    let types ← Expr.entryTypes scopes scope rest
    pure ((key, value) :: types)

/-- The type that steps of a path reach, one after another, from a value of type `base`. -/
def Expr.follow (scopes : Forest) (scope : ScopeId) (base : Ty) : List (Key Expr) → TypeReading Ty
  | [] => pure base
  | .field _ :: rest => do
    let part ← TypeReading.part true base
    Expr.follow scopes scope part rest
  | .index value :: rest => do
    let part ← TypeReading.item base (value.type scopes scope)
    Expr.follow scopes scope part rest

end

/-- The type that one step of a path reaches. -/
def Key.reach (scopes : Forest) (scope : ScopeId) (base : Ty) : Key Expr → TypeReading Ty
  | .field _ => TypeReading.part true base
  | .index value => TypeReading.item base (value.type scopes scope)

theorem Expr.follow_cons (scopes : Forest) (scope : ScopeId) (base : Ty) (key : Key Expr)
    (rest : List (Key Expr)) : Expr.follow scopes scope base (key :: rest) =
      key.reach scopes scope base >>= fun part => Expr.follow scopes scope part rest := by
  cases key <;> rfl

/-- The symbol that the target of an assignment denotes. A variable without steps need not be
bound. -/
def Expr.target (scopes : Forest) (scope : ScopeId) (head : String) (keys : List (Key Expr)) :
    TypeReading Symbol :=
  TypeReading.symbol scopes scope head (fun ty => Expr.follow scopes scope ty keys) fun name =>
    if keys.isEmpty then pure ⟨name, .absent⟩ else TypeReading.unresolved scopes scope name

mutual

/-- The type that is written down. -/
def Written.declared : Written → TypeReading Ty
  | .mk base args => do
    let args ← Written.allDeclared args
    match Ty.ofSignature? base args with
    | some ty => pure ty
    | none => Reading.refuse (.typeNameUnknown (Typing.unknownTypeName base args.length)) rfl

/-- The types that are written down, in order. -/
def Written.allDeclared : List Written → TypeReading (List Ty)
  | [] => pure []
  | first :: rest => do
    let ty ← first.declared
    let types ← Written.allDeclared rest
    pure (ty :: types)

end

/-! ### Runs -/

/-- What a run of a program knows: names, and scopes that belong to no node. -/
structure Scene where
  names : NameTable
  scopes : Forest

namespace Scene

/-- Asks for a type; names that the answer needed are kept. -/
def ask {α : Type} (question : Forest → TypeReading α) : Reading Scene α :=
  ExceptT.mk fun scene =>
    let (outcome, names) := (question scene.scopes).outcome scene.names
    (outcome, { scene with names })

/-- Opens a scope. -/
def openScope (parent : Option ScopeId) (kind : ScopeKind) : Reading Scene ScopeId :=
  modifyGet fun scene =>
    ((scene.scopes.create parent kind).1, { scene with scopes := (scene.scopes.create parent kind).2 })

/-- Binds a text in a scope. -/
def bind (scope : ScopeId) (text : String) (ty : Ty) : Reading Scene Unit := do
  let name ← modifyGet fun scene =>
    ((scene.names.intern text).1, { scene with names := (scene.names.intern text).2 })
  let (_, scopes) ← Reading.guard ((← get).scopes.insert scope ⟨name, ty⟩)
  modify fun scene => { scene with scopes }

end Scene

/-- A return of a function body, by the value that it gives back and the scope it stands in. -/
structure Return where
  value : Option Expr
  scope : ScopeId

/-- The type of what a return gives back; a return without a value gives back nothing. -/
def Return.type (scopes : Forest) (site : Return) : TypeReading Ty :=
  match site.value with
  | some value => value.type scopes site.scope
  | none => pure .absent

/-- Checks a return against the type that its function declares. -/
def Return.check (scopes : Forest) (declared : Ty) (site : Return) : TypeReading Unit := do
  let found ← site.type scopes
  unless declared.accepts found do
    Reading.refuse (.returnTypeMismatch declared found) rfl

/-- Begins a construct whose body belongs to the scope around it. Only the conditions of an
`if` and of its branches are typed. -/
def Header.begin (scope : ScopeId) : Header → Reading Scene Unit
  | .ifBlock condition | .elseifBlock condition =>
    discard (Scene.ask fun scopes => condition.type scopes scope)
  | _ => pure ()

namespace Opening

/-- Binds a parameter of a function to the type written for it. -/
def parameter (scope : ScopeId) (param : String × Written) : Reading Scene Unit := do
  let ty ← Scene.ask fun _ => param.2.declared
  Scene.bind scope param.1 ty

/-- The type that a function returns; without a word on it, any is. -/
def returnType : Option Written → Reading Scene Ty
  | some written => Scene.ask fun _ => written.declared
  | none => pure .any

/-- Opens the scope of a body and binds its header; answers with the scope and, for a function,
with the type that is to be returned. -/
def begin (scope : ScopeId) : Opening → Reading Scene (ScopeId × Option Ty)
  | .block | .catchBlock _ | .finallyBlock => return (← Scene.openScope (some scope) .block, none)
  | .foreachBlock iterable names => do
    let inner ← Scene.openScope (some scope) .loop
    discard (Scene.ask fun scopes => iterable.type scopes scope)
    names.forM fun name => Scene.bind inner name .any
    pure (inner, none)
  | .functionBlock _ params output => do
    let inner ← Scene.openScope none .function
    params.forM (parameter inner)
    let ty ← returnType output
    pure (inner, some ty)

/-- Ends a body. A function checks the returns of its body; other bodies hand them on. -/
def finish (declared : Option Ty) (sites : List Return) : Reading Scene (List Return) :=
  match declared with
  | none => pure sites
  | some ty => do
    Scene.ask fun scopes => sites.forM (Return.check scopes ty)
    pure []

end Opening

/-- Binds a variable that is not visible yet to the type of a value; one that is visible has to
accept the value and keeps its type. -/
def Part.assign (scope : ScopeId) (head : String) (keys : List (Key Expr)) (value : Expr) :
    Reading Scene Unit := do
  let target ← Scene.ask fun scopes => Expr.target scopes scope head keys
  let found ← Scene.ask fun scopes => value.type scopes scope
  if target.ty.isAbsent then
    Scene.bind scope head (if found.isAbsent then .any else found)
  else unless target.ty.accepts found do
    Reading.refuse (.typeAssignmentDifferent target.ty found) rfl

mutual

/-- Runs a part in a scope; answers with the returns in it that no function inside it has
checked. -/
def Part.run (scope : ScopeId) : Part → Reading Scene (List Return)
  | .assignment head keys value => do
    Part.assign scope head keys value
    pure []
  | .returned value => pure [⟨value, scope⟩]
  | .evaluated _ => pure []
  | .shared header body branches => do
    header.begin scope
    let sites ← Part.runAll scope body
    let others ← Part.runAll scope branches
    pure (sites ++ others)
  | .scoped opening body => do
    let (inner, declared) ← opening.begin scope
    let sites ← Part.runAll inner body
    Opening.finish declared sites

/-- Runs parts in a scope, one after another. -/
def Part.runAll (scope : ScopeId) : List Part → Reading Scene (List Return)
  | [] => pure []
  | first :: rest => do
    let sites ← first.run scope
    let others ← Part.runAll scope rest
    pure (sites ++ others)

end

/-- Runs a program in a scope of its own. -/
def Part.runProgram (program : List Part) : Reading Scene Unit := do
  let scope ← Scene.openScope none .root
  discard (Part.runAll scope program)

end ScopeTyping
