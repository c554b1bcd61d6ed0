import ScopeTyping.Typing.Expression

/-! The rules that answer the four questions which the pass asks while it opens scopes.
They form a bundle that can be exchanged: the standard rules are those of the language,
and some of their answers can be fixed beforehand.

The fourth question is about the returns of a function body. Each return is checked in the
scope of the nearest node around it that has one; returns of functions inside the body are
not its own. -/
namespace ScopeTyping
namespace Typing

/-- The returns below a node, each with the scope that it stands in, for a node that
stands in `scope` and a tree no deeper than the bound. -/
def returnSitesWithin (view : View) : Nat → NodeId → ScopeId → Walk (NodeId × ScopeId)
  | 0, _, _ => .stopped .endless
  | depth + 1, id, scope =>
    match view.tree.node id with
    | .error fault => .stopped fault
    | .ok node => Walk.concat <| node.children.map fun child =>
      let inner := (view.annotations.get? child).getD scope
      match view.tree.kind child with
      | .error fault => .stopped fault
      | .ok .functionBlock => .whole []
      | .ok .returnStatement => .whole [(child, inner)]
      | .ok _ => returnSitesWithin view depth child inner

/-- The returns below a node, each with the scope that it stands in. -/
def returnSites (view : View) (id : NodeId) (scope : ScopeId) : Walk (NodeId × ScopeId) :=
  returnSitesWithin view view.depth id scope

/-- The type of what a return gives back; a return without a value gives back nothing. -/
def returned (view : View) (site : NodeId × ScopeId) : Typing Ty := do
  match ← Attempt.guard (view.tree.child? site.1 .baseExpression) with
  | some value => expression view site.2 value
  | none => pure .absent

/-- Checks one return against the type that its function declares. -/
def checkReturn (view : View) (declared : Ty) (site : NodeId × ScopeId) : Typing Unit := do
  let found ← returned view site
  unless declared.accepts found do
    Attempt.report view.tree site.1 (.returnTypeMismatch declared found)

/-- Checks every return of a body against the type that its function declares. -/
def checkReturns (view : View) (body : NodeId) (scope : ScopeId) (declared : Ty) : Typing Unit :=
  (returnSites view body scope).forEach (checkReturn view declared)

end Typing

/-- How to answer the questions of the pass. -/
structure Rules where
  /-- The symbol of a path as seen from a scope, which may have to exist. -/
  path : View → ScopeId → NodeId → Bool → Typing Symbol
  /-- The type of an expression as seen from a scope. -/
  expression : View → ScopeId → NodeId → Typing Ty
  /-- The type that a node writes down. -/
  declared : View → NodeId → Typing Ty
  /-- Whether every return of a body fits the declared type. -/
  returns : View → NodeId → ScopeId → Ty → Typing Unit

/-- The rules of the language. -/
def Rules.standard : Rules where
  path := Typing.path
  expression := Typing.expression
  declared := Typing.declared
  returns := Typing.checkReturns

/-- Answers that are fixed beforehand. -/
structure Overrides where
  /-- The type of every path. -/
  path : Option Ty
  /-- The type of every expression. -/
  expression : Option Ty
  /-- The type that every written type stands for. -/
  declared : Option Ty
  /-- Whether every return fits. -/
  lenientReturns : Bool

/-- A path of a fixed type: it still needs a head, which still gets a name. -/
def Typing.pathOfType (ty : Ty) (view : View) (id : NodeId) : Typing Symbol := do
  let head ← Attempt.requiredChild view.tree id .name
  let name ← intern (← view.node head).text
  pure ⟨name, ty⟩

/-- The rules with some answers fixed; the others are as before, and what they ask
along the way is not affected. -/
def Rules.override (base : Rules) (fixed : Overrides) : Rules where
  path view scope id mustExist :=
    match fixed.path with
    | some ty => Typing.pathOfType ty view id
    | none => base.path view scope id mustExist
  expression view scope id :=
    match fixed.expression with
    | some ty => pure ty
    | none => base.expression view scope id
  declared view id :=
    match fixed.declared with
    | some ty => pure ty
    | none => base.declared view id
  returns view body scope ty :=
    if fixed.lenientReturns then pure () else base.returns view body scope ty

end ScopeTyping
