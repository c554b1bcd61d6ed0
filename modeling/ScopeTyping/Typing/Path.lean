import ScopeTyping.Diagnostic.Suggestions
import ScopeTyping.Typing.View

/-! The symbol that a path denotes: the variable at its head, with the type that is
reached by following its fragments one after another. -/
namespace ScopeTyping

/-- The type of a part of a value, reached by a field or by an index. Lists have items
but no fields; what an object or a value of unknown type holds is unknown. -/
def Ty.part? (isField : Bool) : Ty → Option Ty
  | .list element => if isField then none else some element
  | .map _ value => some value
  | .any | .object => some .any
  | _ => none

namespace Typing

/-- The type that a fragment reaches from a value of type `base`. A fragment is a field
if its first child is a name; otherwise that child is an expression, and has to have
a type, whichever it is. -/
def fragment (view : View) (typeOf : NodeId → Typing Ty) (base : Ty) (id : NodeId) : Typing Ty := do
  let key ← view.firstChild id
  let isField := (← view.node key).kind = .name
  unless isField do
    discard (typeOf key)
  match base.part? isField with
  | some part => pure part
  | none => Attempt.report view.tree id (.typeIndexIncompatible base)

/-- Ends with the error of a name that no scope binds. -/
def unresolved {α : Type} (view : View) (scope : ScopeId) (name : Name) (id : NodeId) : Typing α := do
  let visible ← Attempt.guard (view.scopes.visibleNames scope)
  let text ← textOf name
  let candidates ← visible.mapM textOf
  Attempt.report view.tree id (.unresolvedVariable text (suggestions text candidates))

/-- The symbol of a path as seen from a scope, given how to type its indices. A
variable without fragments that need not exist is answered with no type. -/
def pathWith (view : View) (scope : ScopeId) (typeOf : NodeId → Typing Ty) (id : NodeId)
    (mustExist : Bool) : Typing Symbol := do
  let head ← Attempt.requiredChild view.tree id .name
  let name ← intern (← view.node head).text
  let fragments := view.tree.childrenOfKind id .pathFragment
  match ← Attempt.guard (view.scopes.lookup scope name) with
  | some symbol =>
    let ty ← fragments.foldM (fragment view typeOf) symbol.ty
    pure ⟨name, ty⟩
  | none =>
    if mustExist then
      unresolved view scope name head
    else match ← Attempt.guard fragments.first? with
      | none => pure ⟨name, .absent⟩
      | some _ => unresolved view scope name head

end Typing
end ScopeTyping
