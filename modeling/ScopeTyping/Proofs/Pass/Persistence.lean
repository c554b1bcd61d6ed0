import ScopeTyping.Proofs.Pass.Stability
import ScopeTyping.Proofs.Typing.Sighted

/-! What was typed stays typed. A type that a path or an expression had at one moment of a
run it has at every later moment, since all that its scope showed is still shown. -/
namespace ScopeTyping

variable {tree : Tree} {names known after : NameTable} {earlier later : List Moment}
  {scope : ScopeId} {id : NodeId}

/-- At every moment each ready scope shows a sight. -/
theorem Chronicle.sees_exists (chronicle : Chronicle tree.resolver names later)
    (ready : Ready later scope) :
    ∃ sight, Sees (latest names later).scopes (latest names later).names scope sight :=
  chronicle.consistent.nested.sees_exists chronicle.lawful.named
    (chronicle.consistent.inside scope ready)

/-- The names of one moment are known at every later one. -/
theorem Chronicle.grows (chronicle : Chronicle tree.resolver names later)
    (grown : earlier <:+ later) : (latest names earlier).names.Grows (latest names later).names := by
  obtain ⟨newer, rfl⟩ := grown
  induction newer with
  | nil => exact .refl _
  | cons moment rest step =>
    have before : Chronicle tree.resolver names (rest ++ earlier) := chronicle.before
    exact (step before).trans (chronicle.step_of_cons.grows before.lawful.settled)

/-- Two moments of a run show a ready scope alike, as far as the earlier one goes. -/
theorem Chronicle.twins (chronicle : Chronicle tree.resolver names later)
    (grown : earlier <:+ later) (ready : Ready earlier scope) (sound : tree.Sound) :
    ∃ sight wider, Twins (fun text => text) (fun _ => True) ((latest names earlier).view tree)
      ((latest names later).view tree) scope scope sight wider (latest names earlier).names
      (latest names later).names := by
  obtain ⟨newer, same⟩ := grown
  have before : Chronicle tree.resolver names earlier := (same ▸ chronicle).of_append
  obtain ⟨sight, sees⟩ := before.sees_exists ready
  obtain ⟨wider, twinSees⟩ := chronicle.sees_exists (ready.later ⟨newer, same⟩)
  have stable := (chronicle.stable ⟨newer, same⟩).lookups scope
    fun _ => not_headerBinding_of_ready ready
  exact ⟨sight, wider, {
    renamed := tree.rename_id.symm
    sound
    injective := Function.injective_id
    sees, twinSees
    shown := fun text ty shown =>
      sees.lookup_of_lookups twinSees (chronicle.grows ⟨newer, same⟩) stable shown
    same := .inl fun _ _ => trivial }⟩

/-- An expression keeps its type. -/
theorem Chronicle.expression_persists (chronicle : Chronicle tree.resolver names later)
    (grown : earlier <:+ later) (ready : Ready earlier scope) (sound : tree.Sound)
    (inside : id.index < tree.size) (names_grown : (latest names earlier).names.Grows known)
    {ty : Ty} (typed : (Typing.expression ((latest names earlier).view tree) scope id).outcome known =
      (.ok ty, after)) :
    ∃ final, (Typing.expression ((latest names later).view tree) scope id).outcome
      (latest names later).names = (.ok ty, final) := by
  obtain ⟨sight, wider, twins⟩ := chronicle.twins grown ready sound
  obtain ⟨twin, final, ran, rfl, _⟩ :=
    (twins.expression_agree inside known _ names_grown (.refl _)).ok typed
  exact ⟨final, ran⟩

/-- A path that leads somewhere keeps its type. -/
theorem Chronicle.path_persists (chronicle : Chronicle tree.resolver names later)
    (grown : earlier <:+ later) (ready : Ready earlier scope) (sound : tree.Sound)
    (inside : id.index < tree.size) (names_grown : (latest names earlier).names.Grows known)
    {symbol : Symbol} (led : (Typing.path ((latest names earlier).view tree) scope id true).outcome
      known = (.ok symbol, after)) :
    ∃ target final, (Typing.path ((latest names later).view tree) scope id true).outcome
      (latest names later).names = (.ok target, final) ∧ target.ty = symbol.ty := by
  obtain ⟨sight, wider, twins⟩ := chronicle.twins grown ready sound
  obtain ⟨target, final, ran, same, _⟩ :=
    (twins.path_alike inside (.inl rfl) names_grown (.refl _)).ok led
  exact ⟨target, final, ran, same⟩

/-- At one moment an expression has the same type whatever other texts have names by then. -/
theorem Snapshot.expression_again {now : Snapshot} {one other : NameTable} {ty : Ty}
    (nested : now.scopes.Nested) (named : now.scopes.Named now.names) (sound : tree.Sound)
    (there : scope.index < now.scopes.size) (inside : id.index < tree.size)
    (grown : now.names.Grows one) (otherGrown : now.names.Grows other)
    (typed : (Typing.expression (now.view tree) scope id).outcome one = (.ok ty, after)) :
    ∃ final, (Typing.expression (now.view tree) scope id).outcome other = (.ok ty, final) := by
  obtain ⟨sight, sees⟩ := nested.sees_exists named there
  have twins : Twins (fun text => text) (fun _ => True) (now.view tree) (now.view tree) scope scope
      sight sight now.names now.names := {
    renamed := tree.rename_id.symm
    sound
    injective := Function.injective_id
    sees
    twinSees := sees
    shown := fun _ _ shown => shown
    same := .inl fun _ _ => trivial }
  obtain ⟨twin, final, ran, rfl, _⟩ :=
    (twins.expression_agree inside one other grown otherGrown).ok typed
  exact ⟨final, ran⟩

namespace Typing

variable {view : View} {symbol : Symbol}

/-- A path leads somewhere only from a scope that is there. -/
theorem inside_of_path {mustExist : Bool}
    (ran : (path view scope id mustExist).outcome names = (.ok symbol, after)) :
    scope.index < view.scopes.size := by
  unfold path pathWith at ran
  obtain ⟨head, _, ran⟩ := Attempt.requiredChild_bind_ok ran
  obtain ⟨node, _, ran⟩ := Attempt.guard_bind_ok ran
  obtain ⟨name, _, _, ran⟩ := Fallible.outcome_bind_eq_ok.1 ran
  obtain ⟨bound, looked, _⟩ := Attempt.guard_bind_ok ran
  exact Forest.lt_size_of_lookup looked

theorem unresolved_fails {α : Type} {name : Name} (value : α) (final : NameTable) :
    (unresolved view scope name id : Typing α).outcome names ≠ (.ok value, final) := by
  intro ran
  exact (Attempt.ensures_ok (unresolved_yields names) ran).2

/-- Where a path leads somewhere, it does not matter whether it has to. -/
theorem outcome_path_of_known
    (led : (path view scope id false).outcome names = (.ok symbol, after))
    (known : symbol.ty.isAbsent = false) :
    (path view scope id true).outcome names = (.ok symbol, after) := by
  unfold path pathWith at led ⊢
  rw [Fallible.outcome_bind_eq_ok] at led ⊢
  obtain ⟨head, one, required, led⟩ := led
  refine ⟨head, one, required, ?_⟩
  rw [Fallible.outcome_bind_eq_ok] at led ⊢
  obtain ⟨node, two, held, led⟩ := led
  refine ⟨node, two, held, ?_⟩
  rw [Fallible.outcome_bind_eq_ok] at led ⊢
  obtain ⟨name, three, named, led⟩ := led
  refine ⟨name, three, named, ?_⟩
  rw [Fallible.outcome_bind_eq_ok] at led ⊢
  obtain ⟨bound, four, found, led⟩ := led
  refine ⟨bound, four, found, ?_⟩
  cases bound with
  | some other => exact led
  | none =>
    dsimp only at led
    rw [if_neg Bool.false_ne_true, Fallible.outcome_bind_eq_ok] at led
    obtain ⟨part, five, _, led⟩ := led
    cases part with
    | none =>
      cases led
      cases known
    | some part => exact absurd led (unresolved_fails _ _)

/-- A variable without fragments leads to the symbol that the scope shows. -/
theorem outcome_path_of_bare {head : NodeId} {node : Node} {mustExist : Bool}
    (required : view.tree.child? id .name = .ok (some head))
    (held : view.tree.node head = .ok node)
    (bare : (view.tree.childrenOfKind id .pathFragment).first? = .ok none)
    (shown : view.scopes.lookup scope (names.intern node.text).1 = .ok (some symbol)) :
    (path view scope id mustExist).outcome names =
      (.ok ⟨(names.intern node.text).1, symbol.ty⟩, (names.intern node.text).2) := by
  have parts : view.tree.childrenOfKind id .pathFragment = .whole [] := by
    cases walk : view.tree.childrenOfKind id .pathFragment with
    | mk items fault =>
      rw [walk] at bare
      cases items with
      | nil => cases fault with
        | none => rfl
        | some fault => cases bare
      | cons first rest => cases bare
  unfold path pathWith Attempt.requiredChild
  simp only [required, held, View.node, Attempt.guard, pure_bind, parts, Fallible.outcome_bind]
  have interned : (intern node.text).outcome names =
      (.ok (names.intern node.text).1, (names.intern node.text).2) := rfl
  simp only [interned, shown]
  rfl

end Typing
end ScopeTyping
