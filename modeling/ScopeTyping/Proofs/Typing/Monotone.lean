import ScopeTyping.Proofs.Typing.Agreement

/-! Typing is monotone in what is visible. If a scope of one forest shows all that a scope of another
forest shows, with the same types, then an expression that has a type as seen from the one has the
same type as seen from the other, and an error that is not about a missing variable is the same
error. The recursion may go deeper the second time, which takes no answer back either. -/
namespace ScopeTyping

/-- A name is visible from a scope, as that of a variable of the type. -/
def Forest.Offers (forest : Forest) (scope : ScopeId) (name : Name) (ty : Ty) : Prop :=
  ∃ symbol, forest.lookup scope name = .ok (some symbol) ∧ symbol.ty = ty

/-- A failure that is not the last word: a variable was not there, or the question went wrong. -/
def Failure.Open (failure : Failure) : Prop :=
  failure.Unresolved ∨ ∃ fault, failure = .fault fault

/-- A second typing computation comes to what the first one comes to, and leaves the same names,
unless the first one ends with a failure that is open. -/
def Repeats {α : Type} (typing further : Typing α) : Prop :=
  ∀ names, further.outcome names = typing.outcome names ∨
    ∃ failure after, typing.outcome names = (.error failure, after) ∧ failure.Open

namespace Repeats

variable {α β : Type} {typing further : Typing α} {names after : NameTable}

/-- What was found is found again. -/
theorem found {value : α} (repeats : Repeats typing further)
    (ran : typing.outcome names = (.ok value, after)) :
    further.outcome names = (.ok value, after) := by
  rcases repeats names with same | ⟨failure, _, failed, -⟩
  · rw [same, ran]
  · rw [ran] at failed
    cases failed

/-- An error that does not tell of a variable is told again. -/
theorem told {error : SemanticError} (repeats : Repeats typing further)
    (ran : typing.outcome names = (.error (.error error), after))
    (known : ∀ name suggestions, error.cause ≠ .unresolvedVariable name suggestions) :
    further.outcome names = (.error (.error error), after) := by
  rcases repeats names with same | ⟨failure, _, failed, isOpen⟩
  · rw [same, ran]
  · rw [ran] at failed
    cases failed
    rcases isOpen with ⟨name, suggestions, node, span, same⟩ | ⟨fault, same⟩
    · cases same
      exact absurd rfl (known name suggestions)
    · cases same

theorem refl (typing : Typing α) : Repeats typing typing := fun _ => .inl rfl

theorem of_fails (fails : ∀ names, typing.Ensures names (fun _ _ => False) fun failure _ =>
    failure.Open) : Repeats typing further := by
  intro names
  have ensured := fails names
  rcases ran : typing.outcome names with ⟨answer, after⟩
  cases answer with
  | ok value => exact (Attempt.ensures_ok ensured ran).elim
  | error failure => exact .inr ⟨failure, after, rfl, Attempt.ensures_error ensured ran⟩

theorem fault (fault : Fault) : Repeats (throw (.fault fault)) typing :=
  fun names => .inr ⟨.fault fault, names, rfl, .inr ⟨fault, rfl⟩⟩

theorem bind {next follow : α → Typing β} (first : Repeats typing further)
    (second : ∀ value, Repeats (next value) (follow value)) :
    Repeats (typing >>= next) (further >>= follow) := by
  intro names
  simp only [Fallible.outcome_bind]
  rcases first names with same | ⟨failure, between, ran, isOpen⟩
  · rw [same]
    rcases typing.outcome names with ⟨answer, between⟩
    cases answer with
    | ok value => exact second value between
    | error failure => exact .inl rfl
  · rw [ran]
    exact .inr ⟨failure, between, rfl, isOpen⟩

theorem discard (repeats : Repeats typing further) :
    Repeats (discard typing) (discard further) := by
  rw [discard_eq_bind, discard_eq_bind]
  exact repeats.bind fun _ => refl _

theorem mapM {ι : Type} {items : List ι} {next follow : ι → Typing α}
    (each : ∀ item, Repeats (next item) (follow item)) :
    Repeats (items.mapM next) (items.mapM follow) := by
  induction items with
  | nil => exact refl _
  | cons item rest step =>
    rw [List.mapM_cons, List.mapM_cons]
    exact (each item).bind fun _ => step.bind fun _ => refl _

theorem mapM_walk {ι : Type} {walk : Walk ι} {next follow : ι → Typing α}
    (each : ∀ item, Repeats (next item) (follow item)) :
    Repeats (walk.mapM next) (walk.mapM follow) :=
  (mapM each).bind fun _ => refl _

theorem foldlM {ι : Type} {items : List ι} {next follow : α → ι → Typing α}
    (each : ∀ value item, Repeats (next value item) (follow value item)) (first : α) :
    Repeats (items.foldlM next first) (items.foldlM follow first) := by
  induction items generalizing first with
  | nil => exact refl _
  | cons item rest step =>
    rw [List.foldlM_cons, List.foldlM_cons]
    exact (each first item).bind step

theorem foldM_walk {ι : Type} {walk : Walk ι} {next follow : α → ι → Typing α}
    (each : ∀ value item, Repeats (next value item) (follow value item)) (first : α) :
    Repeats (walk.foldM next first) (walk.foldM follow first) :=
  (foldlM each first).bind fun _ => refl _

end Repeats

/-! ### What cannot be looked up -/

namespace Attempt

variable {α : Type} {names : NameTable}

theorem ensures_textOf (name : Name) :
    (Typing.textOf name).Ensures names (fun _ _ => True) fun failure _ => failure.Open := by
  show (guard (names.text name) : Typing String).Ensures names _ _
  cases names.text name with
  | ok text => exact ensures_pure trivial
  | error fault => exact ensures_throw (.inr ⟨fault, rfl⟩)

/-- Not to find a variable leaves the question open. -/
theorem ensures_unresolved (view : View) (scope : ScopeId) (name : Name) (id : NodeId) :
    (Typing.unresolved view scope name id : Typing α).Ensures names (fun _ _ => False)
      fun failure _ => failure.Open := by
  unfold Typing.unresolved
  refine ensures_guard_bind (fun visible _ => ?_) fun fault => .inr ⟨fault, rfl⟩
  refine (ensures_textOf name).bind fun text before _ => ?_
  refine Ensures.bind (ensures_mapM trivial fun other _ _ (_ : True) =>
    (ensures_textOf other).weaken (fun _ _ _ => ⟨trivial, trivial⟩) fun _ _ isOpen => isOpen) ?_
  intro candidates after _
  refine ensures_guard_bind (fun error located => ?_) fun fault => .inr ⟨fault, rfl⟩
  unfold SemanticError.atNode at located
  cases held : view.tree.node id with
  | error fault =>
    rw [held] at located
    cases located
  | ok node =>
    rw [held] at located
    cases located
    exact .inl ⟨_, _, _, _, rfl⟩

end Attempt

/-! ### Two views of one tree -/

section Views
variable {left right : View} {id : NodeId}

theorem View.node_congr (same : right.tree = left.tree) : right.node id = left.node id := by
  simp only [View.node, same]

theorem View.firstChild_congr (same : right.tree = left.tree) :
    right.firstChild id = left.firstChild id := by
  simp only [View.firstChild, View.node, same]

theorem View.twoChildren_congr (same : right.tree = left.tree) :
    right.twoChildren id = left.twoChildren id := by
  simp only [View.twoChildren, View.node, same]

namespace Typing

variable {here there : ScopeId} {typeOf further : NodeId → Typing Ty}

theorem fragment_repeats (same : right.tree = left.tree)
    (parts : ∀ part, Repeats (typeOf part) (further part)) (base : Ty) :
    Repeats (fragment left typeOf base id) (fragment right further base id) := by
  unfold fragment
  simp only [View.firstChild_congr same, View.node_congr same, same]
  refine (Repeats.refl _).bind fun key => (Repeats.refl _).bind fun node => ?_
  split
  · exact .refl _
  · exact (parts key).discard.bind fun _ => .refl _

/-- A path that has to be there leads to the same type where more is visible. -/
theorem pathWith_repeats (same : right.tree = left.tree)
    (offered : ∀ name ty, left.scopes.Offers here name ty → right.scopes.Offers there name ty)
    (parts : ∀ part, Repeats (typeOf part) (further part)) :
    Repeats (pathWith left here typeOf id true) (pathWith right there further id true) := by
  unfold pathWith
  simp only [View.node_congr same, same]
  refine (Repeats.refl _).bind fun head => (Repeats.refl _).bind fun node =>
    (Repeats.refl _).bind fun name => ?_
  cases found : left.scopes.lookup here name with
  | error fault => exact .fault fault
  | ok answer =>
    cases answer with
    | none =>
      refine .of_fails fun names => ?_
      exact Attempt.ensures_unresolved left here name head
    | some symbol =>
      obtain ⟨twin, twinFound, sameTy⟩ := offered name symbol.ty ⟨symbol, found, rfl⟩
      simp only [twinFound, Attempt.guard, pure_bind, sameTy]
      refine Repeats.bind ?_ fun _ => .refl _
      exact Repeats.foldM_walk (fun base part => fragment_repeats same parts base) symbol.ty

theorem entry_repeats (same : right.tree = left.tree)
    (parts : ∀ part, Repeats (typeOf part) (further part)) :
    Repeats (entry left typeOf id) (entry right further id) := by
  unfold entry
  rw [View.twoChildren_congr same]
  refine (Repeats.refl _).bind fun pair => ?_
  exact (parts pair.1).bind fun _ => (parts pair.2).bind fun _ => .refl _

theorem binary_repeats (same : right.tree = left.tree)
    (parts : ∀ part, Repeats (typeOf part) (further part)) (symbol : String) :
    Repeats (binary left typeOf id symbol) (binary right further id symbol) := by
  unfold binary
  rw [View.twoChildren_congr same, same]
  cases BinaryOp.ofSymbol? symbol with
  | none => exact .refl _
  | some op =>
    refine (Repeats.refl _).bind fun pair => ?_
    exact (parts pair.1).bind fun _ => (parts pair.2).bind fun _ => .refl _

theorem unary_repeats (same : right.tree = left.tree)
    (parts : ∀ part, Repeats (typeOf part) (further part)) (symbol : String) :
    Repeats (unary left typeOf id symbol) (unary right further id symbol) := by
  unfold unary
  rw [View.firstChild_congr same, same]
  cases UnaryOp.ofSymbol? symbol with
  | none => exact .refl _
  | some op => exact (Repeats.refl _).bind fun child => (parts child).bind fun _ => .refl _

theorem expressionWith_repeats (same : right.tree = left.tree)
    (offered : ∀ name ty, left.scopes.Offers here name ty → right.scopes.Offers there name ty)
    (parts : ∀ part, Repeats (typeOf part) (further part)) :
    Repeats (expressionWith left here typeOf id) (expressionWith right there further id) := by
  unfold expressionWith
  rw [View.node_congr same]
  refine (Repeats.refl _).bind fun node => ?_
  cases node.kind with
  | baseExpression | expression =>
    rw [View.firstChild_congr same]
    exact (Repeats.refl _).bind parts
  | list => exact (Repeats.mapM parts).bind fun _ => .refl _
  | map =>
    rw [same]
    exact (Repeats.mapM_walk fun _ => entry_repeats same parts).bind fun _ => .refl _
  | path => exact (pathWith_repeats same offered parts).bind fun _ => .refl _
  | binaryExpression => exact binary_repeats same parts node.text
  | unaryExpression => exact unary_repeats same parts node.text
  | number | string | boolean | time | regexp | void => exact .refl _
  | _ =>
    rw [same]
    exact .refl _

/-- Seeing more and going deeper take no answer back. The induction is on the depth to which the
first computation goes; the recursion of paths into indices is one of its levels. -/
theorem expressionWithin_repeats (same : right.tree = left.tree)
    (offered : ∀ name ty, left.scopes.Offers here name ty → right.scopes.Offers there name ty)
    {depth deeper : Nat} (deep : depth ≤ deeper) (id : NodeId) :
    Repeats (expressionWithin left here depth id) (expressionWithin right there deeper id) := by
  induction depth generalizing deeper id with
  | zero => exact .fault _
  | succ depth step =>
    cases deeper with
    | zero => exact absurd deep (Nat.not_succ_le_zero depth)
    | succ deeper =>
      exact expressionWith_repeats same offered fun part => step (Nat.le_of_succ_le_succ deep) part

theorem expression_repeats (same : right.tree = left.tree)
    (offered : ∀ name ty, left.scopes.Offers here name ty → right.scopes.Offers there name ty)
    (id : NodeId) : Repeats (expression left here id) (expression right there id) := by
  have depths : right.depth = left.depth := by simp only [View.depth, same]
  unfold expression
  rw [depths]
  exact expressionWithin_repeats same offered (Nat.le_refl _) id

theorem path_repeats (same : right.tree = left.tree)
    (offered : ∀ name ty, left.scopes.Offers here name ty → right.scopes.Offers there name ty)
    (id : NodeId) : Repeats (path left here id true) (path right there id true) :=
  pathWith_repeats same offered fun part => expression_repeats same offered part

/-- Typing is stable under more bindings. Take two views of one tree, and a scope of each, so that
every name which the first scope shows is shown by the second one with the same type. Then what an
expression is found to be from the first scope it is found to be from the second one, and an error
that it is refused with there, other than that of a missing variable, is the error here too: its
cause, its node and its span. The same goes for a path that has to exist and its symbol. Either way
the same names are handed out. -/
theorem monotone_in_sight (same : right.tree = left.tree)
    (offered : ∀ name ty, left.scopes.Offers here name ty → right.scopes.Offers there name ty)
    (id : NodeId) (names : NameTable) :
    (∀ ty after, (expression left here id).outcome names = (.ok ty, after) →
      (expression right there id).outcome names = (.ok ty, after)) ∧
    (∀ error after, (expression left here id).outcome names = (.error (.error error), after) →
      (∀ name suggestions, error.cause ≠ .unresolvedVariable name suggestions) →
      (expression right there id).outcome names = (.error (.error error), after)) ∧
    (∀ symbol after, (path left here id true).outcome names = (.ok symbol, after) →
      (path right there id true).outcome names = (.ok symbol, after)) ∧
    (∀ error after, (path left here id true).outcome names = (.error (.error error), after) →
      (∀ name suggestions, error.cause ≠ .unresolvedVariable name suggestions) →
      (path right there id true).outcome names = (.error (.error error), after)) := by
  have typed := expression_repeats same offered id
  have reached := path_repeats same offered id
  exact ⟨fun _ _ => typed.found, fun _ _ => typed.told, fun _ _ => reached.found,
    fun _ _ => reached.told⟩

end Typing
end Views

/-- The sum of the variable `x` and a number, its product with a text, and its field `f`. -/
def Tree.scales : Tree where
  nodes := #[
    ⟨.name, .point 0, "x", []⟩, ⟨.path, .point 0, "", [⟨0⟩]⟩, ⟨.number, .point 0, "1", []⟩,
    ⟨.binaryExpression, .point 0, "+", [⟨1⟩, ⟨2⟩]⟩, ⟨.string, .point 0, "s", []⟩,
    ⟨.binaryExpression, .point 0, "*", [⟨1⟩, ⟨4⟩]⟩, ⟨.name, .point 0, "f", []⟩,
    ⟨.pathFragment, .point 0, "", [⟨6⟩]⟩, ⟨.path, .point 0, "", [⟨0⟩, ⟨7⟩]⟩]
  root := ⟨3⟩

/-- A single scope, with an integer `x`. -/
def Forest.narrow : Forest where
  scopes := [⟨none, .root, .ofList [(⟨0⟩, ⟨⟨0⟩, .int⟩)]⟩]

/-- A scope with texts `x` and `y`, and inside it one with an integer `x`. -/
def Forest.wide : Forest where
  scopes := [⟨none, .root, .ofList [(⟨0⟩, ⟨⟨0⟩, .string⟩), (⟨1⟩, ⟨⟨1⟩, .string⟩)]⟩,
    ⟨some ⟨0⟩, .block, .ofList [(⟨0⟩, ⟨⟨0⟩, .int⟩)]⟩]

theorem Forest.wide_offers (name : Name) (ty : Ty) (offers : Forest.narrow.Offers ⟨0⟩ name ty) :
    Forest.wide.Offers ⟨1⟩ name ty := by
  obtain ⟨symbol, found, rfl⟩ := offers
  by_cases same : name = ⟨0⟩
  · subst same
    cases found
    exact ⟨_, rfl, rfl⟩
  · have alone : Forest.narrow.Chain ⟨0⟩
        [(⟨0⟩, ⟨none, .root, SymbolTable.empty.insert ⟨0⟩ ⟨⟨0⟩, .int⟩⟩)] := .outermost rfl rfl
    rw [alone.lookup_eq] at found
    simp only [List.findSome?_singleton, SymbolTable.find?_insert, same, if_false] at found
    cases found

/-- What the single scope says of the sum, of the product and of the paths, the inner scope says too,
from which more is visible and an `x` is hidden. -/
theorem Tree.scales_monotone :
    (Typing.expression ⟨scales, .wide, .empty⟩ ⟨1⟩ ⟨3⟩).outcome ⟨["x", "y"], by decide⟩ =
      (.ok .int, ⟨["x", "y"], by decide⟩) ∧
    (Typing.expression ⟨scales, .wide, .empty⟩ ⟨1⟩ ⟨5⟩).outcome ⟨["x", "y"], by decide⟩ =
      (.error (.error ⟨.typeOperationIncompatible "*" .int .string, ⟨5⟩, .point 0⟩),
        ⟨["x", "y"], by decide⟩) ∧
    (Typing.path ⟨scales, .wide, .empty⟩ ⟨1⟩ ⟨1⟩ true).outcome ⟨["x", "y"], by decide⟩ =
      (.ok ⟨⟨0⟩, .int⟩, ⟨["x", "y"], by decide⟩) ∧
    (Typing.path ⟨scales, .wide, .empty⟩ ⟨1⟩ ⟨8⟩ true).outcome ⟨["x", "y"], by decide⟩ =
      (.error (.error ⟨.typeIndexIncompatible .int, ⟨7⟩, .point 0⟩),
        ⟨["x", "y"], by decide⟩) := by
  have stable := @Typing.monotone_in_sight ⟨scales, .narrow, .empty⟩ ⟨scales, .wide, .empty⟩
    ⟨0⟩ ⟨1⟩ rfl Forest.wide_offers
  refine ⟨(stable ⟨3⟩ _).1 _ _ rfl, (stable ⟨5⟩ _).2.1 _ _ rfl ?_, (stable ⟨1⟩ _).2.2.1 _ _ rfl,
    (stable ⟨8⟩ _).2.2.2 _ _ rfl ?_⟩
  · exact fun _ _ => Cause.noConfusion
  · exact fun _ _ => Cause.noConfusion

end ScopeTyping
