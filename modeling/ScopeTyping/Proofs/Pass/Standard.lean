import ScopeTyping.Proofs.Pass.Chronicle
import ScopeTyping.Proofs.Typing.Settled

/-! Runs by the rules of the language. In such a run names are only handed out, every name
that is bound has a text, and every type is settled; so an assignment that is told nothing
about its variable is the first to bind it (`Binder.fresh_of_assigned`). -/
namespace ScopeTyping

/-- The pass over a tree by the rules of the language. -/
abbrev Tree.resolver (tree : Tree) : Resolver := ⟨tree, .standard⟩

theorem requiredChild_eq {tree : Tree} {id child : NodeId} {wanted : Kind}
    (known : tree.child? id wanted = .ok (some child)) :
    tree.resolver.requiredChild id wanted = pure child := by
  simp only [Resolver.requiredChild, Attempt.requiredChild, known, Attempt.guard, pure_bind]

/-- What is known at a moment of a run by the rules of the language, which began with the
given names. -/
structure Lawful (names : NameTable) (now : Snapshot) : Prop where
  settled : now.scopes.Settled
  named : now.scopes.Named now.names
  grown : names.Grows now.names

section Standard
variable {tree : Tree} {past : List Moment} {now after : Snapshot} {event : Event}
  {scope : ScopeId} {id : NodeId} {ty : Ty} {names : NameTable}

theorem Resolver.answer_yields (settled : now.scopes.Settled) (call : Call) :
    Yields (fun _ => True) (tree.resolver.answer (now.view tree) call) := by
  intro names
  cases call with
  | path id scope mustExist =>
    exact (Typing.path_yields settled mustExist names).bind fun symbol after _ => Yields.pure trivial after
  | expression id scope => exact ((Typing.expression_yields settled).bind fun _ _ => .pure trivial) names
  | declared id => exact (Typing.declared_yields.bind fun _ _ => .pure trivial) names
  | returns body scope ty =>
    exact ((Typing.checkReturns_yields settled).bind fun _ _ => .pure trivial) names

/-- Answering a question hands out names and takes none back, whatever the answer is. -/
theorem Resolver.answer_grows (settled : now.scopes.Settled) {call : Call}
    {outcome : Except Failure Answer} {known : NameTable}
    (given : (tree.resolver.answer (now.view tree) call).outcome names = (outcome, known)) :
    names.Grows known := by
  have yields := @answer_yields tree now settled call names
  cases outcome with
  | ok value => exact (Attempt.ensures_ok yields given).1
  | error failure => exact (Attempt.ensures_error yields given).1

/-- Only settled types are bound. -/
theorem Binder.settled (binder : Binder tree.resolver past now scope id ty)
    (settled : now.scopes.Settled) : ty.Settled := by
  cases binder with
  | loopVariable _ _ _ => exact True.intro
  | parameter _ _ _ declared => exact (Attempt.ensures_ok (Typing.declared_yields _) declared).2
  | assigned _ _ _ typed _ =>
    have known := (Attempt.ensures_ok (Typing.expression_yields settled _) typed).2
    rw [known.isAbsent]
    exact known

/-- The names that a step makes known are those known before it, and perhaps more. -/
theorem Step.grows (step : Step tree.resolver past now event after)
    (settled : now.scopes.Settled) : now.names.Grows after.names := by
  cases step with
  | bound _ _ _ => exact NameTable.grows_intern _ _
  | answered given => exact Resolver.answer_grows settled given
  | refused given => exact Resolver.answer_grows settled given
  | visited _ _ | opened _ _ | attached _ _ _ _ | ready _ => exact .refl _

theorem Lawful.step (lawful : Lawful names now) (step : Step tree.resolver past now event after) :
    Lawful names after := by
  have grown := step.grows lawful.settled
  refine ⟨?_, ?_, lawful.grown.trans grown⟩
  · intro scope found held entry member
    rcases step.scope_cases held with old | ⟨_, _, rfl, _, _⟩ |
      ⟨before, _, _, symbol, old, binder, _, _, _, rfl⟩
    · exact lawful.settled scope found old entry member
    · cases member
    · rcases SymbolTable.mem_put member with rfl | earlier
      · exact binder.settled lawful.settled
      · exact lawful.settled scope before old entry earlier
  · intro scope found held entry member
    have kept : ∀ before, now.scopes.scope scope = .ok before → entry ∈ before.symbols.entries →
        ∃ text, after.names.text? entry.1 = some text := by
      intro before old earlier
      obtain ⟨text, known⟩ := lawful.named scope before old entry earlier
      exact ⟨text, grown.text? known⟩
    rcases step.scope_cases held with old | ⟨_, _, rfl, _, _⟩ |
      ⟨before, _, node, symbol, old, _, rfl, nodeHeld, named, rfl⟩
    · exact kept found old member
    · cases member
    · rcases SymbolTable.mem_put member with rfl | earlier
      · cases step with
        | bound _ _ _ => exact ⟨_, NameTable.text?_intern _ _⟩
      · exact kept before old earlier

end Standard

theorem Chronicle.lawful {tree : Tree} {names : NameTable} {journal : List Moment}
    (chronicle : Chronicle tree.resolver names journal) : Lawful names (latest names journal) := by
  induction chronicle with
  | begun =>
    have empty : ∀ scope found, Forest.empty.scope scope ≠ .ok found := fun scope found held => by
      simp [Forest.scope_eq_ok_iff, Forest.empty] at held
    exact ⟨fun scope found held => absurd held (empty scope found),
      fun scope found held => absurd held (empty scope found), .refl names⟩
  | next before step lawful => exact lawful.step step

/-- An assignment binds only a name that its scope did not show. -/
theorem Binder.fresh_of_ready {tree : Tree} {past : List Moment} {now : Snapshot}
    {scope : ScopeId} {id : NodeId} {ty : Ty} {node : Node}
    (binder : Binder tree.resolver past now scope id ty) (ready : Ready past scope)
    (settled : now.scopes.Settled) (held : tree.node id = .ok node) :
    now.scopes.lookup scope (now.names.intern node.text).1 = .ok none := by
  cases binder with
  | loopVariable _ _ pending => exact absurd ready pending
  | parameter _ _ pending _ => exact absurd ready pending
  | assigned _ head asked typed unknown =>
    have leads := (Attempt.ensures_ok (Typing.path_yields settled false _) asked).2
    rcases leads with known | ⟨_, _, unbound, _, other, found, named, there, text⟩
    · rw [known.isAbsent] at unknown
      cases unknown
    · cases head.symm.trans named
      cases held.symm.trans there
      have grown := (Attempt.ensures_ok (Typing.expression_yields settled _) typed).1
      rw [NameTable.intern_of_text? (grown.text? text)]
      exact unbound

/-- The sample story resolves. -/
theorem Tree.sample_resolves :
    ∃ resolution, (Tree.sample.resolve .empty).outcome = .ok resolution :=
  exists_of_isOk (by decide +kernel)

end ScopeTyping
