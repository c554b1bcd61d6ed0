import ScopeTyping.Proofs.Pass.Introductions

/-! The type that stands for a missing binding never escapes. At no moment of a run is it part
of a type that is bound, or of the type of an expression or of a written type. So an assignment
that is told it about its variable knows that nothing is bound, and an assignment that may bind
its variable is told it. -/
namespace ScopeTyping

/-- A path without fragments whose variable a scope does not show. -/
def Tree.Unbound (tree : Tree) (now : Snapshot) (scope : ScopeId) (path : NodeId) : Prop :=
  tree.child? path .pathFragment = .ok none ∧
    ∃ head node, tree.child? path .name = .ok (some head) ∧ tree.node head = .ok node ∧
      ¬ now.Shows scope node.text

section Moments
variable {tree : Tree} {names after : NameTable} {now : Snapshot} {scope : ScopeId} {path : NodeId}
  {symbol : Symbol} {moment : Moment}

theorem Snapshot.Shows.grow {text : String} (shows : now.Shows scope text)
    (grown : now.names.Grows after) : Snapshot.Shows { now with names := after } scope text := by
  obtain ⟨name, bound, known, seen⟩ := shows
  exact ⟨name, bound, grown.text? known, seen⟩

/-- A path that need not be there leads to a settled type, or to none if it is unbound. -/
theorem Typing.path_leads (settled : now.scopes.Settled) (named : now.scopes.Named now.names)
    (ran : (Typing.path (now.view tree) scope path false).outcome now.names =
      (.ok symbol, after)) :
    (symbol.ty = .absent ∨ symbol.ty.Settled) ∧
      (symbol.ty = .absent ↔ tree.Unbound { now with names := after } scope path) := by
  obtain ⟨grown, leads⟩ := Attempt.ensures_ok (Typing.path_yields settled false _) ran
  have unbound : tree.Unbound { now with names := after } scope path → symbol.ty = .absent := by
    rintro ⟨_, head, node, headChild, held, hidden⟩
    refine Typing.absent_of_unseen ran headChild held fun bound seen => hidden ?_
    exact (named.shows_of_lookup seen).grow grown
  rcases leads with known | ⟨_, absent, unseen, bare, head, node, headChild, held, nameText⟩
  · refine ⟨.inr known, fun absent => ?_, unbound⟩
    rw [absent] at known
    exact known.elim
  · refine ⟨.inl absent, fun _ => ⟨bare, head, node, headChild, held, ?_⟩, unbound⟩
    rintro ⟨name, bound, known, seen⟩
    cases NameTable.name_unique known nameText
    cases seen.symm.trans unseen

/-- At every moment of a run every type that is bound is settled, and so is every type that an
expression or a written type has then, however deep it stands in what is asked. An assignment
is told a settled type of its variable or none, and none exactly if its path has no fragments
and the scope does not show the variable. -/
theorem Tree.resolve_settled (tree : Tree) (names : NameTable) {moment : Moment}
    (member : moment ∈ (tree.resolve names).journal) :
    moment.known.scopes.Settled ∧
    (∀ scope depth id known ty after,
      (Typing.expressionWithin (moment.known.view tree) scope depth id).outcome known =
        (.ok ty, after) → ty.Settled) ∧
    (∀ depth id known ty after,
      (Typing.declaredWithin (moment.known.view tree) depth id).outcome known =
        (.ok ty, after) → ty.Settled) ∧
    (∀ id scope ty, moment.event = .asked (.expression id scope) (.type ty) → ty.Settled) ∧
    (∀ id ty, moment.event = .asked (.declared id) (.type ty) → ty.Settled) ∧
    (∀ path scope ty, moment.event = .asked (.path path scope false) (.type ty) →
      (ty = .absent ∨ ty.Settled) ∧
        (ty = .absent ↔ tree.Unbound moment.known scope path)) := by
  obtain ⟨past, chronicle⟩ := Resolver.chronicle_of_mem member
  have settled : moment.known.scopes.Settled := chronicle.lawful.settled
  have before := chronicle.before.lawful
  have step := chronicle.step_of_cons
  obtain ⟨event, known⟩ := moment
  refine ⟨settled, ?_, ?_, ?_, ?_, ?_⟩
  · intro scope depth id names ty after ran
    exact (Attempt.ensures_ok (Typing.expressionWithin_yields settled _) ran).2
  · intro depth id names ty after ran
    exact (Attempt.ensures_ok (Typing.declaredWithin_yields _) ran).2
  · rintro id scope ty rfl
    cases step with
    | answered given =>
      obtain ⟨found, _, ran, answered⟩ := Fallible.outcome_bind_eq_ok.1 given
      cases answered
      exact (Attempt.ensures_ok (Typing.expression_yields before.settled _) ran).2
  · rintro id ty rfl
    cases step with
    | answered given =>
      obtain ⟨found, _, ran, answered⟩ := Fallible.outcome_bind_eq_ok.1 given
      cases answered
      exact (Attempt.ensures_ok (Typing.declared_yields _) ran).2
  · rintro path scope ty rfl
    cases step with
    | answered given =>
      obtain ⟨symbol, _, ran, answered⟩ := Fallible.outcome_bind_eq_ok.1 given
      cases answered
      exact Typing.path_leads before.settled before.named ran

end Moments

/-- The assignment of the sample story is told that nothing is bound to its variable. -/
theorem Tree.sample_settled : ∃ moment ∈ (Tree.sample.resolve .empty).journal,
    moment.event = .asked (.path ⟨8⟩ ⟨1⟩ false) (.type .absent) ∧ moment.known.scopes.Settled ∧
      Tree.sample.Unbound moment.known ⟨1⟩ ⟨8⟩ := by
  have asked : Happened (Tree.sample.resolve .empty).journal
      (.asked (.path ⟨8⟩ ⟨1⟩ false) (.type .absent)) := by decide +kernel
  obtain ⟨moment, member, told⟩ := asked
  obtain ⟨settled, _, _, _, _, targets⟩ := Tree.resolve_settled Tree.sample .empty member
  exact ⟨moment, member, told, settled, (targets _ _ _ told).2.1 rfl⟩

end ScopeTyping
