import ScopeTyping.Proofs.Pass.Persistence

/-! The final scopes certify the assignments. Each assignment was checked against scopes
that were half built; it still holds of the scopes at the end, whatever was bound later. -/
namespace ScopeTyping

/-- What a resolution shows of a tree. -/
def Resolution.view (resolution : Resolution) (tree : Tree) : View :=
  ⟨tree, resolution.scopes, resolution.annotations⟩

section Certificates
variable {tree : Tree} {names between : NameTable} {journal earlier later : List Moment}
  {id path value : NodeId} {scope : ScopeId} {target : Symbol} {ty : Ty}

/-- A name that was bound is shown from then on. -/
theorem Chronicle.lookup_of_bound {past : List Moment} {symbol : Symbol} {known : Snapshot}
    (chronicle : Chronicle tree.resolver names journal) (ready : Ready past scope)
    (bound : (⟨.bound scope symbol, known⟩ :: past) <:+ journal) :
    (latest names journal).scopes.lookup scope symbol.name = .ok (some symbol) := by
  have kept := (chronicle.stable bound).lookups scope fun _ =>
    not_headerBinding_of_ready (ready.later (List.suffix_cons _ _))
  obtain ⟨newer, rfl⟩ := bound
  have here := chronicle.of_append
  have step := here.step_of_cons
  apply kept
  show known.scopes.lookup scope symbol.name = _
  cases step with
  | bound _ _ done => exact Forest.lookup_insert_self here.before.consistent.nested done

/-- The path of an assignment leads to a type that accepts the value, at the end of the run. -/
theorem Assigned.path_accepts (assigned : Assigned tree.resolver names journal id scope path value
      target ty earlier later between)
    (chronicle : Chronicle tree.resolver names journal) (sound : tree.Sound) :
    ∃ symbol after, (Typing.path ((latest names journal).view tree) scope path true).outcome
      (latest names journal).names = (.ok symbol, after) ∧ symbol.ty.accepts ty = true := by
  have grown := assigned.grown.trans assigned.reached
  obtain ⟨newer, same⟩ := grown
  have before : Chronicle tree.resolver names earlier := (same ▸ chronicle).of_append
  have settled := before.lawful.settled
  rcases assigned.settled with ⟨known, fits⟩ | ⟨unknown, head, node, symbol, moment, facts⟩
  · have led := Typing.outcome_path_of_known assigned.asked known
    have inside := sound.inside path id (Tree.child?_eq_ok_some assigned.pathChild).1
    obtain ⟨symbol, after, ran, sameTy⟩ :=
      chronicle.path_persists ⟨newer, same⟩ assigned.ready sound inside (.refl _) led
    exact ⟨symbol, after, ran, sameTy ▸ fits⟩
  · obtain ⟨headChild, held, named, typed, bound⟩ := facts
    have leads := (Attempt.ensures_ok (Typing.path_yields settled false _) assigned.asked).2
    rcases leads with known | ⟨_, _, _, bare, _⟩
    · rw [known.isAbsent] at unknown
      cases unknown
    · have shown := chronicle.lookup_of_bound (assigned.ready.later assigned.grown) bound
      have stillNamed := (chronicle.grows bound).text? named
      rw [← NameTable.intern_of_text? stillNamed] at shown
      refine ⟨_, _, Typing.outcome_path_of_bare headChild held bare shown, ?_⟩
      show symbol.ty.accepts ty = true
      rw [typed]
      split
      · exact Ty.any_accepts ty
      · exact Ty.accepts_refl ty

/-- The value of an assignment has its type at the end of the run. -/
theorem Assigned.value_typed (assigned : Assigned tree.resolver names journal id scope path value
      target ty earlier later between)
    (chronicle : Chronicle tree.resolver names journal) (sound : tree.Sound) :
    ∃ after, (Typing.expression ((latest names journal).view tree) scope value).outcome
      (latest names journal).names = (.ok ty, after) := by
  obtain ⟨newer, same⟩ := assigned.grown.trans assigned.reached
  have before : Chronicle tree.resolver names earlier := (same ▸ chronicle).of_append
  have grown := (Attempt.ensures_ok
    (Typing.path_yields before.lawful.settled false _) assigned.asked).1
  obtain ⟨fragment, _, valueChild⟩ := assigned.valueChild
  have inside := sound.inside value fragment (Tree.child?_eq_ok_some valueChild).1
  exact chronicle.expression_persists ⟨newer, same⟩ assigned.ready sound inside grown assigned.typed

end Certificates

/-- In a run that succeeds, every assignment that was visited holds of the final scopes: its
path leads to a type, its value has one, and the first accepts the second. -/
theorem Tree.resolve_certifies (tree : Tree) (names : NameTable) (sound : tree.Sound)
    {resolution : Resolution} (succeeds : (tree.resolve names).outcome = .ok resolution)
    {id : NodeId} {scope : ScopeId} (assignment : tree.kind id = .ok .assignment)
    (visited : Happened (tree.resolve names).journal (.visited id scope)) :
    ∃ path fragment value target ty after later,
      tree.child? id .path = .ok (some path) ∧
      tree.child? id .assignmentFragment = .ok (some fragment) ∧
      tree.child? fragment .baseExpression = .ok (some value) ∧
      (Typing.path (resolution.view tree) scope path true).outcome (tree.resolve names).names =
        (.ok target, after) ∧
      (Typing.expression (resolution.view tree) scope value).outcome (tree.resolve names).names =
        (.ok ty, later) ∧
      target.ty.accepts ty = true := by
  have chronicle : Chronicle tree.resolver names (tree.resolve names).history :=
    Resolver.chronicle_run
  obtain ⟨finalNames, final, finished⟩ := Resolver.run_finished succeeds
  obtain ⟨path, value, target, ty, earlier, later, between, assigned⟩ :=
    (finished id scope (Run.happened_journal.1 visited)).1 assignment
  obtain ⟨symbol, after, led, accepts⟩ := assigned.path_accepts chronicle sound
  obtain ⟨last, typed⟩ := assigned.value_typed chronicle sound
  obtain ⟨fragment, fragmentChild, valueChild⟩ := assigned.valueChild
  have view : resolution.view tree = (latest names (tree.resolve names).history).view tree := by
    rw [final]
    rfl
  rw [view, show (tree.resolve names).names = _ from finalNames]
  exact ⟨path, fragment, value, symbol, ty, after, last, assigned.pathChild, fragmentChild,
    valueChild, led, typed, accepts⟩

/-- The function of the sample story binds its variable, and that still holds at the end. -/
theorem Tree.sample_certified : ∃ resolution,
    (Tree.sample.resolve .empty).outcome = .ok resolution ∧
    Happened (Tree.sample.resolve .empty).journal (.visited ⟨13⟩ ⟨1⟩) ∧
    ∃ path fragment value target ty after later,
      Tree.sample.child? ⟨13⟩ .path = .ok (some path) ∧
      Tree.sample.child? ⟨13⟩ .assignmentFragment = .ok (some fragment) ∧
      Tree.sample.child? fragment .baseExpression = .ok (some value) ∧
      (Typing.path (resolution.view Tree.sample) ⟨1⟩ path true).outcome
        (Tree.sample.resolve .empty).names = (.ok target, after) ∧
      (Typing.expression (resolution.view Tree.sample) ⟨1⟩ value).outcome
        (Tree.sample.resolve .empty).names = (.ok ty, later) ∧
      target.ty.accepts ty = true := by
  obtain ⟨resolution, outcome⟩ := Tree.sample_resolves
  have visited : Happened (Tree.sample.resolve .empty).journal (.visited ⟨13⟩ ⟨1⟩) := by
    decide +kernel
  exact ⟨resolution, outcome, visited,
    Tree.resolve_certifies Tree.sample .empty Tree.sample_sound outcome rfl visited⟩

end ScopeTyping
