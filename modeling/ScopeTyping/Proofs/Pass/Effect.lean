import ScopeTyping.Proofs.Pass.Handlers
import ScopeTyping.Proofs.Pass.Idling
import ScopeTyping.Proofs.Pass.Introductions

/-! The effect of one assignment, from whatever state of a run it is visited. If it succeeds, either
it binds a variable that its scope did not show, behind all that is bound there, or it changes no
scope (`Tree.Assigns`). It fails only if a side of it has no type, or if its variable is shown and
does not accept the value (`Tree.Refuses`), and only then it is told that types differ. What stands
below the assignment is visited after the binding and has no effect. -/
namespace ScopeTyping
namespace Tree

/-- The path of an assignment leads to a type, or to none if its variable is not shown. -/
def Targets (tree : Tree) (now : Snapshot) (scope : ScopeId) (id : NodeId) (target : Ty) : Prop :=
  ∃ path symbol after, tree.child? id .path = .ok (some path) ∧
    (Typing.path (now.view tree) scope path false).outcome now.names = (.ok symbol, after) ∧
    symbol.ty = target

/-- What an assignment that succeeds makes of the scopes. -/
inductive Assigns (tree : Tree) (now : Snapshot) (scope : ScopeId) (id : NodeId)
    (after : Snapshot) : Prop where
  /-- A variable that was not shown is bound to the type of the value, behind all that is bound in
  the scope. -/
  | introduced {text : String} {name : Name} {ty : Ty} {found : Scope} {table : SymbolTable}
      (introduces : tree.Introduces now scope id text) (gives : tree.Gives now scope id ty)
      (named : after.names.text? name = some text) (held : now.scopes.scope scope = .ok found)
      (last : table.entries = found.symbols.entries ++ [(name, ⟨name, ty⟩)])
      (scopes : after.scopes =
        ⟨now.scopes.scopes.set scope.index { found with symbols := table }⟩) :
      Assigns tree now scope id after
  /-- A variable that was shown accepts the value and stays as it is. -/
  | accepted {target ty : Ty} (targets : tree.Targets now scope id target)
      (gives : tree.Gives now scope id ty) (shown : ∀ text, ¬ tree.Introduces now scope id text)
      (fits : target.accepts ty = true) (scopes : after.scopes = now.scopes) :
      Assigns tree now scope id after

/-- The variable of an assignment is shown and does not accept the value. -/
structure Mismatches (tree : Tree) (now : Snapshot) (scope : ScopeId) (id : NodeId)
    (target ty : Ty) : Prop where
  targets : tree.Targets now scope id target
  gives : tree.Gives now scope id ty
  shown : ∀ text, ¬ tree.Introduces now scope id text
  unfit : target.accepts ty = false

/-- How an assignment fails: as typing does, because one of its sides has no type, or because it
mismatches. -/
inductive Refuses (tree : Tree) (now : Snapshot) (scope : ScopeId) (id : NodeId) : Failure → Prop where
  | untyped {failure : Failure} (typing : failure.OfTyping)
      (apart : ∀ target ty, tree.Targets now scope id target → ¬ tree.Gives now scope id ty) :
      Refuses tree now scope id failure
  | mismatch {told : SemanticError} {target ty : Ty}
      (cause : told.cause = .typeAssignmentDifferent target ty)
      (mismatches : tree.Mismatches now scope id target ty) : Refuses tree now scope id (.error told)

section Sides
variable {tree : Tree} {now after : Snapshot} {scope : ScopeId} {id : NodeId} {told : SemanticError}
  {failure : Failure} {target other ty given : Ty}

theorem Targets.unique (targets : tree.Targets now scope id target)
    (also : tree.Targets now scope id other) : target = other := by
  obtain ⟨path, symbol, _, pathChild, led, rfl⟩ := targets
  obtain ⟨_, _, _, otherChild, otherLed, rfl⟩ := also
  cases pathChild.symm.trans otherChild
  cases led.symm.trans otherLed
  rfl

theorem Gives.unique (gives : tree.Gives now scope id ty) (also : tree.Gives now scope id given) :
    ty = given := by
  obtain ⟨fragment, value, _, fragmentChild, valueChild, typed⟩ := gives
  obtain ⟨_, _, _, otherFragment, otherValue, otherTyped⟩ := also
  cases fragmentChild.symm.trans otherFragment
  cases valueChild.symm.trans otherValue
  cases typed.symm.trans otherTyped
  rfl

/-- An error about types that differ comes from an assignment that mismatches. -/
theorem Refuses.mismatches_of_cause (refuses : tree.Refuses now scope id (.error told))
    (cause : told.cause = .typeAssignmentDifferent target ty) :
    tree.Mismatches now scope id target ty := by
  cases refuses with
  | untyped typing _ =>
    replace typing : told.cause.ofTyping = true := typing
    rw [cause] at typing
    cases typing
  | mismatch other mismatches =>
    cases other.symm.trans cause
    exact mismatches

/-- If both sides have types, an assignment fails because these differ. -/
theorem Refuses.of_typed (refuses : tree.Refuses now scope id failure)
    (targets : tree.Targets now scope id target) (gives : tree.Gives now scope id ty) :
    tree.Mismatches now scope id target ty ∧ ∃ told, failure = .error told ∧
      told.cause = .typeAssignmentDifferent target ty := by
  cases refuses with
  | untyped _ apart => exact absurd gives (apart target ty targets)
  | mismatch cause mismatches =>
    cases mismatches.targets.unique targets
    cases mismatches.gives.unique gives
    exact ⟨mismatches, _, rfl, cause⟩

/-- An assignment that mismatches does not succeed. -/
theorem Assigns.not_mismatches (assigns : tree.Assigns now scope id after) :
    ¬ tree.Mismatches now scope id target ty := by
  intro mismatches
  cases assigns with
  | introduced introduces _ _ _ _ _ => exact mismatches.shown _ introduces
  | accepted targets gives _ fits _ =>
    cases mismatches.targets.unique targets
    cases mismatches.gives.unique gives
    cases fits.symm.trans mismatches.unfit

end Sides
end Tree

variable {tree : Tree} {names : NameTable} {id path value head : NodeId} {scope : ScopeId}
  {node : Node} {before after : Progress} {target ty : Ty} {visit : Resolver.Visit}

namespace Resolver

/-! ### Each step, whichever way it ends -/

section Steps
variable {α : Type} {result : α → Progress → Prop} {failed : Failure → Progress → Prop}

/-- A child that the grammar asks for is found, or there is none. -/
theorem requiredChild_bind {parent : NodeId} {kind : Kind} {next : NodeId → Pass α}
    (found : ∀ child, tree.child? parent kind = .ok (some child) →
      (next child).Ensures before result failed)
    (missing : (∀ child, tree.child? parent kind ≠ .ok (some child)) →
      ∀ failure, failure.OfTyping → failed failure before) :
    (tree.resolver.requiredChild parent kind >>= next).Ensures before result failed := by
  unfold requiredChild Attempt.requiredChild
  cases known : tree.child? parent kind with
  | error fault => exact missing (by simp [known]) (.fault fault) trivial
  | ok answer =>
    cases answer with
    | some child => exact found child known
    | none =>
      unfold Attempt.malformed SemanticError.malformed
      cases held : tree.node parent with
      | ok node => exact missing (by simp [known]) _ rfl
      | error fault => exact missing (by simp [known]) (.fault fault) trivial

/-- A question is answered, or its typing fails. -/
theorem ask_ensures {call : Call} {answer : α → Answer} {question : View → Typing α}
    {done : α → NameTable → Prop}
    (asks : ∀ view, tree.resolver.answer view call =
      question view >>= fun value => pure (answer value))
    (yields : YieldsFrom before.known.names done (question (before.known.view tree))) :
    (Pass.ask tree call answer question).Ensures before
      (fun value after => before.Asks tree.resolver call (answer value) after)
      (fun failure _ => failure.OfTyping ∧ ∃ last,
        (question (before.known.view tree)).outcome before.known.names = (.error failure, last)) := by
  apply Attempt.ensures_of_outcome
  · exact fun value after ran => Pass.ask_ok asks ran
  · intro failure after ran
    rw [Pass.outcome_ask] at ran
    rcases given : (question (before.known.view tree)).outcome before.known.names with
      ⟨outcome, last⟩
    rw [given] at ran
    cases outcome with
    | ok value => cases ran
    | error told =>
      have typing := (Attempt.ensures_error yields given).2
      cases told with
      | error told =>
        cases ran
        exact ⟨typing, last, rfl⟩
      | fault fault =>
        cases ran
        exact ⟨typing, last, rfl⟩

theorem path_ensures (settled : before.known.scopes.Settled) :
    (tree.resolver.path path scope false).Ensures before
      (fun symbol after => before.Asks tree.resolver (.path path scope false) (.type symbol.ty) after)
      (fun failure _ => failure.OfTyping ∧ ∃ last,
        (Typing.path (before.known.view tree) scope path false).outcome before.known.names =
          (.error failure, last)) :=
  ask_ensures (fun _ => rfl) (Typing.path_yields settled false _)

theorem expression_ensures (settled : before.known.scopes.Settled) :
    (tree.resolver.expression value scope).Ensures before
      (fun ty after => before.Asks tree.resolver (.expression value scope) (.type ty) after)
      (fun failure _ => failure.OfTyping ∧ ∃ last,
        (Typing.expression (before.known.view tree) scope value).outcome before.known.names =
          (.error failure, last)) :=
  ask_ensures (fun _ => rfl) (Typing.expression_yields settled _)

/-- In a scope that is there, a text is bound. -/
theorem bind_ensures (held : tree.node head = .ok node)
    (there : scope.index < before.known.scopes.size) :
    (Pass.bind tree scope head ty).Ensures before
      (fun _ after => before.Binds tree scope head ty after) (fun _ _ => False) := by
  apply Attempt.ensures_of_outcome
  · exact fun _ after ran => Pass.bind_ok ran
  · intro failure after ran
    obtain ⟨found, inside⟩ := Forest.scope_exists there
    obtain ⟨replaced, scopes, done⟩ :=
      Forest.insert_exists inside ⟨(before.known.names.intern node.text).1, ty⟩
    rw [Pass.outcome_bindName held, done] at ran
    cases ran

end Steps

/-! ### The assignment -/

theorem Weighs.targets (weighs : tree.resolver.Weighs id scope path target ty before after) :
    tree.Targets before.known scope id target := by
  obtain ⟨_, _, _, _, _, asks, _⟩ := weighs.typed
  obtain ⟨symbol, same, ran, _⟩ := asks.path_ran
  exact ⟨path, symbol, _, weighs.pathChild, ran, same⟩

/-- A variable that leads nowhere has a name to be bound to. -/
theorem Weighs.headed (weighs : tree.resolver.Weighs id scope path target ty before after)
    (settled : before.known.scopes.Settled) (kind : tree.kind id = .ok .assignment)
    (unknown : target.isAbsent = true) :
    ∃ head node, tree.child? path .name = .ok (some head) ∧ tree.node head = .ok node := by
  obtain ⟨_, symbol, _, pathChild, led, rfl⟩ := weighs.targets
  cases weighs.pathChild.symm.trans pathChild
  obtain ⟨_, head, node, headChild, held, _⟩ :=
    Tree.introduces_of_absent settled kind pathChild led unknown
  exact ⟨head, node, headChild, held⟩

/-- The scope in which a path was typed is there. -/
theorem Weighs.inside (weighs : tree.resolver.Weighs id scope path target ty before after)
    (sound : tree.Sound) (nested : before.known.scopes.Nested) (lawful : Lawful names before.known) :
    scope.index < after.known.scopes.size := by
  obtain ⟨_, _, same⟩ := weighs.gives sound nested lawful
  obtain ⟨_, _, _, _, led, _⟩ := weighs.targets
  rw [same]
  exact Typing.inside_of_path led

/-- Typing both sides hands out names and takes none back. -/
theorem Weighs.grows (weighs : tree.resolver.Weighs id scope path target ty before after)
    (settled : before.known.scopes.Settled) : before.known.names.Grows after.known.names := by
  obtain ⟨_, _, between, _, _, asks, typed⟩ := weighs.typed
  cases asks with
  | done given =>
    cases typed with
    | done again => exact (answer_grows settled given).trans (answer_grows settled again)

/-- Entering an assignment has the effect that it should have. -/
theorem Enters.assigns (enters : tree.resolver.Enters id scope before .assignment scope after)
    (sound : tree.Sound) (nested : before.known.scopes.Nested) (lawful : Lawful names before.known)
    (kind : tree.kind id = .ok .assignment) :
    tree.Assigns before.known scope id after.known ∧
      after.known.scopes.size = before.known.scopes.size ∧
      after.known.annotations = before.known.annotations ∧
      before.known.names.Grows after.known.names := by
  cases enters with
  | straight impossible => cases impossible
  | condition impossible _ _ _ => cases impossible
  | accepted weighs known fits =>
    obtain ⟨gives, _, same⟩ := weighs.gives sound nested lawful
    have shown := weighs.introduces_nothing lawful.named known
    have scopes := congrArg Snapshot.scopes same
    have annotations := congrArg Snapshot.annotations same
    exact ⟨.accepted weighs.targets gives shown fits scopes, congrArg Forest.size scopes, annotations,
      weighs.grows lawful.settled⟩
  | introduced weighs unknown headChild binds =>
    obtain ⟨gives, settled, same⟩ := weighs.gives sound nested lawful
    have grown := weighs.grows lawful.settled
    have scopes := congrArg Snapshot.scopes same
    have annotations := congrArg Snapshot.annotations same
    cases binds with
    | @done node _ _ held inserted =>
      obtain ⟨introduces, name, text, unseen⟩ :=
        weighs.introduces lawful.settled unknown kind headChild held
      rw [NameTable.intern_of_text? text, settled.isAbsent, scopes] at inserted
      obtain ⟨found, table, there, last, filled⟩ := Forest.insert_of_unseen inserted unseen
      have named := NameTable.text?_intern_of_text? text node.text
      exact ⟨.introduced introduces gives named there last filled, Forest.size_insert inserted,
        annotations, grown.trans (NameTable.grows_intern _ _)⟩

/-- Both sides of an assignment are typed, or it is refused. -/
theorem sides_ensures (sound : tree.Sound) (nested : before.known.scopes.Nested)
    (lawful : Lawful names before.known) :
    (tree.resolver.sides id scope).Ensures before
      (fun (path, target, ty) typed => tree.resolver.Weighs id scope path target.ty ty before typed)
      fun failure _ => tree.Refuses before.known scope id failure := by
  refine requiredChild_bind (fun path pathChild => ?_) fun missing _ typing =>
    .untyped typing fun _ _ ⟨other, _, _, found, _⟩ _ => missing other found
  refine Attempt.Ensures.bind ((path_ensures lawful.settled).weaken (fun _ _ asks => asks) ?_)
    fun target asked asks => ?_
  · rintro failure _ ⟨typing, _, fails⟩
    refine .untyped typing fun _ _ ⟨_, _, _, found, led, _⟩ _ => ?_
    cases pathChild.symm.trans found
    cases fails.symm.trans led
  obtain ⟨symbol, _, led, same⟩ := asks.path_ran
  refine requiredChild_bind (fun fragment fragmentChild => ?_) fun missing _ typing =>
    .untyped typing fun _ _ _ ⟨other, _, _, found, _⟩ => missing other found
  refine requiredChild_bind (fun value valueChild => ?_) fun missing _ typing =>
    .untyped typing fun _ _ _ ⟨_, other, _, found, inner, _⟩ => ?valueless
  case valueless =>
    cases fragmentChild.symm.trans found
    exact missing other inner
  refine Attempt.Ensures.bind ((expression_ensures ?_).weaken (fun _ _ asks => asks) ?_)
    fun ty typed typedAsks => ?_
  · rw [same]
    exact lawful.settled
  · rintro failure _ ⟨typing, _, fails⟩
    refine .untyped typing fun _ _ _ ⟨_, _, _, found, inner, ran⟩ => ?_
    cases fragmentChild.symm.trans found
    cases valueChild.symm.trans inner
    -- The names that the path was given make no difference to the value.
    have grown := (Attempt.ensures_ok (Typing.path_yields lawful.settled false _) led).1
    have inside := sound.inside value fragment (Tree.child?_eq_ok_some valueChild).1
    obtain ⟨_, again⟩ := Snapshot.expression_again nested lawful.named sound
      (Typing.inside_of_path led) inside (.refl _) grown ran
    rw [same] at fails
    cases fails.symm.trans again
  · exact ⟨pathChild, fragment, value, asked, fragmentChild, valueChild, asks, typedAsks⟩

/-- An assignment enters its node, or it is refused. What is below it adds nothing. -/
theorem assignment_ensures (before : Progress) (scope : ScopeId) (sound : tree.Sound)
    (nested : before.known.scopes.Nested) (lawful : Lawful names before.known)
    (kind : tree.kind id = .ok .assignment) (idle : Idles (tree.resolver.visitChildren visit) id) :
    (tree.resolver.assignment visit id scope).Ensures before
      (fun _ after => ∃ entered, tree.resolver.Enters id scope before .assignment scope entered ∧
        after.known = entered.known)
      (fun failure _ => tree.Refuses before.known scope id failure) := by
  have below : ∀ entered, tree.resolver.Enters id scope before .assignment scope entered →
      (tree.resolver.visitChildren visit id scope).Ensures entered
        (fun _ after => ∃ entered, tree.resolver.Enters id scope before .assignment scope entered ∧
          after.known = entered.known)
        (fun failure _ => tree.Refuses before.known scope id failure) := by
    intro entered enters
    obtain ⟨after, ran, same⟩ := idle scope entered
    unfold Attempt.Ensures
    rw [ran]
    exact ⟨entered, enters, same⟩
  refine (sides_ensures sound nested lawful).bind fun (path, target, ty) typed weighs => ?_
  dsimp only
  by_cases unknown : target.ty.isAbsent = true
  · rw [if_pos unknown]
    obtain ⟨head, node, headChild, held⟩ := weighs.headed lawful.settled kind unknown
    rw [requiredChild_eq headChild, pure_bind]
    refine Attempt.Ensures.bind ((bind_ensures held (weighs.inside sound nested lawful)).weaken
      (fun _ _ binds => binds) fun _ _ never => never.elim) fun _ bound binds => ?_
    exact below bound (.introduced weighs unknown headChild binds)
  · rw [if_neg unknown]
    have known := Bool.eq_false_iff.2 unknown
    by_cases fits : target.ty.accepts ty = true
    · rw [if_pos fits]
      exact below typed (.accepted weighs known fits)
    · rw [if_neg fits]
      have mismatches : tree.Mismatches before.known scope id target.ty ty := {
        targets := weighs.targets
        gives := (weighs.gives sound nested lawful).1
        shown := weighs.introduces_nothing lawful.named known
        unfit := Bool.eq_false_iff.2 fits }
      obtain ⟨node, held, _⟩ := Tree.node_of_kind kind
      have refused : (Attempt.report tree id (.typeAssignmentDifferent target.ty ty) :
          Pass PUnit).Ensures typed (fun _ _ => False)
          (fun failure _ => tree.Refuses before.known scope id failure) := by
        unfold Attempt.report SemanticError.atNode
        rw [held]
        exact .mismatch rfl mismatches
      exact refused.bind fun _ _ never => never.elim

/-- To visit an assignment is to note the visit and to assign. -/
theorem outcome_visit (assignment : tree.kind id = .ok .assignment) :
    (tree.resolver.visit id scope).outcome before =
      (tree.resolver.assignment (tree.resolver.visitWithin tree.size) id scope).outcome
        (before.visiting id scope) := by
  obtain ⟨node, held, kind⟩ := Tree.node_of_kind assignment
  show (tree.resolver.visitWith (tree.resolver.visitWithin tree.size) id scope).outcome before = _
  unfold visitWith handle
  simp only [Resolver.node, held, Attempt.guard, pure_bind, kind]
  rfl

end Resolver

/-- From every state that a run by the rules of the language reaches, the visit of an assignment with
nothing but plain nodes below it either binds its variable, which its path without fragments names and
its scope does not show, to the type of the value, behind all that is bound in the scope; or it
changes no scope, and the type of its variable accepts the value. It creates no scope and attaches
none. It is told that types differ exactly if path and value lead to these types, the variable is not
introduced and its type does not accept the value; where both have types, it fails for no other
reason. -/
theorem Tree.resolve_assigns (tree : Tree) (names : NameTable) (sound : tree.Sound)
    {earlier : List Moment} (reached : earlier <:+ (tree.resolve names).history) {id : NodeId}
    (assignment : tree.kind id = .ok .assignment) (plain : tree.PlainBelow id) (scope : ScopeId) :
    (∀ after, (tree.resolver.visit id scope).outcome ⟨latest names earlier, earlier⟩ =
        (.ok (), after) →
      tree.Assigns (latest names earlier) scope id after.known ∧
      after.known.scopes.size = (latest names earlier).scopes.size ∧
      after.known.annotations = (latest names earlier).annotations ∧
      (latest names earlier).names.Grows after.known.names) ∧
    (∀ target ty,
      (∃ told, ((tree.resolver.visit id scope).outcome ⟨latest names earlier, earlier⟩).1 =
          .error (.error told) ∧ told.cause = .typeAssignmentDifferent target ty) ↔
        tree.Mismatches (latest names earlier) scope id target ty) ∧
    ∀ target ty, tree.Targets (latest names earlier) scope id target →
      tree.Gives (latest names earlier) scope id ty →
      ¬ tree.Mismatches (latest names earlier) scope id target ty →
      ∃ after, (tree.resolver.visit id scope).outcome ⟨latest names earlier, earlier⟩ =
        (.ok (), after) := by
  have whole : Chronicle tree.resolver names (tree.resolve names).history := Resolver.chronicle_run
  have chronicle := whole.of_suffix reached
  have nested := chronicle.consistent.nested
  have lawful := chronicle.lawful
  obtain ⟨node, held, _⟩ := Tree.node_of_kind assignment
  let before : Progress := (⟨latest names earlier, earlier⟩ : Progress).visiting id scope
  have ensured := Resolver.assignment_ensures before scope sound nested lawful assignment
    (plain.idles sound held (tree.height_le id))
  rw [Resolver.outcome_visit assignment]
  rcases visited : (tree.resolver.assignment (tree.resolver.visitWithin tree.size) id scope).outcome
    before with ⟨answer, last⟩
  cases answer with
  | ok _ =>
    obtain ⟨entered, enters, same⟩ := Attempt.ensures_ok ensured visited
    have effect := enters.assigns sound nested lawful assignment
    rw [← same] at effect
    refine ⟨?_, fun target ty => ⟨?_, fun mismatches => ?_⟩, fun _ _ _ _ _ => ⟨last, rfl⟩⟩
    · intro after ended
      cases ended
      exact effect
    · rintro ⟨_, impossible, _⟩
      cases impossible
    · exact absurd mismatches effect.1.not_mismatches
  | error failure =>
    have refuses := Attempt.ensures_error ensured visited
    refine ⟨?_, fun target ty => ⟨?_, fun mismatches => ?_⟩, fun target ty targets gives fits => ?_⟩
    · intro after impossible
      cases impossible
    · rintro ⟨told, same, cause⟩
      cases same
      exact refuses.mismatches_of_cause cause
    · obtain ⟨_, told, rfl, cause⟩ := refuses.of_typed mismatches.targets mismatches.gives
      exact ⟨told, rfl, cause⟩
    · exact absurd (refuses.of_typed targets gives).1 fits

/-- In the sample story, once the function has its parameter, its assignment binds one more variable
behind it. Visited again at the end, it finds that the variable accepts the value. -/
theorem Tree.sample_assigns : (∃ earlier after,
      earlier <:+ (Tree.sample.resolve .empty).history ∧
      (Tree.sample.resolver.visit ⟨13⟩ ⟨1⟩).outcome ⟨latest .empty earlier, earlier⟩ =
        (.ok (), after) ∧
      ((after.known.scopes.scope ⟨1⟩).toOption.map fun found =>
          found.symbols.keys.map after.known.names.text?) = some [some "x", some "y"] ∧
      Tree.sample.Assigns (latest .empty earlier) ⟨1⟩ ⟨13⟩ after.known ∧
      after.known.annotations = (latest .empty earlier).annotations) ∧
    ∃ journal after, journal = (Tree.sample.resolve .empty).history ∧
      Tree.sample.Targets (latest .empty journal) ⟨1⟩ ⟨13⟩ .int ∧
      Tree.sample.Gives (latest .empty journal) ⟨1⟩ ⟨13⟩ .int ∧
      (Tree.sample.resolver.visit ⟨13⟩ ⟨1⟩).outcome ⟨latest .empty journal, journal⟩ =
        (.ok (), after) := by
  have kinds : ∀ place < 13, ((Tree.sample.kind ⟨place⟩).toOption.all Kind.isPlain) = true := by
    decide +kernel
  have plain : Tree.sample.PlainBelow ⟨13⟩ := by
    intro below kind under known
    have lower := Tree.lt_of_ascending (by decide +kernel) under
    simpa [known, Except.toOption] using kinds below.index lower
  constructor
  · -- The journal up to the moment before the assignment is visited, its newest moment first.
    let earlier := (Tree.sample.resolve .empty).history.drop 15
    obtain ⟨after, ran⟩ : ∃ after, (Tree.sample.resolver.visit ⟨13⟩ ⟨1⟩).outcome
        ⟨latest .empty earlier, earlier⟩ = (.ok (), after) :=
      Fallible.outcome_of_toOption (by decide +kernel)
    have bound : (((Tree.sample.resolver.visit ⟨13⟩ ⟨1⟩).outcome
        ⟨latest .empty earlier, earlier⟩).2.known.scopes.scope ⟨1⟩).toOption.map (fun found =>
          found.symbols.keys.map ((Tree.sample.resolver.visit ⟨13⟩ ⟨1⟩).outcome
            ⟨latest .empty earlier, earlier⟩).2.known.names.text?) = some [some "x", some "y"] := by
      decide +kernel
    rw [ran] at bound
    have effect := (Tree.resolve_assigns Tree.sample .empty Tree.sample_sound
      (List.drop_suffix 15 _) rfl plain ⟨1⟩).1 after ran
    exact ⟨earlier, after, List.drop_suffix 15 _, ran, bound, effect.1, effect.2.2.1⟩
  · let journal := (Tree.sample.resolve .empty).history
    have targets : Tree.sample.Targets (latest .empty journal) ⟨1⟩ ⟨13⟩ .int := by
      obtain ⟨last, led⟩ : ∃ last, (Typing.path ((latest .empty journal).view Tree.sample) ⟨1⟩ ⟨8⟩
          false).outcome (latest .empty journal).names = (.ok ⟨⟨1⟩, .int⟩, last) :=
        Fallible.outcome_of_toOption (by decide +kernel)
      exact ⟨⟨8⟩, _, last, rfl, led, rfl⟩
    have gives : Tree.sample.Gives (latest .empty journal) ⟨1⟩ ⟨13⟩ .int := by
      obtain ⟨last, typed⟩ : ∃ last, (Typing.expression ((latest .empty journal).view Tree.sample) ⟨1⟩
          ⟨11⟩).outcome (latest .empty journal).names = (.ok .int, last) :=
        Fallible.outcome_of_toOption (by decide +kernel)
      exact ⟨⟨12⟩, ⟨11⟩, last, rfl, rfl, typed⟩
    obtain ⟨after, ran⟩ := (Tree.resolve_assigns Tree.sample .empty Tree.sample_sound
      (List.suffix_refl _) rfl plain ⟨1⟩).2.2 .int .int targets gives fun mismatches => by
        cases mismatches.unfit
    exact ⟨journal, after, rfl, targets, gives, ran⟩

end ScopeTyping
