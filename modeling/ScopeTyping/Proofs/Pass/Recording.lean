import ScopeTyping.Proofs.Pass.Chronicle

/-! The pass keeps a chronicle. Every part of the pass, started where a chronicle has come
to, carries it on, whether it succeeds or fails; and once it succeeds, every visit that it
has begun is over (`Finished`). The rules may be any rules. -/
namespace ScopeTyping

/-- A node was visited, and so was all that is handed a scope from it on downwards. -/
def Swept (tree : Tree) (journal : List Moment) (id : NodeId) : Prop :=
  ∀ below, Relation.ReflTransGen tree.Hands id below →
    ∃ scope, Happened journal (.visited below scope)

/-- All that a node hands its scope on to was visited. -/
def HandsSwept (tree : Tree) (journal : List Moment) (id : NodeId) : Prop :=
  ∀ child, tree.Hands id child → Swept tree journal child

/-- An assignment was carried out in a scope. From one moment of the run its path and its
value were typed; at the next one the value fitted, or the name was bound. -/
structure Assigned (resolver : Resolver) (names : NameTable) (journal : List Moment) (id : NodeId)
    (scope : ScopeId) (path value : NodeId) (target : Symbol) (ty : Ty)
    (earlier later : List Moment) (between : NameTable) : Prop where
  pathChild : resolver.tree.child? id .path = .ok (some path)
  valueChild : ∃ fragment, resolver.tree.child? id .assignmentFragment = .ok (some fragment) ∧
    resolver.tree.child? fragment .baseExpression = .ok (some value)
  ready : Ready earlier scope
  grown : earlier <:+ later
  reached : later <:+ journal
  asked : (resolver.rules.path ((latest names earlier).view resolver.tree) scope path false).outcome
    (latest names earlier).names = (.ok target, between)
  typed : (resolver.rules.expression ((latest names earlier).view resolver.tree) scope value).outcome
    between = (.ok ty, (latest names later).names)
  settled : (target.ty.isAbsent = false ∧ target.ty.accepts ty = true) ∨
    (target.ty.isAbsent = true ∧ ∃ head node symbol known,
      resolver.tree.child? path .name = .ok (some head) ∧ resolver.tree.node head = .ok node ∧
      known.names.text? symbol.name = some node.text ∧
      symbol.ty = (if ty.isAbsent then .any else ty) ∧
      (⟨.bound scope symbol, known⟩ :: later) <:+ journal)

/-- The type that a signature declares to be returned, read at some moment. -/
def Declares (resolver : Resolver) (header : NodeId) (ty : Ty) : Prop :=
  (resolver.tree.child? header .functionOutput = .ok none ∧ ty = .any) ∨
  ∃ output types now before after, resolver.tree.child? header .functionOutput = .ok (some output) ∧
    resolver.tree.child? output .types = .ok (some types) ∧
    (resolver.rules.declared (Snapshot.view now resolver.tree) types).outcome before =
      (.ok ty, after)

/-- The returns of a function were checked, and none refused, after its body was visited. -/
structure Checked (resolver : Resolver) (journal : List Moment) (id header body : NodeId)
    (scope : ScopeId) (ty : Ty) (past : List Moment) (known : Snapshot) : Prop where
  headerChild : resolver.tree.child? id .functionStatement = .ok (some header)
  bodyChild : resolver.tree.child? id .nestedBlock = .ok (some body)
  attached : Happened past (.attached id scope)
  ready : Ready past scope
  declares : Declares resolver header ty
  swept : HandsSwept resolver.tree past id
  accepted : (⟨.asked (.returns body scope ty) .accepted, known⟩ :: past) <:+ journal

/-- The visit of a node in a scope is over. -/
def Finished (resolver : Resolver) (names : NameTable) (journal : List Moment) (id : NodeId)
    (scope : ScopeId) : Prop :=
  (resolver.tree.kind id = .ok .assignment → ∃ path value target ty earlier later between,
    Assigned resolver names journal id scope path value target ty earlier later between) ∧
  (resolver.tree.kind id = .ok .functionBlock → ∃ header body inner ty past known,
    Checked resolver journal id header body inner ty past known)

/-- A state of a run whose journal is a chronicle that leads to what is known. -/
structure Kept (resolver : Resolver) (names : NameTable) (progress : Progress) : Prop where
  chronicle : Chronicle resolver names progress.journal
  current : progress.known = latest names progress.journal

/-- A run has gone on from one state to another, and every visit begun in between is over. -/
structure Onward (resolver : Resolver) (names : NameTable) (before after : Progress) : Prop where
  kept : Kept resolver names after
  grown : before.journal <:+ after.journal
  finished : ∀ id scope, Happened after.journal (.visited id scope) →
    Happened before.journal (.visited id scope) ∨ Finished resolver names after.journal id scope

/-- A part of the pass carries the chronicle on. -/
def Continues (resolver : Resolver) (names : NameTable) {α : Type} (pass : Pass α)
    (before : Progress) (done : α → Progress → Prop) : Prop :=
  pass.Ensures before (fun value after => Onward resolver names before after ∧ done value after)
    fun _ after => Chronicle resolver names after.journal ∧ before.journal <:+ after.journal

variable {resolver : Resolver} {names : NameTable} {before between after : Progress}
  {journal past : List Moment} {id child : NodeId} {scope : ScopeId} {kind : ScopeKind} {α β : Type}

theorem Swept.later (swept : Swept resolver.tree past id) (grown : past <:+ journal) :
    Swept resolver.tree journal id := by
  intro below path
  obtain ⟨scope, visited⟩ := swept below path
  exact ⟨scope, visited.later grown⟩

theorem swept_of_visited (visited : Happened journal (.visited id scope))
    (handed : HandsSwept resolver.tree journal id) : Swept resolver.tree journal id := by
  intro below path
  rcases path.cases_head with rfl | ⟨child, hands, further⟩
  · exact ⟨scope, visited⟩
  · exact handed child hands below further

theorem Finished.later (finished : Finished resolver names past id scope) (grown : past <:+ journal) :
    Finished resolver names journal id scope := by
  constructor
  · intro assignment
    obtain ⟨path, value, target, ty, earlier, later, between, assigned⟩ := finished.1 assignment
    refine ⟨path, value, target, ty, earlier, later, between,
      { assigned with reached := assigned.reached.trans grown, settled := ?_ }⟩
    refine assigned.settled.imp_right fun ⟨unknown, head, node, symbol, known, facts⟩ => ?_
    obtain ⟨child, held, named, typed, bound⟩ := facts
    exact ⟨unknown, head, node, symbol, known, child, held, named, typed, bound.trans grown⟩
  · intro function
    obtain ⟨header, body, inner, ty, past, known, checked⟩ := finished.2 function
    exact ⟨header, body, inner, ty, past, known,
      { checked with accepted := checked.accepted.trans grown }⟩

theorem Onward.refl (kept : Kept resolver names before) : Onward resolver names before before :=
  ⟨kept, List.suffix_refl _, fun _ _ visited => .inl visited⟩

theorem Onward.trans (first : Onward resolver names before between)
    (second : Onward resolver names between after) : Onward resolver names before after := by
  refine ⟨second.kept, first.grown.trans second.grown, fun id scope visited => ?_⟩
  rcases second.finished id scope visited with earlier | finished
  · exact (first.finished id scope earlier).imp_right fun finished => finished.later second.grown
  · exact .inr finished

namespace Continues

variable {pass : Pass α} {next : α → Pass β} {done : α → Progress → Prop}
  {result : β → Progress → Prop}

theorem bind (first : Continues resolver names pass before done)
    (second : ∀ value after, Onward resolver names before after → done value after →
      Continues resolver names (next value) after result) :
    Continues resolver names (pass >>= next) before result := by
  refine Attempt.Ensures.bind first fun value after facts => ?_
  refine (second value after facts.1 facts.2).weaken (fun held later ensured => ?_)
    fun failure later failed => ⟨failed.1, facts.1.grown.trans failed.2⟩
  exact ⟨facts.1.trans ensured.1, ensured.2⟩

theorem weaken {weaker : α → Progress → Prop} (continues : Continues resolver names pass before done)
    (value : ∀ value after, Onward resolver names before after → done value after →
      weaker value after) : Continues resolver names pass before weaker :=
  Attempt.Ensures.weaken continues
    (fun held after facts => ⟨facts.1, value held after facts.1 facts.2⟩) fun _ _ failed => failed

theorem pure {value : α} (kept : Kept resolver names before) (holds : done value before) :
    Continues resolver names (Pure.pure value : Pass α) before done :=
  ⟨.refl kept, holds⟩

theorem throw {failure : Failure} (kept : Kept resolver names before) :
    Continues resolver names (throw failure : Pass α) before done :=
  ⟨kept.chronicle, List.suffix_refl _⟩

theorem discard (continues : Continues resolver names pass before done) :
    Continues resolver names (discard pass) before (fun _ after => ∃ value, done value after) := by
  rw [discard_eq_bind]
  exact continues.bind fun value after onward holds => pure onward.kept ⟨value, holds⟩

theorem known_bind {next : Snapshot → Pass β}
    (rest : Continues resolver names (next before.known) before result) :
    Continues resolver names (Pass.known >>= next) before result := rest

/-- A question that does not concern the state comes first. -/
theorem guard_bind {answer : Except Fault α} (kept : Kept resolver names before)
    (rest : ∀ value, answer = .ok value → Continues resolver names (next value) before result) :
    Continues resolver names (Attempt.guard answer >>= next) before result := by
  cases answer with
  | ok value => exact rest value rfl
  | error fault => exact throw kept

theorem report {cause : Cause} (kept : Kept resolver names before) :
    Continues resolver names (Attempt.report resolver.tree id cause : Pass α) before done :=
  guard_bind kept fun _ _ => throw kept

theorem requiredChild_bind {wanted : Kind} {next : NodeId → Pass β}
    (kept : Kept resolver names before)
    (rest : ∀ child, resolver.tree.child? id wanted = .ok (some child) →
      Continues resolver names (next child) before result) :
    Continues resolver names (resolver.requiredChild id wanted >>= next) before result := by
  unfold Resolver.requiredChild Attempt.requiredChild
  rw [bind_assoc]
  refine guard_bind kept fun answer known => ?_
  cases answer with
  | some child => exact rest child known
  | none =>
    unfold Attempt.malformed
    simp only [bind_assoc]
    exact guard_bind kept fun _ _ => throw kept

end Continues

/-! ### The parts that the journal tells of -/

/-- A scope whose header is not bound yet. -/
def Pending (progress : Progress) (scope : ScopeId) (kind : ScopeKind) : Prop :=
  ¬ Ready progress.journal scope ∧
    ∃ found, progress.known.scopes.scope scope = .ok found ∧ found.kind = kind

/-- The run has gone on by one step. -/
structure Stepped (before : Progress) (event : Event) (after : Progress) : Prop where
  journal : after.journal = ⟨event, after.known⟩ :: before.journal
  pending : ∀ scope kind, event ≠ .ready scope → Pending before scope kind →
    Pending after scope kind

variable {event : Event} {known : Snapshot}

theorem Stepped.happened (stepped : Stepped before event after) : Happened after.journal event := by
  rw [stepped.journal]
  exact .here _

theorem Kept.inside (kept : Kept resolver names before) (ready : Ready before.journal scope) :
    scope.index < before.known.scopes.size := by
  rw [kept.current]
  exact kept.chronicle.consistent.inside scope ready

/-- A state that a step leads to. -/
theorem stepped_of_step (kept : Kept resolver names before)
    (step : Step resolver before.journal before.known event known) :
    Kept resolver names ⟨known, ⟨event, known⟩ :: before.journal⟩ ∧
      Stepped before event ⟨known, ⟨event, known⟩ :: before.journal⟩ := by
  refine ⟨⟨kept.chronicle.next (kept.current ▸ step), rfl⟩, rfl, ?_⟩
  rintro scope kind other ⟨unready, found, held, same⟩
  obtain ⟨last, there, sameKind, _⟩ := step.scope_kept held
  refine ⟨fun ready => ?_, last, there, sameKind.trans same⟩
  rcases happened_cons.1 ready with this | earlier
  · exact other this
  · exact unready earlier

/-- Every step but a visit leaves no visit to be done. -/
theorem onward_of_step (kept : Kept resolver names before)
    (step : Step resolver before.journal before.known event known)
    (other : ∀ id scope, event ≠ .visited id scope) :
    Onward resolver names before ⟨known, ⟨event, known⟩ :: before.journal⟩ ∧
      Stepped before event ⟨known, ⟨event, known⟩ :: before.journal⟩ := by
  obtain ⟨keptAfter, stepped⟩ := stepped_of_step kept step
  refine ⟨⟨keptAfter, List.suffix_cons _ _, fun id scope visited => ?_⟩, stepped⟩
  rcases happened_cons.1 visited with this | earlier
  · exact absurd this (other id scope)
  · exact .inl earlier

namespace Pass

theorem record_continues (kept : Kept resolver names before)
    (step : Step resolver before.journal before.known event before.known)
    (other : ∀ id scope, event ≠ .visited id scope) :
    Continues resolver names (record event) before (fun _ after => Stepped before event after) :=
  onward_of_step kept step other

theorem ready_continues (kept : Kept resolver names before)
    (inside : scope.index < before.known.scopes.size) :
    Continues resolver names (record (.ready scope)) before
      (fun _ after => Ready after.journal scope) :=
  (record_continues kept (.ready inside) (by simp)).weaken fun _ _ _ stepped => stepped.happened

/-- A scope that was opened waits for its header. -/
theorem openScope_continues (kept : Kept resolver names before) {parent : Option ScopeId}
    (kind : ScopeKind) (ready : ∀ around, parent = some around → Ready before.journal around) :
    Continues resolver names (openScope parent kind) before
      (fun scope after => Pending after scope kind) := by
  obtain ⟨onward, stepped⟩ := onward_of_step kept (.opened kind ready) (by simp)
  refine ⟨onward, fun isReady => ?_, _, Forest.scope_create _ _ _, rfl⟩
  rcases happened_cons.1 isReady with this | earlier
  · cases this
  · exact Nat.lt_irrefl _ (kept.inside earlier)

theorem attach_continues (kept : Kept resolver names before) {opening : Kind}
    (held : resolver.tree.kind id = .ok opening) (opens : opening.opensScope = true)
    (entered : (id = resolver.tree.root ∧ opening = .start) ∨
      ∃ around, Happened before.journal (.visited id around)) :
    Continues resolver names (attach resolver.tree id scope) before
      (fun _ after => Stepped before (.attached id scope) after) := by
  unfold attach
  refine Continues.known_bind ?_
  cases done : before.known.annotations.attach? id scope with
  | some annotations => exact onward_of_step kept (.attached held opens entered done) (by simp)
  | none => exact Continues.guard_bind kept fun _ _ => Continues.report kept

theorem outcome_known (progress : Progress) :
    Pass.known.outcome progress = (.ok progress.known, progress) := rfl

theorem outcome_update (change : Snapshot → Snapshot) (progress : Progress) :
    (update change).outcome progress = (.ok (), { progress with known := change progress.known }) :=
  rfl

/-- How asking ends: names are kept either way, and so is every answer. -/
theorem outcome_ask (tree : Tree) (call : Call) (answer : α → Answer) (question : View → Typing α)
    (before : Progress) :
    (ask tree call answer question).outcome before =
      match (question (before.known.view tree)).outcome before.known.names with
      | (.ok value, names) => (.ok value, ⟨{ before.known with names },
          ⟨.asked call (answer value), { before.known with names }⟩ :: before.journal⟩)
      | (.error (.error error), names) => (.error (.error error), ⟨{ before.known with names },
          ⟨.asked call (.refused error), { before.known with names }⟩ :: before.journal⟩)
      | (.error (.fault fault), names) =>
        (.error (.fault fault), ⟨{ before.known with names }, before.journal⟩) := by
  unfold ask
  rw [Fallible.outcome_bind, outcome_known]
  dsimp only
  rcases (question (before.known.view tree)).outcome before.known.names with ⟨outcome, names⟩
  cases outcome with
  | ok value => rfl
  | error failure => cases failure <;> rfl

/-- How binding ends: the text has a name either way. -/
theorem outcome_bindName {tree : Tree} {node : Node} (held : tree.node id = .ok node)
    (scope : ScopeId) (ty : Ty) (before : Progress) :
    (Pass.bind tree scope id ty).outcome before =
      match before.known.scopes.insert scope ⟨(before.known.names.intern node.text).1, ty⟩ with
      | .ok (_, scopes) =>
        (.ok (), ⟨{ before.known with names := (before.known.names.intern node.text).2, scopes },
          ⟨.bound scope ⟨(before.known.names.intern node.text).1, ty⟩,
            { before.known with names := (before.known.names.intern node.text).2, scopes }⟩ ::
            before.journal⟩)
      | .error fault => (.error (.fault fault),
          ⟨{ before.known with names := (before.known.names.intern node.text).2 },
            before.journal⟩) := by
  unfold Pass.bind
  simp only [held, Attempt.guard, pure_bind]
  rw [Fallible.outcome_bind, outcome_known]
  dsimp only
  rw [Fallible.outcome_bind, outcome_update]
  dsimp only
  rw [Fallible.outcome_bind, outcome_known]
  dsimp only
  cases before.known.scopes.insert scope ⟨(before.known.names.intern node.text).1, ty⟩ with
  | ok answer => rfl
  | error fault => rfl

theorem ask_continues (kept : Kept resolver names before) {call : Call} {answer : α → Answer}
    {question : View → Typing α}
    (asks : ∀ view, resolver.answer view call = question view >>= fun value => pure (answer value)) :
    Continues resolver names (ask resolver.tree call answer question) before
      (fun value after => Stepped before (.asked call (answer value)) after ∧
        (question (before.known.view resolver.tree)).outcome before.known.names =
          (.ok value, after.known.names) ∧
        after.known.view resolver.tree = before.known.view resolver.tree) := by
  unfold Continues Attempt.Ensures
  rw [outcome_ask]
  rcases ran : (question (before.known.view resolver.tree)).outcome before.known.names with
    ⟨outcome, found⟩
  cases outcome with
  | ok value =>
    have given : (resolver.answer (before.known.view resolver.tree) call).outcome
        before.known.names = (.ok (answer value), found) := by
      rw [asks, Fallible.outcome_bind, ran]
      rfl
    obtain ⟨onward, stepped⟩ := onward_of_step kept (.answered given) (by simp)
    exact ⟨onward, stepped, rfl, rfl⟩
  | error failure =>
    cases failure with
    | error error =>
      have given : (resolver.answer (before.known.view resolver.tree) call).outcome
          before.known.names = (.error (.error error), found) := by
        rw [asks, Fallible.outcome_bind, ran]
      obtain ⟨onward, _⟩ := onward_of_step kept (.refused given) (by simp)
      exact ⟨onward.kept.chronicle, onward.grown⟩
    | fault fault => exact ⟨kept.chronicle, List.suffix_refl _⟩

theorem bind_continues (kept : Kept resolver names before) {ty : Ty}
    (binder : Binder resolver before.journal before.known scope id ty) :
    Continues resolver names (bind resolver.tree scope id ty) before
      (fun _ after => ∃ node name, resolver.tree.node id = .ok node ∧
        after.known.names.text? name = some node.text ∧
        Stepped before (.bound scope ⟨name, ty⟩) after) := by
  cases held : resolver.tree.node id with
  | error fault =>
    unfold bind
    exact Continues.guard_bind kept fun node there => by cases held.symm.trans there
  | ok node =>
    unfold Continues Attempt.Ensures
    rw [outcome_bindName held]
    cases done : before.known.scopes.insert scope
        ⟨(before.known.names.intern node.text).1, ty⟩ with
    | ok answer =>
      obtain ⟨onward, stepped⟩ := onward_of_step kept (.bound binder held done) (by simp)
      exact ⟨onward, node, _, rfl, NameTable.text?_intern _ _, stepped⟩
    | error fault => exact ⟨kept.chronicle, List.suffix_refl _⟩

end Pass
end ScopeTyping
