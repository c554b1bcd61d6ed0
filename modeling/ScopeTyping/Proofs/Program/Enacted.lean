import ScopeTyping.Proofs.Pass.Idling
import ScopeTyping.Proofs.Program.Tally
import ScopeTyping.Proofs.Scope.Attachments
import ScopeTyping.Proofs.Tree.Handover

/-! The pass enacts the program that stands at a story. Visiting a part does to names and scopes
what running it does, or fails for the same reason; it gives scopes to nodes at and below the
part only, and leaves there the returns that the run answers with. The tree has to place every
node once: a node that is visited a second time would be found with a scope. -/
namespace ScopeTyping

/-- What a run of the pass knows, apart from which nodes the scopes belong to. -/
def Progress.scene (progress : Progress) : Scene := ⟨progress.known.names, progress.known.scopes⟩

/-- A part of the pass follows a reading of the program, and `done` holds afterwards. -/
def Enacts {α β : Type} (pass : Pass α) (before : Progress) (reading : Reading Scene β)
    (done : α → β → Snapshot → Prop) : Prop :=
  pass.Follows reading before before.scene fun value twin after scene =>
    after.scene = scene ∧ done value twin after.known

/-- Nodes were handled in a scope: nothing else got a scope, and some returns stand there. -/
structure Handled (tree : Tree) (ids : List NodeId) (scope : ScopeId) (sites : List Return)
    (before after : Snapshot) : Prop where
  spared : Spared tree ids before after
  tallied : Tallied tree after ids scope sites

/-- A visit of a node does what a run does in the same scope, if nothing there has a scope yet. -/
def Performs (tree : Tree) (visit : Resolver.Visit) (id : NodeId)
    (run : ScopeId → Reading Scene (List Return)) : Prop :=
  ∀ scope before, before.known.Free tree [id] →
    Enacts (visit id scope) before (run scope) fun _ sites after =>
      Handled tree [id] scope sites before.known after

variable {tree : Tree} {visit : Resolver.Visit} {id child body : NodeId}
  {ids heads slots branchIds children : List NodeId} {scope inner : ScopeId}
  {before after : Progress} {α β γ δ : Type}

namespace Handled

variable {more : List NodeId} {sites others : List Return} {start between finish : Snapshot}
  {kind : Kind} {text : String}

/-- Inert nodes are passed over. -/
theorem passed (sound : tree.Sound) (inert : ∀ id ∈ ids, Inert tree.nodes id)
    (same : finish.annotations = start.annotations) : Handled tree ids scope [] start finish :=
  ⟨.of_eq same, .none fun id member => .inert sound (inert id member)⟩

/-- Some nodes are handled and then others, apart from them. -/
theorem append (first : Handled tree ids scope sites start between)
    (second : Handled tree more scope others between finish)
    (parted : ∀ id ∈ ids, ∀ other ∈ more, tree.Parted id other) :
    Handled tree (ids ++ more) scope (sites ++ others) start finish := by
  refine ⟨first.spared.append second.spared, Tallied.append ?_ second.tallied⟩
  exact first.tallied.later fun id member below under => second.spared.get? (parted id member) under

/-- What was handled below a node was handled at the node, in the scope that it has. -/
theorem above (handled : Handled tree children inner sites start finish) (sound : tree.Sound)
    (shows : Shows tree.nodes id kind text children) (noFunction : kind ≠ .functionBlock)
    (noReturn : kind ≠ .returnStatement) (own : (start.annotations.get? id).getD scope = inner) :
    Handled tree [id] scope sites start finish := by
  have below : ∀ child ∈ children, tree.ChildOf child id := fun _ => shows.childOf
  refine ⟨handled.spared.widen fun child member => Tree.under_of_childOf (below child member), ?_⟩
  refine handled.tallied.node shows sound noFunction noReturn ?_
  rw [handled.spared.get?_above sound fun child member => .single (below child member)]
  exact own

end Handled

namespace Enacts

variable {pass : Pass α} {reading : Reading Scene β} {done : α → β → Snapshot → Prop}
  {next : α → Pass γ} {twinNext : β → Reading Scene δ} {result : γ → δ → Snapshot → Prop}

theorem pure {value : α} {twin : β} (holds : done value twin before.known) :
    Enacts (Pure.pure value) before (Pure.pure twin) done := ⟨rfl, holds⟩

theorem bind (first : Enacts pass before reading done)
    (second : ∀ value twin after, done value twin after.known →
      Enacts (next value) after (twinNext twin) result) :
    Enacts (pass >>= next) before (reading >>= twinNext) result := by
  refine Fallible.Alike.bind first ?_
  rintro value twin after _ ⟨rfl, holds⟩
  exact second value twin after holds

theorem weaken {weaker : α → β → Snapshot → Prop} (enacts : Enacts pass before reading done)
    (value : ∀ value twin after, done value twin after → weaker value twin after) :
    Enacts pass before reading weaker :=
  Fallible.Alike.weaken enacts fun _ _ _ _ facts => ⟨facts.1, value _ _ _ facts.2⟩

theorem discard (enacts : Enacts pass before reading done) :
    Enacts (discard pass) before (discard reading) fun _ _ after =>
      ∃ value twin, done value twin after := by
  rw [discard_eq_bind, discard_eq_bind]
  exact enacts.bind fun value twin _ holds => pure ⟨value, twin, holds⟩

/-- A discarded answer of the pass matters as little as it does to the reading. -/
theorem discard_left (enacts : Enacts pass before reading done) :
    Enacts (Functor.discard pass) before reading fun _ twin after =>
      ∃ value, done value twin after := by
  rw [discard_eq_bind, ← bind_pure reading]
  exact enacts.bind fun value twin _ holds => pure ⟨value, holds⟩

/-- A step of the pass that the program does not know of. -/
theorem unseen {twin : Reading Scene δ} {value : α} (ran : pass.outcome before = (.ok value, after))
    (same : after.scene = before.scene) (rest : Enacts (next value) after twin result) :
    Enacts (pass >>= next) before twin result := by
  refine Attempt.follows_of_outcome ran ?_
  rw [← same]
  exact rest

theorem record {twin : Reading Scene δ} {event : Event} {next : Unit → Pass γ}
    (rest : Enacts (next ()) (before.noted event before.known) twin result) :
    Enacts (Pass.record event >>= next) before twin result := rest

end Enacts

/-! ### What the pass does to its state -/

namespace Pass

end Pass

theorem Scene.outcome_ask (reading : Forest → TypeReading α) (scene : Scene) :
    (Scene.ask reading).outcome scene = match (reading scene.scopes).outcome scene.names with
      | (outcome, names) => (outcome, ⟨names, scene.scopes⟩) := rfl

theorem Scene.outcome_bind (scope : ScopeId) (text : String) (ty : Ty) (scene : Scene) :
    (Scene.bind scope text ty).outcome scene =
      match scene.scopes.insert scope ⟨(scene.names.intern text).1, ty⟩ with
      | .ok (_, scopes) => (.ok (), ⟨(scene.names.intern text).2, scopes⟩)
      | .error fault => (.error (.fault fault), ⟨(scene.names.intern text).2, scene.scopes⟩) := by
  have named : (Scene.bind scope text ty).outcome scene =
      ((Reading.guard (scene.scopes.insert scope ⟨(scene.names.intern text).1, ty⟩)) >>=
        fun found => modify fun scene => { scene with scopes := found.2 } :
          Reading Scene Unit).outcome ⟨(scene.names.intern text).2, scene.scopes⟩ := rfl
  rw [named]
  cases scene.scopes.insert scope ⟨(scene.names.intern text).1, ty⟩ <;> rfl

namespace Pass

/-- A question is answered as the program answers it. -/
theorem ask_enacts {call : Call} {answer : α → Answer} {question : View → Typing α}
    {reading : Forest → TypeReading α}
    (agrees : Typing.Agrees (question (before.known.view tree)) (reading before.known.scopes)) :
    Enacts (ask tree call answer question) before (Scene.ask reading) fun value twin after =>
      value = twin ∧ after.annotations = before.known.annotations := by
  unfold Enacts Attempt.Follows Fallible.Alike
  rw [outcome_ask, Scene.outcome_ask]
  simp only [Progress.scene]
  rcases (agrees before.known.names).strict_cases with
    ⟨value, twin, names, _, ran, twinRan, rfl, rfl⟩ | ⟨failure, refusal, _, _, ran, twinRan, same⟩
  · rw [ran, twinRan]
    exact ⟨rfl, rfl, rfl⟩
  · rw [ran, twinRan]
    cases failure <;> exact .inr same

theorem openScope_enacts (parent : Option ScopeId) (kind : ScopeKind) :
    Enacts (openScope parent kind) before (Scene.openScope parent kind) fun value twin after =>
      value = twin ∧ after.annotations = before.known.annotations :=
  ⟨rfl, rfl, rfl⟩

/-- The text of a node is bound. -/
theorem bindName_enacts {text : String} (named : NameAt tree.nodes text id) (scope : ScopeId)
    (ty : Ty) : Enacts (bind tree scope id ty) before (Scene.bind scope text ty) fun _ _ after =>
      after.annotations = before.known.annotations := by
  obtain ⟨_, held⟩ := named.node
  unfold Enacts Attempt.Follows Fallible.Alike
  rw [outcome_bindName held, Scene.outcome_bind]
  simp only [Progress.scene]
  cases before.known.scopes.insert scope ⟨(before.known.names.intern text).1, ty⟩ with
  | ok answer => exact ⟨rfl, rfl⟩
  | error fault => exact .inr rfl

/-- A scope is attached to a node without one, which the program does not see. -/
theorem attach_unseen (free : before.known.annotations.get? id = none) (scope : ScopeId) :
    ∃ after, (attach tree id scope).outcome before = (.ok (), after) ∧
      after.scene = before.scene ∧ ∀ other, after.known.annotations.get? other =
        if other = id then some scope else before.known.annotations.get? other := by
  obtain ⟨annotations, done⟩ := Annotations.attach?_exists free scope
  refine ⟨before.noted (.attached id scope) { before.known with annotations }, ?_, rfl, fun other => ?_⟩
  · unfold attach
    rw [Fallible.outcome_bind, outcome_known]
    dsimp only
    rw [done]
    rfl
  · exact Annotations.get?_attach? done other

end Pass

/-! ### Visits -/

section Visits
variable {kind : Kind} {text : String} {parts branches : List Part} {sites others : List Return}

theorem Shows.node_bind (shows : Shows tree.nodes id kind text children) (next : Node → Pass α) :
    ∃ span, tree.resolver.node id >>= next = next ⟨kind, span, text, children⟩ := by
  obtain ⟨span, held⟩ := shows.node
  exact ⟨span, by simp only [Resolver.node, held, Attempt.guard, pure_bind]⟩

theorem visitChildren_eq (shows : Shows tree.nodes id kind text children) :
    tree.resolver.visitChildren visit id scope = children.forM fun child => visit child scope := by
  unfold Resolver.visitChildren
  obtain ⟨_, same⟩ := shows.node_bind fun node => node.children.forM fun child => visit child scope
  exact same

/-- The pass has no rule for a passive node. -/
theorem handle_passive (shows : Shows tree.nodes id kind text children)
    (passive : kind.isPassive = true ∨ kind = .returnStatement) :
    tree.resolver.handle visit id scope = children.forM fun child => visit child scope := by
  obtain ⟨_, held⟩ := shows.node
  have plain : kind.isPlain = true := by
    rcases passive with passive | rfl
    · revert passive
      cases kind <;> decide
    · rfl
  rw [Resolver.handle_plain held plain, visitChildren_eq shows]

/-- Nothing happens at inert nodes. -/
theorem Inert.idles (inert : Inert tree.nodes id) (sound : tree.Sound) {depth : Nat}
    (deep : tree.height id < depth) : Idles (tree.resolver.visitWithin depth) id := by
  induction inert generalizing depth with
  | mk shows passive _ step =>
    cases depth with
    | zero => exact absurd deep (Nat.not_lt_zero _)
    | succ depth =>
      intro scope before
      have lower := shows.lower sound deep
      obtain ⟨after, ran, same⟩ := idles_all (fun child member => step child member (lower child member))
        scope (before.visiting _ scope)
      refine ⟨after, ?_, same⟩
      show (tree.resolver.handle _ _ scope).outcome (before.visiting _ scope) = _
      rw [handle_passive shows (.inl passive)]
      exact ran

/-- Parts are run one after another while their nodes are visited. -/
theorem performs_all (performs : List.Forall₂ (fun part id =>
      Performs tree visit id fun scope => part.run scope) parts ids)
    (parted : ids.Pairwise tree.Parted) (free : before.known.Free tree ids) :
    Enacts (ids.forM fun child => visit child scope) before (Part.runAll scope parts)
      fun _ sites after => Handled tree ids scope sites before.known after := by
  induction performs generalizing before with
  | nil => exact .pure ⟨.of_eq rfl, .nil⟩
  | @cons part id parts ids first _ step =>
    obtain ⟨beside, parted⟩ := List.pairwise_cons.1 parted
    show Enacts (visit id scope >>= fun _ => ids.forM fun child => visit child scope) before _ _
    rw [Part.runAll]
    refine (first scope before (free.subset (by simp))).bind fun _ sites between handled => ?_
    have stillFree : between.known.Free tree ids :=
      Snapshot.Free.spared (free.subset (by simp)) handled.spared
        (by simpa using fun id member => (beside id member).symm)
    rw [← bind_pure (ids.forM fun child => visit child scope)]
    refine (step parted stillFree).bind fun _ others after later => .pure ?_
    exact handled.append later (by simpa using beside)

theorem forM_append (visit : NodeId → Pass Unit) (ids more : List NodeId) :
    (ids ++ more).forM visit = ids.forM visit >>= fun _ => more.forM visit := by
  induction ids with
  | nil => rfl
  | cons first rest step =>
    show (visit first >>= fun _ => (rest ++ more).forM visit) =
      (visit first >>= fun _ => rest.forM visit) >>= fun _ => more.forM visit
    rw [step, bind_assoc]

/-- Behind inert nodes, a part is run in a node that the pass has no rule for. -/
theorem performs_passive (heads : List NodeId) {run : ScopeId → Reading Scene (List Return)}
    (shows : Shows tree.nodes id kind text (heads ++ [child])) (passive : kind.isPassive = true)
    (sound : tree.Sound) (once : tree.PlacesOnce) (inert : ∀ head ∈ heads, Inert tree.nodes head)
    (idle : ∀ head ∈ heads, Idles visit head) (performs : Performs tree visit child run) :
    Performs tree (tree.resolver.visitWith visit) id run := by
  intro scope before free
  have below : tree.ChildOf child id := shows.childOf (by simp)
  refine Enacts.record ?_
  rw [handle_passive shows (.inl passive), forM_append]
  obtain ⟨between, ran, same⟩ := idles_all idle scope (before.visiting id scope)
  have known : between.known = before.known := same
  refine Enacts.unseen ran (by rw [Progress.scene, known]; rfl) ?_
  have apart : ∀ head ∈ heads, ∀ other ∈ [child], tree.Parted head other :=
    (List.pairwise_append.1 (shows.parted sound once)).2.2
  have freeBelow : between.known.Free tree [child] := by
    rw [known]
    exact free.below (by simpa using Tree.under_of_childOf below)
  show Enacts (visit child scope >>= fun _ => Pure.pure ()) between (run scope) _
  rw [← bind_pure (run scope)]
  refine (performs scope between freeBelow).bind fun _ sites after handled => .pure ?_
  rw [known] at handled
  refine ((Handled.passed sound inert rfl).append handled apart).above sound shows ?_ ?_ ?_
  · rintro rfl
    cases passive
  · rintro rfl
    cases passive
  · rw [free id (by simp) id .refl]
    rfl

/-- A node whose children are inert does nothing but, perhaps, to return. -/
theorem performs_idle (shows : Shows tree.nodes id kind text children)
    (passive : kind.isPassive = true ∨ kind = .returnStatement)
    (idle : ∀ child ∈ children, Idles visit child) (sites : ScopeId → List Return)
    (tallied : ∀ (now : Snapshot) scope, now.annotations.get? id = none →
      Tallied tree now [id] scope (sites scope)) :
    Performs tree (tree.resolver.visitWith visit) id fun scope => Pure.pure (sites scope) := by
  intro scope before free
  refine Enacts.record ?_
  rw [handle_passive shows passive]
  obtain ⟨after, ran, same⟩ := idles_all idle scope (before.visiting id scope)
  have known : after.known = before.known := same
  rw [← bind_pure (children.forM fun child => visit child scope)]
  refine Enacts.unseen ran (by rw [Progress.scene, known]; rfl) (.pure ⟨.of_eq ?_, tallied _ _ ?_⟩)
  · exact congrArg Snapshot.annotations known
  · rw [known]
    exact free id (by simp) id .refl

/-- The pass has asked or bound something, and no node got a scope meanwhile. -/
theorem expression_enacts {expr : Expr} (sound : tree.Sound) (stands : ExprAt tree.nodes expr id)
    (scope : ScopeId) : Enacts (tree.resolver.expression id scope) before
      (Scene.ask fun scopes => expr.type scopes scope) fun value twin after =>
        value = twin ∧ after.annotations = before.known.annotations :=
  Pass.ask_enacts (Typing.expression_agrees (before.known.view tree) sound stands)

theorem target_enacts {head : String} {keys : List (Key Expr)} (sound : tree.Sound)
    (stands : ExprAt tree.nodes (.path head keys) id) (scope : ScopeId) :
    Enacts (tree.resolver.path id scope false) before
      (Scene.ask fun scopes => Expr.target scopes scope head keys) fun value twin after =>
        value = twin ∧ after.annotations = before.known.annotations :=
  Pass.ask_enacts (Typing.target_agrees (before.known.view tree) sound stands)

theorem declared_enacts {written : Written} (sound : tree.Sound)
    (stands : WrittenAt tree.nodes written id) :
    Enacts (tree.resolver.declared id) before (Scene.ask fun _ => written.declared)
      fun value twin after => value = twin ∧ after.annotations = before.known.annotations :=
  Pass.ask_enacts (Typing.declared_agrees (before.known.view tree) sound stands)

/-- An error of the pass is what the program is refused for. -/
theorem report_enacts {cause : Cause} {ofProgram : cause.ofShape = false}
    {done : α → β → Snapshot → Prop} (shows : Shows tree.nodes id kind text children) :
    Enacts (Attempt.report tree id cause) before (Reading.refuse cause ofProgram) done := by
  obtain ⟨_, held⟩ := shows.node
  unfold Attempt.report SemanticError.atNode
  rw [held]
  exact Attempt.follows_throw rfl

end Visits
end ScopeTyping
