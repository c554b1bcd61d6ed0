import ScopeTyping.Proofs.Pass.Recording
import ScopeTyping.Proofs.Pass.Standard
import ScopeTyping.Proofs.Scope.Attachments
import ScopeTyping.Proofs.Typing.Blame

/-! What every part of the pass sees to, whether it succeeds or fails. A scope that was opened
is attached to a node before the next one is opened, so there is never more than one scope
without a node. Nodes get scopes only below the node that is visited, so a node to which only
one way leads has no scope yet when it is visited. And every error is justified. -/
namespace ScopeTyping

/-- No moment so far knew more than one scope without a node. -/
def Progress.Recorded (progress : Progress) : Prop :=
  ∀ moment ∈ progress.journal, moment.known.scopes.size ≤ moment.known.annotations.size + 1

/-- So many scopes were opened and wait for a node, never more than one. -/
structure Progress.Tidy (progress : Progress) (owed : Nat) : Prop where
  balanced : progress.known.scopes.size = progress.known.annotations.size + owed
  few : owed ≤ 1
  recorded : progress.Recorded

/-- Neither a node nor what stands below it has a scope, apart from nodes that are shared. -/
def Snapshot.Bare (now : Snapshot) (tree : Tree) (id : NodeId) : Prop :=
  ∀ below, tree.Under below id → ¬ tree.Shared below → now.annotations.get? below = none

/-- Nodes got scopes only at a node or below it. -/
def Confined (tree : Tree) (id : NodeId) (before after : Snapshot) : Prop :=
  ∀ other, ¬ tree.Under other id → after.annotations.get? other = before.annotations.get? other

/-- No node got a scope meanwhile. -/
def Progress.Still (before after : Progress) : Prop :=
  after.known.annotations = before.known.annotations

/-- A part of the pass that works on a node conducts itself well. Once it is done, it owes so
many scopes a node, and `done` holds; if it fails, it tells a justified error. -/
def Conducts {α : Type} (tree : Tree) (id : NodeId) (owed : Nat) (pass : Pass α)
    (before : Progress) (done : α → Progress → Prop) : Prop :=
  pass.Ensures before
    (fun value after => after.Tidy owed ∧ Confined tree id before.known after.known ∧
      done value after)
    (fun failure after => failure.Justified tree ∧ after.Recorded)

variable {tree : Tree} {id child other parent : NodeId} {node : Node} {owed between : Nat}
  {before after : Progress} {scope : ScopeId} {α β : Type}

theorem Snapshot.Bare.descend {now : Snapshot} (bare : now.Bare tree id)
    (below : tree.ChildOf child id) : now.Bare tree child :=
  fun other under => bare other (under.tail below)

theorem Progress.Still.trans {middle : Progress} (first : before.Still middle)
    (second : middle.Still after) : before.Still after :=
  Eq.trans second first

theorem Snapshot.Bare.still (bare : before.known.Bare tree id) (still : before.Still after) :
    after.known.Bare tree id := by
  intro below under alone
  rw [still]
  exact bare below under alone

/-- What happens below one node leaves the nodes apart from it bare. -/
theorem Snapshot.Bare.confined {now later : Snapshot} (bare : now.Bare tree other)
    (confined : Confined tree child now later) (apart : tree.Apart child other) :
    later.Bare tree other := by
  intro below under alone
  rw [confined below fun again => alone (apart below again under)]
  exact bare below under alone

theorem Confined.refl (tree : Tree) (id : NodeId) (now : Snapshot) : Confined tree id now now :=
  fun _ _ => rfl

theorem Progress.Still.confined (still : before.Still after) :
    Confined tree id before.known after.known := by
  intro other _
  rw [still]

theorem Confined.trans {now later last : Snapshot} (first : Confined tree id now later)
    (second : Confined tree id later last) : Confined tree id now last :=
  fun other apart => (second other apart).trans (first other apart)

theorem Confined.widen {now later : Snapshot} (confined : Confined tree child now later)
    (under : tree.Under child id) : Confined tree id now later :=
  fun other apart => confined other fun below => apart (below.trans under)

/-- One more moment that owes no more than one scope. -/
theorem Progress.Tidy.recorded_cons (tidy : before.Tidy owed) (event : Event) {known : Snapshot}
    (scopes : known.scopes.size = before.known.scopes.size)
    (annotations : known.annotations = before.known.annotations) :
    Progress.Tidy ⟨known, ⟨event, known⟩ :: before.journal⟩ owed := by
  have balanced : known.scopes.size = known.annotations.size + owed := by
    rw [scopes, annotations]
    exact tidy.balanced
  refine ⟨balanced, tidy.few, fun moment member => ?_⟩
  rcases List.mem_cons.1 member with rfl | earlier
  · have few := tidy.few
    show known.scopes.size ≤ known.annotations.size + 1
    omega
  · exact tidy.recorded moment earlier

namespace Conducts

variable {pass : Pass α} {next : α → Pass β} {done : α → Progress → Prop}
  {result : β → Progress → Prop}

theorem pure {value : α} (tidy : before.Tidy owed) (holds : done value before) :
    Conducts tree id owed (Pure.pure value : Pass α) before done :=
  ⟨tidy, .refl tree id before.known, holds⟩

theorem bind (first : Conducts tree id between pass before done)
    (second : ∀ value after, after.Tidy between → done value after →
      Conducts tree id owed (next value) after result) :
    Conducts tree id owed (pass >>= next) before result := by
  refine Attempt.Ensures.bind first fun value after facts => ?_
  refine (second value after facts.1 facts.2.2).weaken (fun _ _ later => ?_)
    fun _ _ failed => failed
  exact ⟨later.1, facts.2.1.trans later.2.1, later.2.2⟩

theorem weaken {weaker : α → Progress → Prop} (conducts : Conducts tree id owed pass before done)
    (value : ∀ value after, done value after → weaker value after) :
    Conducts tree id owed pass before weaker :=
  Attempt.Ensures.weaken conducts
    (fun held after facts => ⟨facts.1, facts.2.1, value held after facts.2.2⟩)
    fun _ _ failed => failed

/-- What is done on a node is done on the nodes above it. -/
theorem widen (conducts : Conducts tree child owed pass before done) (under : tree.Under child id) :
    Conducts tree id owed pass before (fun value after =>
      Confined tree child before.known after.known ∧ done value after) :=
  Attempt.Ensures.weaken conducts
    (fun _ _ facts => ⟨facts.1, facts.2.1.widen under, facts.2⟩) fun _ _ failed => failed

theorem discard (conducts : Conducts tree id owed pass before done) :
    Conducts tree id owed (discard pass) before (fun _ after => ∃ value, done value after) := by
  rw [discard_eq_bind]
  exact conducts.bind fun value after tidy holds => pure tidy ⟨value, holds⟩

theorem guard_bind {answer : Except Fault α} (tidy : before.Tidy owed)
    (rest : ∀ value, answer = .ok value → Conducts tree id between (next value) before result) :
    Conducts tree id between (Attempt.guard answer >>= next) before result :=
  Attempt.ensures_guard_bind rest fun _ => ⟨trivial, tidy.recorded⟩

theorem known_bind {next : Snapshot → Pass β}
    (rest : Conducts tree id owed (next before.known) before result) :
    Conducts tree id owed (Pass.known >>= next) before result := rest

theorem requiredChild_bind {wanted : Kind} {next : NodeId → Pass β} (tidy : before.Tidy owed)
    (under : tree.Under parent tree.root)
    (rest : ∀ child, tree.child? parent wanted = .ok (some child) → tree.Under child tree.root →
      Conducts tree id between (next child) before result) :
    Conducts tree id between (tree.resolver.requiredChild parent wanted >>= next) before
      result := by
  have found : (tree.resolver.requiredChild parent wanted).Ensures before
      (fun child after => tree.child? parent wanted = .ok (some child) ∧ after = before)
      (fun failure after => failure.Justified tree ∧ after.Recorded) :=
    (Attempt.ensures_requiredChild under).weaken (fun _ _ facts => facts)
      fun _ _ facts => ⟨facts.1, facts.2 ▸ tidy.recorded⟩
  refine found.bind ?_
  rintro child _ ⟨known, rfl⟩
  exact rest child known (.head (Tree.child?_eq_ok_some known).1 under)

/-- The items of a walk are gone through one after another; none of them gives a node a scope. -/
theorem forEach {ι : Type} {walk : Walk ι} {next : ι → Pass Unit} (tidy : before.Tidy owed)
    (each : ∀ {now : Progress}, ∀ item ∈ walk.items, now.Tidy owed →
      Conducts tree id owed (next item) now (fun _ => now.Still)) :
    Conducts tree id owed (walk.forEach next) before (fun _ => before.Still) := by
  have steps : ∀ item ∈ walk.items, ∀ now : Progress, now.Tidy owed ∧ before.Still now →
      (next item).Ensures now (fun _ after => after.Tidy owed ∧ before.Still after)
        (fun failure after => failure.Justified tree ∧ after.Recorded) := by
    rintro item member now ⟨tidyNow, still⟩
    exact Attempt.Ensures.weaken (each item member tidyNow)
      (fun _ _ facts => ⟨facts.1, still.trans facts.2.2⟩) fun _ _ failed => failed
  have all := Attempt.ensures_forEach ⟨tidy, rfl⟩
    (fun _ _ facts => ⟨trivial, facts.1.recorded⟩) steps
  exact all.weaken (fun _ _ facts => ⟨facts.1, facts.2.confined, facts.2⟩) fun _ _ failed => failed

theorem report {cause : Cause} (tidy : before.Tidy owed) (held : tree.node parent = .ok node)
    (under : tree.Under parent tree.root) (justified : cause.Justified tree parent node) :
    Conducts tree id between (Attempt.report tree parent cause : Pass α) before done :=
  (Attempt.ensures_report held under justified).weaken (fun _ _ holds => holds)
    fun _ _ facts => ⟨facts.1, facts.2 ▸ tidy.recorded⟩

end Conducts

/-! ### What the pass does to its state -/

namespace Pass

theorem record_conducts (tidy : before.Tidy owed) (event : Event) :
    Conducts tree id owed (record event) before (fun _ => before.Still) :=
  ⟨tidy.recorded_cons event rfl rfl, .refl tree id before.known, rfl⟩

/-- A scope that was opened is owed a node. -/
theorem openScope_conducts (tidy : before.Tidy 0) (around : Option ScopeId) (kind : ScopeKind) :
    Conducts tree id 1 (openScope around kind) before (fun _ => before.Still) := by
  have size : (before.known.scopes.create around kind).2.size =
      before.known.annotations.size + 1 := by
    rw [Forest.size_create, tidy.balanced]
  refine ⟨⟨size, Nat.le_refl 1, fun moment member => ?_⟩, .refl tree id before.known, rfl⟩
  rcases List.mem_cons.1 member with rfl | earlier
  · exact Nat.le_of_eq size
  · exact tidy.recorded moment earlier

/-- A scope is attached to a node without one. A node that has one already was visited before,
which does not happen if it is not shared. -/
theorem attach_conducts (tidy : before.Tidy 1) (under : tree.Under id tree.root)
    (held : tree.node id = .ok node) (opens : node.kind.opensScope = true)
    (bare : before.known.Bare tree id) :
    Conducts tree id 0 (attach tree id scope) before (fun _ after => ∀ other, other ≠ id →
      after.known.annotations.get? other = before.known.annotations.get? other) := by
  unfold attach
  refine Conducts.known_bind ?_
  cases done : before.known.annotations.attach? id scope with
  | some annotations =>
    have size := Annotations.size_attach? done
    have kept : ∀ other, other ≠ id →
        annotations.get? other = before.known.annotations.get? other := by
      intro other apart
      rw [Annotations.get?_attach? done, if_neg apart]
    have balanced : before.known.scopes.size = annotations.size + 0 := by
      rw [size, tidy.balanced]
    refine ⟨⟨balanced, Nat.zero_le 1, fun moment member => ?_⟩, fun other apart => ?_, kept⟩
    · rcases List.mem_cons.1 member with rfl | earlier
      · exact Nat.le_succ_of_le (Nat.le_of_eq balanced)
      · exact tidy.recorded moment earlier
    · exact kept other fun same => apart (same ▸ .refl)
  | none =>
    refine Conducts.guard_bind tidy fun kind known => ?_
    cases (Tree.kind_of_node held).symm.trans known
    refine Conducts.report tidy held under ⟨rfl, opens, ?_⟩
    by_contra alone
    obtain ⟨annotations, possible⟩ := Annotations.attach?_exists (bare id .refl alone) scope
    cases done.symm.trans possible

theorem bindName_conducts (tidy : before.Tidy owed) (scope : ScopeId) (name : NodeId) (ty : Ty) :
    Conducts tree id owed (bind tree scope name ty) before (fun _ => before.Still) := by
  cases held : tree.node name with
  | error fault =>
    unfold bind
    exact Conducts.guard_bind tidy fun _ there => by cases held.symm.trans there
  | ok node =>
    unfold Conducts Attempt.Ensures
    rw [outcome_bindName held]
    cases done : before.known.scopes.insert scope
        ⟨(before.known.names.intern node.text).1, ty⟩ with
    | error fault => exact ⟨trivial, tidy.recorded⟩
    | ok answer =>
      exact ⟨tidy.recorded_cons _ (Forest.size_insert done) rfl, .refl tree id before.known, rfl⟩

/-- A question is refused with a justified error, if it is refused. -/
theorem ask_conducts {call : Call} {answer : α → Answer} {question : View → Typing α}
    (tidy : before.Tidy owed)
    (blames : (question (before.known.view tree)).Blames tree (fun _ => True)) :
    Conducts tree id owed (ask tree call answer question) before (fun _ => before.Still) := by
  have told := blames before.known.names
  unfold Conducts Attempt.Ensures
  rw [outcome_ask]
  rcases ran : (question (before.known.view tree)).outcome before.known.names with ⟨outcome, names⟩
  cases outcome with
  | ok value => exact ⟨tidy.recorded_cons _ rfl rfl, .refl tree id before.known, rfl⟩
  | error failure =>
    have justified := Attempt.ensures_error told ran
    cases failure with
    | error error =>
      have later : Progress.Tidy ⟨{ before.known with names },
          ⟨.asked call (.refused error), { before.known with names }⟩ :: before.journal⟩ owed :=
        tidy.recorded_cons _ rfl rfl
      exact ⟨justified, later.recorded⟩
    | fault fault => exact ⟨trivial, tidy.recorded⟩

end Pass

namespace Resolver

theorem path_conducts (tidy : before.Tidy owed) (under : tree.Under parent tree.root)
    (scope : ScopeId) (mustExist : Bool) :
    Conducts tree id owed (tree.resolver.path parent scope mustExist) before
      (fun _ => before.Still) :=
  Pass.ask_conducts tidy (@Typing.path_blames (before.known.view tree) scope parent under mustExist)

theorem expression_conducts (tidy : before.Tidy owed) (under : tree.Under parent tree.root)
    (scope : ScopeId) :
    Conducts tree id owed (tree.resolver.expression parent scope) before (fun _ => before.Still) :=
  Pass.ask_conducts tidy (@Typing.expression_blames (before.known.view tree) scope parent under)

theorem declared_conducts (tidy : before.Tidy owed) (under : tree.Under parent tree.root)
    (kind : tree.kind parent = .ok .types) :
    Conducts tree id owed (tree.resolver.declared parent) before (fun _ => before.Still) :=
  Pass.ask_conducts tidy (@Typing.declared_blames (before.known.view tree) parent under kind)

theorem checkReturns_conducts (tidy : before.Tidy owed) (under : tree.Under parent tree.root)
    (scope : ScopeId) (ty : Ty) :
    Conducts tree id owed (tree.resolver.checkReturns parent scope ty) before
      (fun _ => before.Still) :=
  Pass.ask_conducts tidy
    (@Typing.checkReturns_blames (before.known.view tree) scope parent under ty)

end Resolver
end ScopeTyping
