import ScopeTyping.Pass.Visit
import ScopeTyping.Proofs.Outcome
import ScopeTyping.Proofs.Scope.Chain
import ScopeTyping.Proofs.Tree.Handover

/-! The journals that a pass can keep. `Step` says for each event when it can follow a
journal and what it makes known, and nothing else can happen in a run: a chronicle is a
journal made of such steps. What holds of every run is shown by going through the steps
once. Journals have their newest moment first. -/
namespace ScopeTyping

deriving instance DecidableEq for Call, Answer, Event

/-- An event stands in a journal. -/
def Happened (journal : List Moment) (event : Event) : Prop :=
  ∃ moment ∈ journal, moment.event = event

instance (journal : List Moment) (event : Event) : Decidable (Happened journal event) :=
  inferInstanceAs (Decidable (∃ moment ∈ journal, moment.event = event))

/-- What a scope's header binds is bound. -/
def Ready (journal : List Moment) (scope : ScopeId) : Prop := Happened journal (.ready scope)

/-- A node hands on a scope: the one attached to it if its kind opens one, and else the one
that it is visited in. -/
def Hosts (tree : Tree) (journal : List Moment) (id : NodeId) (scope : ScopeId) : Prop :=
  ∃ kind, tree.kind id = .ok kind ∧
    Happened journal (if kind.opensScope then .attached id scope else .visited id scope)

/-- A node was handed a scope by another one. -/
def Handed (tree : Tree) (journal : List Moment) (id : NodeId) (scope : ScopeId) : Prop :=
  ∃ parent, Hosts tree journal parent scope ∧ tree.Hands parent id

namespace Resolver

/-- What the rules answer to a question, with the names that they then know. -/
def answer (resolver : Resolver) (view : View) : Call → Typing Answer
  | .path id scope mustExist => return .type (← resolver.rules.path view scope id mustExist).ty
  | .expression id scope => return .type (← resolver.rules.expression view scope id)
  | .declared id => return .type (← resolver.rules.declared view id)
  | .returns body scope ty => do
    resolver.rules.returns view body scope ty
    pure .accepted

end Resolver

/-- Why a node's text is bound in a scope, and to which type. -/
inductive Binder (resolver : Resolver) (past : List Moment) (now : Snapshot) (scope : ScopeId) :
    NodeId → Ty → Prop where
  | loopVariable {id : NodeId} {found : Scope} (held : now.scopes.scope scope = .ok found)
      (loop : found.kind = .loop) (pending : ¬ Ready past scope) :
      Binder resolver past now scope id .any
  | parameter {id types : NodeId} {ty : Ty} {before : NameTable} {found : Scope}
      (held : now.scopes.scope scope = .ok found) (function : found.kind = .function)
      (pending : ¬ Ready past scope)
      (declared : (resolver.rules.declared (now.view resolver.tree) types).outcome before =
        (.ok ty, now.names)) :
      Binder resolver past now scope id ty
  | assigned {path value id : NodeId} {target : Symbol} {ty : Ty} {before between : NameTable}
      (ready : Ready past scope) (head : resolver.tree.child? path .name = .ok (some id))
      (asked : (resolver.rules.path (now.view resolver.tree) scope path false).outcome before =
        (.ok target, between))
      (typed : (resolver.rules.expression (now.view resolver.tree) scope value).outcome between =
        (.ok ty, now.names))
      (unknown : target.ty.isAbsent = true) :
      Binder resolver past now scope id (if ty.isAbsent then .any else ty)

/-- The events that can follow a journal, each with what is known after it. -/
inductive Step (resolver : Resolver) (past : List Moment) (now : Snapshot) :
    Event → Snapshot → Prop where
  | visited {id : NodeId} {scope : ScopeId} (ready : Ready past scope)
      (handed : Handed resolver.tree past id scope) : Step resolver past now (.visited id scope) now
  | opened {parent : Option ScopeId} (kind : ScopeKind)
      (ready : ∀ around, parent = some around → Ready past around) :
      Step resolver past now (.opened (now.scopes.create parent kind).1)
        { now with scopes := (now.scopes.create parent kind).2 }
  | attached {id : NodeId} {scope : ScopeId} {kind : Kind} {annotations : Annotations}
      (known : resolver.tree.kind id = .ok kind) (opens : kind.opensScope = true)
      (entered : (id = resolver.tree.root ∧ kind = .start) ∨
        ∃ around, Happened past (.visited id around))
      (done : now.annotations.attach? id scope = some annotations) :
      Step resolver past now (.attached id scope) { now with annotations }
  | bound {scope : ScopeId} {id : NodeId} {ty : Ty} {node : Node} {replaced : Option Symbol}
      {scopes : Forest} (binder : Binder resolver past now scope id ty)
      (held : resolver.tree.node id = .ok node)
      (done : now.scopes.insert scope ⟨(now.names.intern node.text).1, ty⟩ =
        .ok (replaced, scopes)) :
      Step resolver past now (.bound scope ⟨(now.names.intern node.text).1, ty⟩)
        { now with names := (now.names.intern node.text).2, scopes }
  | ready {scope : ScopeId} (inside : scope.index < now.scopes.size) :
      Step resolver past now (.ready scope) now
  | answered {call : Call} {answer : Answer} {names : NameTable}
      (given : (resolver.answer (now.view resolver.tree) call).outcome now.names =
        (.ok answer, names)) :
      Step resolver past now (.asked call answer) { now with names }
  | refused {call : Call} {error : SemanticError} {names : NameTable}
      (given : (resolver.answer (now.view resolver.tree) call).outcome now.names =
        (.error (.error error), names)) :
      Step resolver past now (.asked call (.refused error)) { now with names }

/-- What is known at the end of a journal. -/
def latest (names : NameTable) : List Moment → Snapshot
  | [] => .initial names
  | moment :: _ => moment.known

/-- A journal that a pass can keep. -/
inductive Chronicle (resolver : Resolver) (names : NameTable) : List Moment → Prop where
  | begun : Chronicle resolver names []
  | next {past : List Moment} {event : Event} {after : Snapshot}
      (before : Chronicle resolver names past)
      (step : Step resolver past (latest names past) event after) :
      Chronicle resolver names (⟨event, after⟩ :: past)

/-! ### Journals grow -/

section Growth
variable {journal past : List Moment} {event : Event} {scope : ScopeId} {id : NodeId}
  {tree : Tree} {moment : Moment}

theorem Happened.here (known : Snapshot) : Happened (⟨event, known⟩ :: past) event :=
  ⟨_, List.mem_cons_self .., rfl⟩

theorem Happened.later (happened : Happened past event) (grown : past <:+ journal) :
    Happened journal event := by
  obtain ⟨moment, member, same⟩ := happened
  exact ⟨moment, grown.subset member, same⟩

theorem happened_cons : Happened (moment :: past) event ↔ moment.event = event ∨ Happened past event := by
  simp [Happened]

theorem Hosts.later (hosts : Hosts tree past id scope) (grown : past <:+ journal) :
    Hosts tree journal id scope := by
  obtain ⟨kind, known, happened⟩ := hosts
  exact ⟨kind, known, happened.later grown⟩

theorem Handed.later (handed : Handed tree past id scope) (grown : past <:+ journal) :
    Handed tree journal id scope := by
  obtain ⟨parent, hosts, hands⟩ := handed
  exact ⟨parent, hosts.later grown, hands⟩

end Growth

namespace Chronicle

variable {resolver : Resolver} {names : NameTable} {journal past newer : List Moment}
  {moment : Moment}

theorem before (chronicle : Chronicle resolver names (moment :: past)) :
    Chronicle resolver names past := by
  cases chronicle with
  | next before _ => exact before

/-- What stands before a moment of a chronicle is a chronicle. -/
theorem of_append (chronicle : Chronicle resolver names (newer ++ past)) :
    Chronicle resolver names past := by
  induction newer with
  | nil => exact chronicle
  | cons head rest step => exact step chronicle.before

theorem of_suffix (chronicle : Chronicle resolver names journal) (grown : past <:+ journal) :
    Chronicle resolver names past := by
  obtain ⟨newer, rfl⟩ := grown
  exact chronicle.of_append

/-- Every moment of a chronicle is a step from what was known before it. -/
theorem step_of_cons (chronicle : Chronicle resolver names (moment :: past)) :
    Step resolver past (latest names past) moment.event moment.known := by
  cases chronicle with
  | next _ step => exact step

/-- An event of a chronicle was a step from the journal before it. -/
theorem step_of_happened (chronicle : Chronicle resolver names journal) {event : Event}
    (happened : Happened journal event) :
    ∃ past after, (⟨event, after⟩ :: past) <:+ journal ∧
      Step resolver past (latest names past) event after := by
  obtain ⟨⟨_, after⟩, member, rfl⟩ := happened
  obtain ⟨newer, past, rfl⟩ := List.append_of_mem member
  exact ⟨past, after, List.suffix_append _ _, chronicle.of_append.step_of_cons⟩

end Chronicle

/-! ### What a step does to the scopes -/

namespace Step

variable {resolver : Resolver} {past : List Moment} {now after : Snapshot} {event : Event}
  {scope : ScopeId} {found : Scope} {id : NodeId}

/-- A scope after a step is one from before, the one that was opened, or one in which a name
was bound. -/
theorem scope_cases (step : Step resolver past now event after)
    (held : after.scopes.scope scope = .ok found) :
    now.scopes.scope scope = .ok found ∨
    (∃ parent kind, found = .fresh parent kind ∧ scope.index = now.scopes.size ∧
      ∀ around, parent = some around → Ready past around) ∨
    (∃ before id node symbol, now.scopes.scope scope = .ok before ∧
      Binder resolver past now scope id symbol.ty ∧ event = .bound scope symbol ∧
      resolver.tree.node id = .ok node ∧ symbol.name = (now.names.intern node.text).1 ∧
      found = { before with symbols := before.symbols.insert symbol.name symbol }) := by
  cases step with
  | opened kind ready =>
    rcases Forest.scope_of_create held with old | ⟨fresh, new⟩
    · exact .inl old
    · exact .inr (.inl ⟨_, kind, fresh, new, ready⟩)
  | @bound target id ty node replaced scopes binder nodeHeld done =>
    obtain ⟨before, old, same⟩ := Forest.scope_of_insert done held
    by_cases here : scope = target
    · subst here
      rw [if_pos rfl] at same
      exact .inr (.inr ⟨before, id, node, _, old, binder, rfl, nodeHeld, rfl, same⟩)
    · rw [if_neg here] at same
      exact .inl (same ▸ old)
  | visited _ _ | attached _ _ _ _ | ready _ | answered _ | refused _ => exact .inl held

/-- The scopes of before are all still there. -/
theorem size_le (step : Step resolver past now event after) : now.scopes.size ≤ after.scopes.size := by
  cases step with
  | @opened parent kind _ =>
    have grown := Forest.size_create now.scopes parent kind
    show now.scopes.size ≤ (now.scopes.create parent kind).2.size
    omega
  | bound binder held done =>
    exact Nat.le_of_eq (Forest.size_insert done).symm
  | visited _ _ | attached _ _ _ _ | ready _ | answered _ | refused _ => exact Nat.le_refl _

/-- A scope keeps its kind and the scope around it. -/
theorem scope_kept (step : Step resolver past now event after)
    (held : now.scopes.scope scope = .ok found) :
    ∃ kept, after.scopes.scope scope = .ok kept ∧ kept.kind = found.kind ∧
      kept.parent = found.parent := by
  cases step with
  | opened kind ready => exact ⟨found, Forest.scope_create_of_ok held _ kind, rfl, rfl⟩
  | bound binder nodeHeld done =>
    refine ⟨_, (Forest.scope_insert done).trans (congrArg (Except.map _) held), ?_⟩
    dsimp only
    split
    · exact ⟨rfl, rfl⟩
    · exact ⟨rfl, rfl⟩
  | visited _ _ | attached _ _ _ _ | ready _ | answered _ | refused _ => exact ⟨found, held, rfl, rfl⟩

theorem nested (step : Step resolver past now event after) (nested : now.scopes.Nested)
    (inside : ∀ scope, Ready past scope → scope.index < now.scopes.size) :
    after.scopes.Nested := by
  cases step with
  | opened kind ready => exact nested.create kind fun around same => inside around (ready around same)
  | bound binder held done => exact nested.insert done
  | visited _ _ | attached _ _ _ _ | ready _ | answered _ | refused _ => exact nested

/-- A scope that gets ready is there. -/
theorem inside (step : Step resolver past now event after)
    (inside : ∀ scope, Ready past scope → scope.index < now.scopes.size)
    (ready : Ready (⟨event, after⟩ :: past) scope) : scope.index < after.scopes.size := by
  rcases happened_cons.1 ready with same | before
  · cases step with
    | ready there =>
      cases same
      exact there
    | visited _ _ | opened _ _ | attached _ _ _ _ | bound _ _ _ | answered _ | refused _ => cases same
  · exact Nat.lt_of_lt_of_le (inside scope before) step.size_le

/-- A node has the scope that was attached to it. -/
theorem attached_iff (step : Step resolver past now event after)
    (attached : ∀ id scope, now.annotations.get? id = some scope ↔
      Happened past (.attached id scope)) :
    after.annotations.get? id = some scope ↔
      Happened (⟨event, after⟩ :: past) (.attached id scope) := by
  rw [happened_cons, ← attached id scope]
  cases step with
  | @attached node target kind annotations known opens entered done =>
    have answer := Annotations.get?_attach? done id
    show annotations.get? id = some scope ↔ _
    rw [answer]
    by_cases here : id = node
    · subst here
      have free : now.annotations.get? id = none := by
        unfold Annotations.attach? at done
        split at done
        · cases done
        · assumption
      simp [free]
    · simp [here, Ne.symm here]
  | visited _ _ | opened _ _ | bound _ _ _ | ready _ | answered _ | refused _ => simp

end Step

/-- The header of a loop binds names whose types are not tracked. -/
theorem Binder.any_of_loop {resolver : Resolver} {past : List Moment} {now : Snapshot}
    {scope : ScopeId} {id : NodeId} {ty : Ty} {found : Scope}
    (binder : Binder resolver past now scope id ty) (held : now.scopes.scope scope = .ok found)
    (loop : found.kind = .loop) (pending : ¬ Ready past scope) : ty = .any := by
  cases binder with
  | loopVariable _ _ _ => rfl
  | parameter there function _ _ =>
    rw [held, Except.ok.injEq] at there
    subst there
    exact absurd (loop.symm.trans function) (by decide)
  | assigned ready _ _ _ _ => exact absurd ready pending

/-! ### What holds in every chronicle -/

/-- What is known at the end of a journal agrees with the journal, by whatever rules the
pass goes. -/
structure Consistent (past : List Moment) (now : Snapshot) : Prop where
  nested : now.scopes.Nested
  inside : ∀ scope, Ready past scope → scope.index < now.scopes.size
  around : ∀ scope found parent, now.scopes.scope scope = .ok found → found.parent = some parent →
    Ready past parent
  keyed : ∀ scope found, now.scopes.scope scope = .ok found → ∀ entry ∈ found.symbols.entries,
    entry.1 = entry.2.name
  untracked : ∀ scope found, now.scopes.scope scope = .ok found → found.kind = .loop →
    ¬ Ready past scope → ∀ entry ∈ found.symbols.entries, entry.2.ty = .any
  attached : ∀ id scope, now.annotations.get? id = some scope ↔ Happened past (.attached id scope)

theorem Consistent.step {resolver : Resolver} {past : List Moment} {now after : Snapshot}
    {event : Event} (consistent : Consistent past now) (step : Step resolver past now event after) :
    Consistent (⟨event, after⟩ :: past) after where
  nested := step.nested consistent.nested consistent.inside
  inside _ := step.inside consistent.inside
  attached _ _ := step.attached_iff consistent.attached
  around := by
    intro scope found parent held inner
    have later : ∀ {around}, Ready past around → Ready (⟨event, after⟩ :: past) around :=
      fun ready => ready.later (List.suffix_cons _ _)
    rcases step.scope_cases held with old | ⟨_, _, rfl, _, ready⟩ | ⟨before, _, _, _, old, _, _, _, _, rfl⟩
    · exact later (consistent.around scope found parent old inner)
    · exact later (ready parent inner)
    · exact later (consistent.around scope before parent old inner)
  keyed := by
    intro scope found held entry member
    rcases step.scope_cases held with old | ⟨_, _, rfl, _, _⟩ | ⟨before, _, _, symbol, old, _, _, _, _, rfl⟩
    · exact consistent.keyed scope found old entry member
    · cases member
    · rcases SymbolTable.mem_put member with rfl | earlier
      · rfl
      · exact consistent.keyed scope before old entry earlier
  untracked := by
    intro scope found held loop pending entry member
    have unready : ¬ Ready past scope := fun ready => pending (ready.later (List.suffix_cons _ _))
    rcases step.scope_cases held with old | ⟨_, _, rfl, _, _⟩ | 
        ⟨before, _, _, symbol, old, binder, _, _, _, rfl⟩
    · exact consistent.untracked scope found old loop unready entry member
    · cases member
    · rcases SymbolTable.mem_put member with rfl | earlier
      · exact binder.any_of_loop old loop unready
      · exact consistent.untracked scope before old loop unready entry earlier

theorem Chronicle.consistent {resolver : Resolver} {names : NameTable} {journal : List Moment}
    (chronicle : Chronicle resolver names journal) : Consistent journal (latest names journal) := by
  induction chronicle with
  | begun =>
    have empty : ∀ scope found, Forest.empty.scope scope ≠ .ok found := fun scope found held => by
      simp [Forest.scope_eq_ok_iff, Forest.empty] at held
    have nothing : ∀ event, ¬ Happened [] event := fun event happened => by
      simp [Happened] at happened
    exact {
      nested := Forest.Nested.empty
      inside := fun scope ready => absurd ready (nothing _)
      around := fun scope found _ held => absurd held (empty scope found)
      keyed := fun scope found held => absurd held (empty scope found)
      untracked := fun scope found held => absurd held (empty scope found)
      attached := fun id scope => by simp [latest, Snapshot.initial, Annotations.empty,
        Annotations.get?, Happened] }
  | next before step consistent => exact consistent.step step

end ScopeTyping
