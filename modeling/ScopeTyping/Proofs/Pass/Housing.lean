import ScopeTyping.Proofs.Pass.Frame
import ScopeTyping.Proofs.Pass.Handlers
import ScopeTyping.Proofs.Pass.Placement

/-! What has become of the nodes that were visited. Once a run has succeeded, a visited node
whose kind opens a scope has one, opened where the node was visited; and every node has handed
its scope, be it its own or the one that it was given, to all the nodes that it is to hand it. -/
namespace ScopeTyping

variable {resolver : Resolver} {id : NodeId} {scope inner : ScopeId} {kind : Kind}

/-! ### Steps that visit nothing -/

/-- A run has gone on without visiting a node. -/
def Quiet (before after : Progress) : Prop :=
  ∃ newer, after.journal = newer ++ before.journal ∧
    ∀ moment ∈ newer, ∀ id scope, moment.event ≠ .visited id scope

section Quiet
variable {before between after : Progress}

theorem Quiet.refl (here : Progress) : Quiet here here := ⟨[], rfl, by simp⟩

theorem Quiet.trans (first : Quiet before between) (second : Quiet between after) :
    Quiet before after := by
  obtain ⟨newer, sinceBefore, quiet⟩ := first
  obtain ⟨newest, sinceBetween, still⟩ := second
  refine ⟨newest ++ newer, by rw [sinceBetween, sinceBefore, List.append_assoc], ?_⟩
  intro moment member
  rcases List.mem_append.1 member with late | early
  · exact still moment late
  · exact quiet moment early

theorem Quiet.noted {event : Event} (other : ∀ id scope, event ≠ .visited id scope)
    (before : Progress) (known : Snapshot) : Quiet before (before.noted event known) :=
  ⟨[⟨event, known⟩], rfl, by simpa using other⟩

theorem Quiet.grown (quiet : Quiet before after) : before.journal <:+ after.journal := by
  obtain ⟨newer, same, _⟩ := quiet
  exact ⟨newer, same.symm⟩

theorem Quiet.visited_before (quiet : Quiet before after)
    (visited : Happened after.journal (.visited id scope)) :
    Happened before.journal (.visited id scope) := by
  obtain ⟨newer, same, silent⟩ := quiet
  obtain ⟨moment, member, here⟩ := visited
  rw [same] at member
  rcases List.mem_append.1 member with late | early
  · exact absurd here (silent moment late id scope)
  · exact ⟨moment, early, here⟩

theorem Progress.Asks.quiet {call : Call} {answer : Answer}
    (asks : before.Asks resolver call answer after) : Quiet before after := by
  cases asks with
  | done _ => exact .noted (by simp) _ _

theorem Progress.Attaches.quiet (attaches : before.Attaches id scope after) :
    Quiet before after := by
  cases attaches with
  | done _ => exact .noted (by simp) _ _

theorem Progress.Binds.quiet {tree : Tree} {ty : Ty} (binds : before.Binds tree scope id ty after) :
    Quiet before after := by
  cases binds with
  | done _ _ => exact .noted (by simp) _ _

theorem Progress.opening_quiet (before : Progress) (parent : Option ScopeId) (kind : ScopeKind) :
    Quiet before (before.opening parent kind) := .noted (by simp) _ _

theorem Progress.readying_quiet (before : Progress) (scope : ScopeId) :
    Quiet before (before.readying scope) := .noted (by simp) _ _

theorem Along.quiet {α : Type} {step : α → Progress → Progress → Prop} {items : List α}
    (along : Along step items before after)
    (each : ∀ item here later, step item here later → Quiet here later) : Quiet before after := by
  induction along with
  | done => exact .refl _
  | next first _ others => exact (each _ _ _ first).trans others

theorem Resolver.BindsParameter.quiet (binds : resolver.BindsParameter scope id before after) :
    Quiet before after := by
  cases binds with
  | done _ _ asks binds => exact asks.quiet.trans binds.quiet

theorem Resolver.Weighs.quiet {path : NodeId} {target ty : Ty}
    (weighs : resolver.Weighs id scope path target ty before after) : Quiet before after := by
  obtain ⟨_, _, _, _, _, asks, typed⟩ := weighs.typed
  exact asks.quiet.trans typed.quiet

/-- Entering a node visits nothing. -/
theorem Resolver.Enters.quiet (enters : resolver.Enters id scope before kind inner after) :
    Quiet before after := by
  cases enters with
  | straight _ => exact .refl _
  | condition _ _ _ asks => exact asks.quiet
  | accepted weighs _ _ => exact weighs.quiet
  | introduced weighs _ _ binds => exact weighs.quiet.trans binds.quiet
  | story attaches | block attaches =>
    exact ((before.opening_quiet _ _).trans (Progress.readying_quiet _ _)).trans attaches.quiet
  | @loop header output attached asked bound attaches _ typed _ _ loopNames =>
    have first : Quiet attached asked := by
      rcases typed with ⟨_, rfl⟩ | ⟨_, _, _, asks⟩
      · exact .refl _
      · exact asks.quiet
    have second : Quiet asked bound := loopNames.quiet fun _ _ _ binds => binds.quiet
    exact (((before.opening_quiet _ _).trans attaches.quiet).trans (first.trans second)).trans
      (Progress.readying_quiet _ _)
  | @function header bound read after _ _ parameters declares attaches =>
    have first : Quiet (before.opening none .function) bound :=
      parameters.quiet fun _ _ _ binds => binds.quiet
    have second : Quiet (bound.readying before.next) read := by
      rcases declares with ⟨_, rfl⟩ | ⟨_, _, _, _, _, asks⟩
      · exact .refl _
      · exact asks.quiet
    exact (((before.opening_quiet _ _).trans first).trans
      ((bound.readying_quiet _).trans second)).trans attaches.quiet

/-- Leaving a node visits nothing. -/
theorem Resolver.Leaves.quiet (leaves : resolver.Leaves id inner before kind after) :
    Quiet before after := by
  cases leaves with
  | silent _ => exact .refl _
  | checked _ asks => exact asks.quiet

end Quiet

/-! ### Nodes that were handled -/

/-- A node of a kind was handled in `scope`, and handed `inner` on to all that are to be handed
it. If its kind opens a scope, that is its own one, opened where the node was visited. -/
structure Housed (tree : Tree) (progress : Progress) (id : NodeId) (scope : ScopeId) (kind : Kind)
    (inner : ScopeId) : Prop where
  known : tree.kind id = .ok kind
  handed : ∀ child, tree.Hands id child → Happened progress.journal (.visited child inner)
  shares : kind.opensScope = false → inner = scope
  opens : kind.opensScope = true → progress.known.annotations.get? id = some inner ∧
    ∃ found, progress.known.scopes.scope inner = .ok found ∧
      kind.scopeKind? = some found.kind ∧ found.parent = found.kind.around scope

/-- The nodes that a task has to see to are seen to. -/
def Task.Seen (tree : Tree) (progress : Progress) : Task → Prop
  | .node id scope => ∃ kind inner, Housed tree progress id scope kind inner
  | .nodes ids scope => ∀ id ∈ ids, Happened progress.journal (.visited id scope)

section Housed
variable {before between after : Progress} {touched : ScopeId → Prop}

theorem Housed.later {tree : Tree} (housed : Housed tree before id scope kind inner)
    (grown : before.journal <:+ after.journal) (framed : Framed touched before.known after.known) :
    Housed tree after id scope kind inner where
  known := housed.known
  handed child hands := (housed.handed child hands).later grown
  shares := housed.shares
  opens opening := by
    obtain ⟨held, found, there, sameKind, parent⟩ := housed.opens opening
    obtain ⟨kept, still, keptParent, keptKind, _⟩ := framed.scopes inner found there
    refine ⟨framed.annotations id inner held, kept, still, ?_, ?_⟩
    · rw [keptKind, sameKind]
    · rw [keptKind, keptParent, parent]

theorem Course.grown {task : Task} (course : Course resolver task before after) :
    before.journal <:+ after.journal := by
  induction course with
  | done => exact List.suffix_refl _
  | next _ _ first others => exact ((List.suffix_cons _ _).trans first).trans others
  | node _ enters _ _ leaves below => exact (enters.quiet.grown.trans below).trans leaves.quiet.grown

/-- Once a task is carried out, all that it has visited is handled. -/
theorem Course.housed {task : Task} (course : Course resolver task before after) :
    (∀ id scope, Happened after.journal (.visited id scope) →
      Happened before.journal (.visited id scope) ∨
        ∃ kind inner, Housed resolver.tree after id scope kind inner) ∧
    task.Seen resolver.tree after := by
  induction course with
  | done => exact ⟨fun _ _ visited => .inl visited, by simp [Task.Seen]⟩
  | @next id rest scope before between after visit others first second =>
    obtain ⟨kind, inner, here⟩ := first.2
    have later := here.later others.grown others.framed
    refine ⟨fun other around visited => ?_, fun other member => ?_⟩
    · rcases second.1 other around visited with earlier | housed
      · rcases first.1 other around earlier with before | ⟨otherKind, otherInner, housed⟩
        · rcases happened_cons.1 before with this | old
          · cases this
            exact .inr ⟨kind, inner, later⟩
          · exact .inl old
        · exact .inr ⟨otherKind, otherInner, housed.later others.grown others.framed⟩
      · exact .inr housed
    · rcases List.mem_cons.1 member with rfl | further
      · exact (Happened.here _).later (visit.grown.trans others.grown)
      · exact second.2 other further
  | @node id scope inner kind ids before entered swept after known enters all course leaves below =>
    have framed : Framed (· = inner) swept.known after.known := leaves.refills.framed
    refine ⟨fun other around visited => ?_, kind, inner, ?_⟩
    · rcases below.1 other around (leaves.quiet.visited_before visited) with earlier | housed
      · exact .inl (enters.quiet.visited_before earlier)
      · obtain ⟨otherKind, otherInner, housed⟩ := housed
        exact .inr ⟨otherKind, otherInner, housed.later leaves.quiet.grown framed⟩
    · have seen : Housed resolver.tree swept id scope kind inner := {
        known
        handed := fun child hands => below.2 child (all.mem_iff.2 hands)
        shares := fun shares => (enters.shares shares).1
        opens := fun opens => by
          obtain ⟨rfl, opened, ofKind, furnishes⟩ := enters.opens opens
          obtain ⟨found, held, foundKind, parent⟩ := furnishes.scope_exists
          obtain ⟨kept, still, keptParent, keptKind, _⟩ := course.framed.scopes _ found held
          refine ⟨course.framed.annotations id _ furnishes.get?_self, kept, still, ?_, ?_⟩
          · rw [keptKind, foundKind, ofKind]
          · rw [keptKind, keptParent, foundKind, parent] }
      exact seen.later leaves.quiet.grown framed

end Housed

/-! ### Whole runs -/

/-- A run that succeeded has handled the root of its tree, where the scope around the root does
not matter, and has come to an end of which its journal tells all. -/
structure Resolver.Ends (resolver : Resolver) (names : NameTable) (resolution : Resolution)
    (after : Progress) : Prop where
  story : resolver.tree.kind resolver.tree.root = .ok .start
  course : Course resolver (.node resolver.tree.root ⟨0⟩) ⟨.initial names, []⟩ after
  kept : Kept resolver names after
  resolution : resolution = after.known.resolution
  namesLeft : (resolver.run names).names = after.known.names
  history : (resolver.run names).history = after.journal

section Runs
variable {names : NameTable} {resolution : Resolution} {after : Progress}

theorem Resolver.run_ends (succeeds : (resolver.run names).outcome = .ok resolution) :
    ∃ after, resolver.Ends names resolution after := by
  obtain ⟨after, course, story, same, namesLeft, journal⟩ := run_course succeeds ⟨0⟩
  have history : (resolver.run names).history = after.journal := by
    rw [Run.history, journal, List.reverse_reverse]
  obtain ⟨sameNames, sameResolution, _⟩ := run_finished succeeds
  rw [history] at sameNames sameResolution
  have current : after.known = latest names after.journal := by
    rw [namesLeft] at sameNames
    rw [same] at sameResolution
    cases known : after.known
    rw [known] at sameNames sameResolution
    cases sameNames
    cases sameResolution
    rfl
  exact ⟨after, {
    story, course
    kept := ⟨history ▸ chronicle_run, current⟩
    resolution := same
    namesLeft
    history }⟩

theorem Resolver.Ends.happened_iff (ends : resolver.Ends names resolution after) {event : Event} :
    Happened (resolver.run names).journal event ↔ Happened after.journal event := by
  rw [Run.happened_journal, ends.history]

/-- Every visited node is handled. -/
theorem Resolver.Ends.housed (ends : resolver.Ends names resolution after)
    (visited : Happened after.journal (.visited id scope)) :
    ∃ kind inner, Housed resolver.tree after id scope kind inner := by
  rcases ends.course.housed.1 id scope visited with impossible | housed
  · simp [Happened] at impossible
  · exact housed

/-- So is every node that has a scope, which was opened where the node was handled. -/
theorem Resolver.Ends.housed_of_attached (ends : resolver.Ends names resolution after)
    (held : after.known.annotations.get? id = some inner) : ∃ scope kind, kind.opensScope = true ∧
      ((id = resolver.tree.root ∧ kind = .start) ∨ Happened after.journal (.visited id scope)) ∧
      Housed resolver.tree after id scope kind inner := by
  have attached : Happened after.journal (.attached id inner) := by
    rw [ends.kept.current] at held
    exact (ends.kept.chronicle.consistent.attached id inner).1 held
  obtain ⟨kind, known, opens, entered⟩ := ends.kept.chronicle.attached_cases attached
  have handled : ∃ scope other own, ((id = resolver.tree.root ∧ kind = .start) ∨
      Happened after.journal (.visited id scope)) ∧ Housed resolver.tree after id scope other own := by
    rcases entered with ⟨rfl, story⟩ | ⟨scope, visited⟩
    · obtain ⟨other, own, housed⟩ := ends.course.housed.2
      exact ⟨⟨0⟩, other, own, .inl ⟨rfl, story⟩, housed⟩
    · obtain ⟨other, own, housed⟩ := ends.housed visited
      exact ⟨scope, other, own, .inr visited, housed⟩
  obtain ⟨scope, other, own, entered, housed⟩ := handled
  cases known.symm.trans housed.known
  obtain ⟨ownHeld, _⟩ := housed.opens opens
  cases held.symm.trans ownHeld
  exact ⟨scope, kind, opens, entered, housed⟩

end Runs

/-- The tour of the constructs resolves. -/
theorem Tree.tour_resolves : ∃ resolution, (Tree.tour.resolve .empty).outcome = .ok resolution :=
  exists_of_isOk (by decide +kernel)

end ScopeTyping
