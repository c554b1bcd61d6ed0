import ScopeTyping.Proofs.Pass.Introductions
import ScopeTyping.Proofs.Scope.Listing

/-! Every symbol has its binders and every binder its symbol. At each moment between two visits
the table of a scope is what one gets from the header of the node that the scope belongs to and
then from the assignments that introduced a variable there, one after another (`Accounted`). -/
namespace ScopeTyping

variable {tree : Tree} {names : NameTable} {id : NodeId} {scope inner : ScopeId} {kind : Kind}
  {bindings : List (String × Ty)}

/-! ### States of one run -/

section States
variable {resolver : Resolver} {before between after : Progress}

theorem Resolver.Weighs.current {path : NodeId} {target ty : Ty}
    (weighs : resolver.Weighs id scope path target ty before after) :
    after.known = latest names after.journal := by
  obtain ⟨_, _, _, _, _, _, typed⟩ := weighs.typed
  cases typed with
  | done _ => rfl

theorem Resolver.Enters.current (enters : resolver.Enters id scope before kind inner after)
    (current : before.known = latest names before.journal) :
    after.known = latest names after.journal := by
  cases enters with
  | straight _ => exact current
  | condition _ _ _ asks =>
    cases asks with
    | done _ => rfl
  | accepted weighs _ _ => exact weighs.current
  | introduced _ _ _ binds =>
    cases binds with
    | done _ _ => rfl
  | story attaches | block attaches | function _ _ _ _ attaches =>
    cases attaches with
    | done _ => rfl
  | loop _ _ _ _ _ _ => rfl

theorem Resolver.Leaves.current (leaves : resolver.Leaves id inner before kind after)
    (current : before.known = latest names before.journal) :
    after.known = latest names after.journal := by
  cases leaves with
  | silent _ => exact current
  | checked _ asks =>
    cases asks with
    | done _ => rfl

/-- Carrying out a task leads to what the journal tells last. -/
theorem Course.current {task : Task} (course : Course resolver task before after)
    (current : before.known = latest names before.journal) :
    after.known = latest names after.journal := by
  induction course with
  | done => exact current
  | next _ _ first others => exact others (first rfl)
  | node _ enters _ _ leaves below => exact leaves.current (below (enters.current current))

theorem Kept.grows (kept : Kept tree.resolver names after)
    (current : before.known = latest names before.journal)
    (grown : before.journal <:+ after.journal) : before.known.names.Grows after.known.names := by
  rw [current, kept.current]
  exact kept.chronicle.grows grown

theorem Kept.earlier (kept : Kept resolver names after)
    (current : before.known = latest names before.journal)
    (grown : before.journal <:+ after.journal) : Kept resolver names before :=
  ⟨kept.chronicle.of_suffix grown, current⟩

end States

/-! ### The tables that headers fill -/

/-- A scope is there, and its table is what one gets from the bindings. -/
def Progress.Holds (progress : Progress) (scope : ScopeId) (bindings : List (String × Ty)) : Prop :=
  ∃ found, progress.known.scopes.scope scope = .ok found ∧
    found.symbols.Lists progress.known.names bindings

section Headers
variable {before between after : Progress} {ty : Ty}

theorem Progress.Holds.grow (holds : before.Holds scope bindings)
    (scopes : after.known.scopes = before.known.scopes)
    (grown : before.known.names.Grows after.known.names) : after.Holds scope bindings := by
  obtain ⟨found, held, lists⟩ := holds
  exact ⟨found, scopes ▸ held, lists.grow grown⟩

theorem Progress.opening_holds (before : Progress) (parent : Option ScopeId) (kind : ScopeKind) :
    (before.opening parent kind).Holds before.next [] :=
  ⟨_, Forest.scope_create _ _ _, .nil _⟩

theorem Progress.Binds.holds (binds : before.Binds tree scope id ty after)
    (holds : before.Holds scope bindings) : ∃ node, tree.node id = .ok node ∧
      after.Holds scope (bindings ++ [(node.text, ty)]) := by
  obtain ⟨found, held, lists⟩ := holds
  cases binds with
  | @done node replaced scopes nodeHeld inserted =>
    refine ⟨node, nodeHeld, _, Forest.scope_insert_self inserted held, ?_⟩
    exact (lists.grow (NameTable.grows_intern _ _)).insert (NameTable.text?_intern _ _)

/-- Steps that each bind one text bind a list of texts. -/
theorem Along.holds {α : Type} {step : α → Progress → Progress → Prop} {items : List α}
    (along : Along step items before after) (each : α → String × Ty → Prop)
    (binds : ∀ item here later bindings, step item here later → here.Holds scope bindings →
      ∃ binding, each item binding ∧ later.Holds scope (bindings ++ [binding]))
    (holds : before.Holds scope bindings) :
    ∃ more, List.Forall₂ each items more ∧ after.Holds scope (bindings ++ more) := by
  induction along generalizing bindings with
  | done => exact ⟨[], .nil, by rwa [List.append_nil]⟩
  | next first _ others =>
    obtain ⟨binding, here, held⟩ := binds _ _ _ _ first holds
    obtain ⟨more, all, later⟩ := others held
    refine ⟨binding :: more, .cons here all, ?_⟩
    rwa [List.append_cons]

theorem Progress.Attaches.holds (attaches : before.Attaches id inner after)
    (holds : before.Holds scope bindings) : after.Holds scope bindings := by
  cases attaches with
  | done _ => exact holds

theorem Resolver.BindsParameter.holds (sound : tree.Sound)
    (binds : tree.resolver.BindsParameter scope id before after)
    (holds : before.Holds scope bindings) :
    ∃ binding, tree.Parameter id binding ∧ after.Holds scope (bindings ++ [binding]) := by
  cases binds with
  | @done name types ty between nameChild typesChild asks binds =>
    obtain ⟨writes, grown, scopes⟩ := asks.writes sound (Tree.child?_eq_ok_some typesChild).2
    obtain ⟨node, held, after⟩ := binds.holds (holds.grow scopes grown)
    exact ⟨(node.text, ty), ⟨name, node, types, nameChild, held, rfl, typesChild, writes⟩, after⟩

/-- A node that opens a scope fills it with the bindings of its header. -/
theorem Resolver.Enters.heads (sound : tree.Sound)
    (enters : tree.resolver.Enters id scope before kind inner after)
    (known : tree.kind id = .ok kind) (opens : kind.opensScope = true) :
    ∃ header, tree.Heads id header ∧ after.Holds before.next header := by
  cases enters with
  | straight straight => cases (Kind.straight_of_opensScope opens).symm.trans straight
  | condition branch _ _ _ => cases (Kind.conditionHeader?_of_opensScope opens).symm.trans branch
  | accepted _ _ _ | introduced _ _ _ _ => cases opens
  | story attaches =>
    exact ⟨[], .nothing known (.inl rfl), attaches.holds (before.opening_holds none .root)⟩
  | block attaches =>
    exact ⟨[], .nothing known (.inr rfl), attaches.holds (before.opening_holds (some scope) .block)⟩
  | @loop header output attached asked bound attaches headerChild typed outputChild _ loopNames =>
    have scopes : asked.known.scopes = attached.known.scopes := by
      rcases typed with ⟨_, rfl⟩ | ⟨iterable, ty, _, asks⟩
      · rfl
      · rw [asks.expression_ran.2]
    have opened : asked.Holds before.next [] := by
      cases attaches with
      | done _ =>
        refine ⟨.fresh (some scope) .loop, ?_, .nil _⟩
        rw [scopes]
        exact Forest.scope_create _ _ _
    obtain ⟨header, all, filled⟩ := loopNames.holds tree.LoopVariable
      (fun name here later bindings binds holds => by
        obtain ⟨node, held, after⟩ := binds.holds holds
        exact ⟨(node.text, .any), ⟨node, held, rfl⟩, after⟩) opened
    exact ⟨header, .loop known headerChild outputChild all, filled⟩
  | @function header bound read after headerChild _ parameters declares attaches =>
    obtain ⟨bindings, all, filled⟩ := parameters.holds tree.Parameter
      (fun argument here later bindings binds holds => binds.holds sound holds)
      (before.opening_holds none .function)
    have readHolds : read.Holds before.next bindings := by
      rcases declares with ⟨_, rfl⟩ | ⟨_, types, ty, _, typesChild, asks⟩
      · exact filled
      · obtain ⟨_, grown, scopes⟩ := asks.writes sound (Tree.child?_eq_ok_some typesChild).2
        exact Progress.Holds.grow filled scopes grown
    exact ⟨bindings, .function known headerChild all, attaches.holds readHolds⟩

end Headers

/-! ### The account of a scope -/

/-- A scope belongs to a node. Its table is what one gets from the header of the node and then
from the variables that were introduced in the scope, no variable twice. -/
structure Progress.Accounts (tree : Tree) (progress : Progress) (scope : ScopeId) (owner : NodeId)
    (header assigned : List (String × Ty)) : Prop where
  owned : progress.known.annotations.get? owner = some scope
  heads : tree.Heads owner header
  introduced : Introduced tree scope progress.journal assigned
  once : (assigned.map Prod.fst).Nodup
  holds : progress.Holds scope (header ++ assigned)

/-- Every scope is accounted for. -/
def Progress.Accounted (tree : Tree) (progress : Progress) : Prop :=
  ∀ scope : ScopeId, scope.index < progress.known.scopes.size →
    ∃ owner header assigned, progress.Accounts tree scope owner header assigned

section Accounts
variable {before after : Progress} {touched : ScopeId → Prop} {owner : NodeId}
  {header assigned : List (String × Ty)} {other : ScopeId}

/-- The account of a scope stays as it is while other scopes are touched and nothing is visited. -/
theorem Progress.Accounts.later (accounts : before.Accounts tree scope owner header assigned)
    (quiet : Quiet before after) (framed : Framed touched before.known after.known)
    (untouched : ¬ touched scope) (grown : before.known.names.Grows after.known.names) :
    after.Accounts tree scope owner header assigned where
  owned := framed.annotations owner scope accounts.owned
  heads := accounts.heads
  introduced := accounts.introduced.quiet quiet
  once := accounts.once
  holds := by
    obtain ⟨found, held, lists⟩ := accounts.holds
    exact ⟨found, framed.scopes.untouched untouched held, lists.grow grown⟩

theorem Progress.Accounted.later (accounted : before.Accounted tree) (quiet : Quiet before after)
    (refills : Refills (fun _ => False) before.known after.known)
    (grown : before.known.names.Grows after.known.names) : after.Accounted tree := by
  intro scope inside
  rw [refills.size] at inside
  obtain ⟨owner, header, assigned, accounts⟩ := accounted scope inside
  exact ⟨owner, header, assigned, accounts.later quiet refills.framed not_false grown⟩

theorem Progress.Accounted.visiting (accounted : before.Accounted tree)
    (nothing : ∀ text, ¬ tree.Introduces before.known scope id text) :
    (before.visiting id scope).Accounted tree := by
  intro other inside
  obtain ⟨owner, header, assigned, accounts⟩ := accounted other inside
  refine ⟨owner, header, assigned, { accounts with introduced := ?_ }⟩
  refine accounts.introduced.visiting ?_
  rintro rfl
  exact nothing

/-- A variable that an assignment introduces joins the account of the scope. -/
theorem Progress.Accounts.introduce {path head : NodeId} {target ty : Ty} {typed : Progress}
    (accounts : before.Accounts tree scope owner header assigned) (sound : tree.Sound)
    (kept : Kept tree.resolver names (before.visiting id scope))
    (kind : tree.kind id = .ok .assignment)
    (weighs : tree.resolver.Weighs id scope path target ty (before.visiting id scope) typed)
    (unknown : target.isAbsent = true) (headChild : tree.child? path .name = .ok (some head))
    (binds : typed.Binds tree scope head (if ty.isAbsent then .any else ty) after)
    (grown : before.known.names.Grows typed.known.names) :
    ∃ text, after.Accounts tree scope owner header (assigned ++ [(text, ty)]) := by
  have lawful := kept.chronicle.lawful
  have nested := kept.chronicle.consistent.nested
  rw [← kept.current] at lawful nested
  obtain ⟨gives, settled, same⟩ := weighs.gives sound nested lawful
  rw [if_neg (Bool.eq_false_iff.1 settled.isAbsent)] at binds
  have typedHolds : typed.Holds scope (header ++ assigned) :=
    Progress.Holds.grow accounts.holds (by rw [same]; rfl) grown
  obtain ⟨node, held, afterHolds⟩ := binds.holds typedHolds
  obtain ⟨introduces, name, known, unbound⟩ :=
    weighs.introduces lawful.settled unknown kind headChild held
  -- Were the text in the account already, its name would be found in the table of the scope.
  have fresh : node.text ∉ assigned.map Prod.fst := by
    intro bound
    obtain ⟨found, there, lists⟩ := typedHolds
    obtain ⟨symbol, shown⟩ := lists.find?_exists known (by simp [bound])
    rw [same] at there
    cases shown.symm.trans (Forest.find?_of_lookup_none there unbound)
  refine ⟨node.text, ?_, accounts.heads, ?_, ?_, ?_⟩
  · rw [binds.refills.annotations, same]
    exact accounts.owned
  · have visited : Introduced tree scope (before.visiting id scope).journal
        (assigned ++ [(node.text, ty)]) := .variable accounts.introduced introduces gives
    exact visited.quiet (weighs.quiet.trans binds.quiet)
  · rw [List.map_append, List.nodup_append]
    refine ⟨accounts.once, List.nodup_singleton _, ?_⟩
    rintro held member other last rfl
    cases List.mem_singleton.1 last
    exact fresh member
  · rwa [← List.append_assoc]

end Accounts

/-! ### Courses keep the account -/

section Courses
variable {before after : Progress}

/-- A node that opens a scope accounts for it. -/
theorem Resolver.Enters.accounted_of_opens (sound : tree.Sound)
    (enters : tree.resolver.Enters id scope before kind inner after)
    (known : tree.kind id = .ok kind) (opens : kind.opensScope = true)
    (accounted : before.Accounted tree) (kept : Kept tree.resolver names before)
    (grown : before.known.names.Grows after.known.names) : after.Accounted tree := by
  obtain ⟨_, opened, _, furnishes⟩ := enters.opens opens
  intro other inside
  by_cases new : other = before.next
  · subst new
    obtain ⟨header, heads, holds⟩ := enters.heads sound known opens
    -- Only scopes that are there are visited in, and this one was not there yet.
    have unvisited : ∀ id, ¬ Happened before.journal (.visited id before.next) := fun id visited =>
      Nat.lt_irrefl _ (kept.inside (kept.chronicle.ready_of_visited visited))
    exact ⟨id, header, [], {
      owned := furnishes.get?_self
      heads
      introduced := (introduced_of_unvisited unvisited).quiet enters.quiet
      once := List.nodup_nil
      holds := by rwa [List.append_nil] }⟩
  · have old : other.index < before.known.scopes.size := by
      rw [furnishes.size] at inside
      refine Nat.lt_of_le_of_ne (Nat.le_of_lt_succ inside) fun same => new ?_
      exact congrArg ScopeId.mk same
    obtain ⟨owner, header, assigned, accounts⟩ := accounted other old
    exact ⟨owner, header, assigned, accounts.later enters.quiet furnishes.framed new grown⟩

/-- A node that opens no scope and introduces nothing touches no table. -/
theorem Resolver.Enters.refills_of_ne {resolver : Resolver}
    (enters : resolver.Enters id scope before kind inner after) (shares : kind.opensScope = false)
    (differs : kind ≠ .assignment) : Refills (fun _ => False) before.known after.known := by
  cases enters with
  | straight _ => exact .refl _ _
  | condition _ _ _ asks => exact asks.refills
  | accepted _ _ _ | introduced _ _ _ _ => exact absurd rfl differs
  | story _ | block _ | loop _ _ _ _ _ _ | function _ _ _ _ _ => cases shares

/-- An assignment accounts for the variable that it introduces, if it does. -/
theorem Resolver.Enters.accounted_of_assignment (sound : tree.Sound)
    (enters : tree.resolver.Enters id scope (before.visiting id scope) .assignment inner after)
    (known : tree.kind id = .ok .assignment) (accounted : before.Accounted tree)
    (kept : Kept tree.resolver names (before.visiting id scope))
    (keptAfter : Kept tree.resolver names after) : after.Accounted tree := by
  have lawful := kept.chronicle.lawful
  rw [← kept.current] at lawful
  have grown := keptAfter.grows kept.current enters.quiet.grown
  cases enters with
  | straight straight => cases straight
  | condition branch _ _ _ => cases branch
  | accepted weighs shown _ =>
    have nothing := weighs.introduces_nothing lawful.named shown
    exact (accounted.visiting nothing).later weighs.quiet weighs.refills grown
  | @introduced path head target ty typed after weighs unknown headChild binds =>
    have typedKept := keptAfter.earlier weighs.current binds.quiet.grown
    have typedGrown := typedKept.grows kept.current weighs.quiet.grown
    have refills : Refills (· = scope) before.known after.known :=
      Refills.trans weighs.refills binds.refills
    intro other inside
    rw [refills.size] at inside
    obtain ⟨owner, header, assigned, accounts⟩ := accounted other inside
    by_cases here : other = scope
    · subst here
      obtain ⟨text, more⟩ := accounts.introduce sound kept known weighs unknown headChild binds
        typedGrown
      exact ⟨owner, header, _, more⟩
    · have visiting : (before.visiting id scope).Accounts tree other owner header assigned := {
        accounts with
        introduced := accounts.introduced.visiting fun same => absurd same.symm here }
      exact ⟨owner, header, assigned,
        visiting.later (weighs.quiet.trans binds.quiet) refills.framed here grown⟩

/-- What has to be accounted for before a task: all, but for a node what was there before its
visit. -/
def Task.Due (tree : Tree) (before : Progress) : Task → Prop
  | .node id scope => (∃ past : Progress, before = past.visiting id scope ∧ past.Accounted tree) ∨
      (tree.kind id = .ok .start ∧ before.Accounted tree)
  | .nodes _ _ => before.Accounted tree

/-- Entering a node accounts for what it binds. -/
theorem Resolver.Enters.accounted (sound : tree.Sound)
    (enters : tree.resolver.Enters id scope before kind inner after)
    (known : tree.kind id = .ok kind) (due : (Task.node id scope).Due tree before)
    (kept : Kept tree.resolver names before) (keptAfter : Kept tree.resolver names after) :
    after.Accounted tree := by
  have grown := keptAfter.grows kept.current enters.quiet.grown
  by_cases assigns : kind = .assignment
  · subst assigns
    rcases due with ⟨past, rfl, accounted⟩ | ⟨story, _⟩
    · exact enters.accounted_of_assignment sound known accounted kept keptAfter
    · cases known.symm.trans story
  · have accounted : before.Accounted tree := by
      rcases due with ⟨past, rfl, accounted⟩ | ⟨_, accounted⟩
      · refine accounted.visiting fun text introduces => assigns ?_
        exact Except.ok.inj (known.symm.trans introduces.1.1)
      · exact accounted
    by_cases opens : kind.opensScope = true
    · exact enters.accounted_of_opens sound known opens accounted kept grown
    · have refills := enters.refills_of_ne (Bool.eq_false_iff.2 opens) assigns
      exact accounted.later enters.quiet refills grown

/-- Once a task is carried out, every scope is accounted for. -/
theorem Course.accounted {task : Task} (course : Course tree.resolver task before after)
    (sound : tree.Sound) (current : before.known = latest names before.journal)
    (due : task.Due tree before) (kept : Kept tree.resolver names after) :
    after.Accounted tree := by
  induction course with
  | done => exact due
  | @next id rest scope before between after visit later first others =>
    have keptBetween := kept.earlier (visit.current rfl) later.grown
    exact others keptBetween.current (first rfl (.inl ⟨before, rfl, due⟩) keptBetween) kept
  | @node id scope inner kind ids before entered swept after known enters all course leaves below =>
    -- The states in between stand in the journal of the last one, so they are kept as well.
    have enteredCurrent := enters.current current
    have sweptCurrent := course.current enteredCurrent
    have keptSwept := kept.earlier sweptCurrent leaves.quiet.grown
    have keptEntered := keptSwept.earlier enteredCurrent course.grown
    have keptBefore := keptEntered.earlier current enters.quiet.grown
    have sweptAccounted :=
      below enteredCurrent (enters.accounted sound known due keptBefore keptEntered) keptSwept
    exact sweptAccounted.later leaves.quiet leaves.refills
      (kept.grows sweptCurrent leaves.quiet.grown)

end Courses

/-- In a run by the rules of the language that succeeds, every scope belongs to a node, and its
table is what one gets from the header of that node, parameters with the types written for them
or loop variables, and then from the assignments that were visited in the scope and whose
variable had no fragments and was not shown there: each text stands where it was bound first,
with the type that it was bound to last. No two assignments introduce the same variable. -/
theorem Tree.resolve_binds (tree : Tree) (names : NameTable) (sound : tree.Sound)
    {resolution : Resolution} (succeeds : (tree.resolve names).outcome = .ok resolution)
    {scope : ScopeId} {found : Scope} (held : resolution.scopes.scope scope = .ok found) :
    ∃ owner kind header assigned,
      resolution.annotations.get? owner = some scope ∧
      tree.kind owner = .ok kind ∧ kind.scopeKind? = some found.kind ∧
      tree.Heads owner header ∧
      Introduced tree scope (tree.resolve names).history assigned ∧
      (assigned.map Prod.fst).Nodup ∧
      found.symbols.Lists (tree.resolve names).names (header ++ assigned) := by
  obtain ⟨after, ends⟩ := Resolver.run_ends succeeds
  cases ends.resolution
  have nothing : Progress.Accounted tree ⟨.initial names, []⟩ := by
    intro scope inside
    cases inside
  have accounted :=
    ends.course.accounted sound rfl (.inr ⟨ends.story, nothing⟩) ends.kept
  obtain ⟨owner, header, assigned, accounts⟩ := accounted scope (Forest.lt_size_of_scope held)
  obtain ⟨_, kind, opens, _, housed⟩ := ends.housed_of_attached accounts.owned
  obtain ⟨_, same, there, sameKind, _⟩ := housed.opens opens
  cases held.symm.trans there
  obtain ⟨_, again, lists⟩ := accounts.holds
  cases held.symm.trans again
  refine ⟨owner, kind, header, assigned, accounts.owned, housed.known, sameKind, accounts.heads,
    ?_, accounts.once, ?_⟩
  · rw [show (tree.resolve names).history = after.journal from ends.history]
    exact accounts.introduced
  · rw [show (tree.resolve names).names = after.known.names from ends.namesLeft]
    exact lists

/-- In the tour of the constructs, the loop binds its variable, and the assignment in the loop
one more. -/
theorem Tree.tour_binds : ∃ resolution found,
    (Tree.tour.resolve .empty).outcome = .ok resolution ∧
    resolution.scopes.scope ⟨1⟩ = .ok found ∧
    found.symbols.keys.map (Tree.tour.resolve .empty).names.text? = [some "item", some "last"] ∧
    ∃ owner header assigned, resolution.annotations.get? owner = some ⟨1⟩ ∧
      Tree.tour.Heads owner header ∧
      Introduced Tree.tour ⟨1⟩ (Tree.tour.resolve .empty).history assigned ∧
      found.symbols.Lists (Tree.tour.resolve .empty).names (header ++ assigned) := by
  obtain ⟨resolution, outcome⟩ := Tree.tour_resolves
  have shown : ((Tree.tour.resolve .empty).outcome.toOption.bind fun resolution =>
      (resolution.scopes.scope ⟨1⟩).toOption.map fun found =>
        found.symbols.keys.map (Tree.tour.resolve .empty).names.text?) =
      some [some "item", some "last"] := by decide +kernel
  rw [outcome] at shown
  replace shown : ((resolution.scopes.scope ⟨1⟩).toOption.map fun found =>
      found.symbols.keys.map (Tree.tour.resolve .empty).names.text?) =
      some [some "item", some "last"] := shown
  cases held : resolution.scopes.scope ⟨1⟩ with
  | error fault =>
    rw [held] at shown
    cases shown
  | ok found =>
    rw [held] at shown
    obtain ⟨owner, _, header, assigned, owned, _, _, heads, introduced, _, lists⟩ :=
      Tree.resolve_binds Tree.tour .empty Tree.tour_sound outcome held
    exact ⟨resolution, found, outcome, held, Option.some.inj shown, owner, header, assigned, owned,
      heads, introduced, lists⟩

end ScopeTyping
