import ScopeTyping.Proofs.Pass.Housing
import ScopeTyping.Proofs.Pass.Persistence

/-! What the text says about the bindings of a scope. A scope's header binds parameters or loop
variables (`Tree.Heads`); after that, an assignment to a variable that its scope does not show
introduces the variable (`Tree.Introduces`). A journal tells which assignments did so
(`Introduced`). -/
namespace ScopeTyping

/-- A text is bound in a scope or in one of those around it. -/
def Snapshot.Shows (now : Snapshot) (scope : ScopeId) (text : String) : Prop :=
  ∃ name symbol, now.names.text? name = some text ∧
    now.scopes.lookup scope name = .ok (some symbol)

/-- What a scope shows under a name that is handed out, it shows under the text. -/
theorem Forest.Named.shows_of_lookup {now : Snapshot} {scope : ScopeId} {text : String}
    {bound : Symbol} (named : now.scopes.Named now.names)
    (seen : now.scopes.lookup scope (now.names.intern text).1 = .ok (some bound)) :
    now.Shows scope text := by
  obtain ⟨around, found, held, member⟩ := Forest.entry_of_lookup seen
  obtain ⟨known, nameText⟩ := named around found held _ member
  have again := NameTable.text?_intern_of_text? nameText text
  cases again.symm.trans (NameTable.text?_intern now.names text)
  exact ⟨_, bound, nameText, seen⟩

namespace Tree

/-- A node writes down a type, whatever is known about scopes and names. -/
def Writes (tree : Tree) (id : NodeId) (ty : Ty) : Prop :=
  ∀ view : View, view.tree = tree → ∀ names, ∃ after,
    (Typing.declared view id).outcome names = (.ok ty, after)

/-- A parameter has a name and a type. -/
def Parameter (tree : Tree) (argument : NodeId) (binding : String × Ty) : Prop :=
  ∃ name node types, tree.child? argument .name = .ok (some name) ∧ tree.node name = .ok node ∧
    node.text = binding.1 ∧ tree.child? argument .types = .ok (some types) ∧
    tree.Writes types binding.2

/-- A loop variable has a name, and its type is not tracked. -/
def LoopVariable (tree : Tree) (name : NodeId) (binding : String × Ty) : Prop :=
  ∃ node, tree.node name = .ok node ∧ binding = (node.text, .any)

/-- The header of a node that opens a scope binds texts to types, in order. -/
inductive Heads (tree : Tree) (id : NodeId) : List (String × Ty) → Prop where
  | nothing {kind : Kind} (known : tree.kind id = .ok kind)
      (plain : kind = .start ∨ kind = .nestedBlock) : Heads tree id []
  | loop {header output : NodeId} {bindings : List (String × Ty)}
      (known : tree.kind id = .ok .foreachBlock)
      (headerChild : tree.child? id .foreachStatement = .ok (some header))
      (outputChild : tree.child? header .output = .ok (some output))
      (loopVariables : List.Forall₂ tree.LoopVariable (tree.childrenOfKind output .name).items
        bindings) : Heads tree id bindings
  | function {header : NodeId} {bindings : List (String × Ty)}
      (known : tree.kind id = .ok .functionBlock)
      (headerChild : tree.child? id .functionStatement = .ok (some header))
      (parameters : List.Forall₂ tree.Parameter (tree.childrenOfKind header .typedArgument).items
        bindings) : Heads tree id bindings

/-- A node assigns to a variable without fragments. -/
def AssignsTo (tree : Tree) (id : NodeId) (text : String) : Prop :=
  tree.kind id = .ok .assignment ∧ ∃ path head node, tree.child? id .path = .ok (some path) ∧
    tree.child? path .pathFragment = .ok none ∧ tree.child? path .name = .ok (some head) ∧
    tree.node head = .ok node ∧ node.text = text

/-- A node assigns to a variable that its scope does not show. -/
def Introduces (tree : Tree) (now : Snapshot) (scope : ScopeId) (id : NodeId) (text : String) :
    Prop := tree.AssignsTo id text ∧ ¬ now.Shows scope text

/-- The value of an assignment has a type. -/
def Gives (tree : Tree) (now : Snapshot) (scope : ScopeId) (id : NodeId) (ty : Ty) : Prop :=
  ∃ fragment value after, tree.child? id .assignmentFragment = .ok (some fragment) ∧
    tree.child? fragment .baseExpression = .ok (some value) ∧
    (Typing.expression (now.view tree) scope value).outcome now.names = (.ok ty, after)

end Tree

/-- The variables that were introduced in a scope, in the order of the visits, each with the type
that its value had then. -/
inductive Introduced (tree : Tree) (scope : ScopeId) : List Moment → List (String × Ty) → Prop where
  | begun : Introduced tree scope [] []
  | variable {past : List Moment} {bindings : List (String × Ty)} {id : NodeId} {now : Snapshot}
      {text : String} {ty : Ty} (earlier : Introduced tree scope past bindings)
      (introduces : tree.Introduces now scope id text) (gives : tree.Gives now scope id ty) :
      Introduced tree scope (⟨.visited id scope, now⟩ :: past) (bindings ++ [(text, ty)])
  | other {past : List Moment} {bindings : List (String × Ty)} {moment : Moment}
      (earlier : Introduced tree scope past bindings)
      (nothing : ∀ id text, moment.event = .visited id scope →
        ¬ tree.Introduces moment.known scope id text) :
      Introduced tree scope (moment :: past) bindings

section Journals
variable {tree : Tree} {scope : ScopeId} {bindings : List (String × Ty)} {journal : List Moment}
  {before after : Progress} {id : NodeId}

/-- Where nothing is visited, nothing is introduced. -/
theorem Introduced.quiet (introduced : Introduced tree scope before.journal bindings)
    (quiet : Quiet before after) : Introduced tree scope after.journal bindings := by
  obtain ⟨newer, same, silent⟩ := quiet
  rw [same]
  clear same
  induction newer with
  | nil => exact introduced
  | cons moment rest step =>
    refine .other (step fun other member => silent other (List.mem_cons_of_mem _ member)) ?_
    intro id text visited
    exact absurd visited (silent moment (List.mem_cons_self ..) id scope)

/-- Nothing was introduced in a scope in which nothing was visited. -/
theorem introduced_of_unvisited (unvisited : ∀ id, ¬ Happened journal (.visited id scope)) :
    Introduced tree scope journal [] := by
  induction journal with
  | nil => exact .begun
  | cons moment past step =>
    refine .other (step fun id visited => unvisited id (visited.later (List.suffix_cons _ _))) ?_
    intro id text visited
    exact absurd ⟨moment, List.mem_cons_self .., visited⟩ (unvisited id)

/-- A visit that introduces nothing in a scope changes nothing about the scope. -/
theorem Introduced.visiting {inner : ScopeId}
    (introduced : Introduced tree scope before.journal bindings)
    (nothing : inner = scope → ∀ text, ¬ tree.Introduces before.known scope id text) :
    Introduced tree scope (before.visiting id inner).journal bindings := by
  refine .other introduced fun other text visited => ?_
  cases visited
  exact nothing rfl text

end Journals

/-! ### What the answers to questions say -/

namespace Typing

variable {view : View} {scope : ScopeId} {id head : NodeId} {node : Node} {symbol : Symbol}
  {names after : NameTable}

/-- A path whose variable the scope does not show leads nowhere. -/
theorem absent_of_unseen
    (ran : (path view scope id false).outcome names = (.ok symbol, after))
    (headChild : view.tree.child? id .name = .ok (some head))
    (held : view.tree.node head = .ok node)
    (unseen : ∀ bound, view.scopes.lookup scope (names.intern node.text).1 ≠ .ok (some bound)) :
    symbol.ty = .absent := by
  unfold path pathWith at ran
  obtain ⟨found, required, ran⟩ := Attempt.requiredChild_bind_ok ran
  cases headChild.symm.trans required
  obtain ⟨other, there, ran⟩ := Attempt.guard_bind_ok ran
  cases held.symm.trans there
  obtain ⟨name, one, named, ran⟩ := Fallible.outcome_bind_eq_ok.1 ran
  cases named
  obtain ⟨bound, looked, ran⟩ := Attempt.guard_bind_ok ran
  cases bound with
  | some bound => exact absurd looked (unseen bound)
  | none =>
    dsimp only at ran
    rw [if_neg Bool.false_ne_true] at ran
    obtain ⟨part, _, ran⟩ := Attempt.guard_bind_ok ran
    cases part with
    | none =>
      cases ran
      rfl
    | some part => exact absurd ran (unresolved_fails _ _)

end Typing

section Questions
variable {tree : Tree} {scope : ScopeId} {id : NodeId} {before after : Progress} {ty : Ty}

/-- What is asked about a path is the type of the symbol that it leads to. -/
theorem Progress.Asks.path_ran (asks : before.Asks tree.resolver (.path id scope false) (.type ty) after) :
    ∃ symbol, symbol.ty = ty ∧
      (Typing.path (before.known.view tree) scope id false).outcome before.known.names =
        (.ok symbol, after.known.names) ∧
      after.known = { before.known with names := after.known.names } := by
  cases asks with
  | done given =>
    obtain ⟨symbol, between, ran, answered⟩ := Fallible.outcome_bind_eq_ok.1 given
    cases answered
    exact ⟨symbol, rfl, ran, rfl⟩

theorem Progress.Asks.expression_ran
    (asks : before.Asks tree.resolver (.expression id scope) (.type ty) after) :
    (Typing.expression (before.known.view tree) scope id).outcome before.known.names =
      (.ok ty, after.known.names) ∧
    after.known = { before.known with names := after.known.names } := by
  cases asks with
  | done given =>
    obtain ⟨found, between, ran, answered⟩ := Fallible.outcome_bind_eq_ok.1 given
    cases answered
    exact ⟨ran, rfl⟩

/-- A written type is read alike wherever it is asked about. -/
theorem Progress.Asks.writes (asks : before.Asks tree.resolver (.declared id) (.type ty) after)
    (sound : tree.Sound) (kind : tree.kind id = .ok .types) :
    tree.Writes id ty ∧ before.known.names.Grows after.known.names ∧
      after.known.scopes = before.known.scopes := by
  cases asks with
  | done given =>
    obtain ⟨found, between, ran, answered⟩ := Fallible.outcome_bind_eq_ok.1 given
    cases answered
    refine ⟨?_, (Attempt.ensures_ok (Typing.declared_yields _) ran).1, rfl⟩
    exact Typing.declared_anywhere ran sound kind

end Questions

/-! ### What an assignment that was typed introduces -/

section Assignments
variable {tree : Tree} {names : NameTable} {scope : ScopeId} {id path head : NodeId} {node : Node}
  {before after : Progress} {target ty : Ty}

/-- A variable that led somewhere was shown, or had fragments. -/
theorem Resolver.Weighs.introduces_nothing
    (weighs : tree.resolver.Weighs id scope path target ty before after)
    (named : before.known.scopes.Named before.known.names) (known : target.isAbsent = false)
    (text : String) : ¬ tree.Introduces before.known scope id text := by
  rintro ⟨⟨_, other, head, node, pathChild, _, headChild, held, rfl⟩, unshown⟩
  cases weighs.pathChild.symm.trans pathChild
  obtain ⟨_, _, _, _, _, asks, _⟩ := weighs.typed
  obtain ⟨symbol, rfl, ran, _⟩ := asks.path_ran
  rw [Typing.absent_of_unseen ran headChild held] at known
  · cases known
  · exact fun bound seen => unshown (named.shows_of_lookup seen)

/-- A path that led nowhere belongs to an assignment that introduces its variable, under a name that
the scope does not show. -/
theorem Tree.introduces_of_absent {now : Snapshot} {symbol : Symbol} {later : NameTable}
    (settled : now.scopes.Settled) (kind : tree.kind id = .ok .assignment)
    (pathChild : tree.child? id .path = .ok (some path))
    (ran : (Typing.path (now.view tree) scope path false).outcome now.names = (.ok symbol, later))
    (unknown : symbol.ty.isAbsent = true) :
    now.scopes.lookup scope symbol.name = .ok none ∧ ∃ head node,
      tree.child? path .name = .ok (some head) ∧ tree.node head = .ok node ∧
      later.text? symbol.name = some node.text ∧ tree.Introduces now scope id node.text := by
  obtain ⟨grown, leads⟩ := Attempt.ensures_ok (Typing.path_yields settled false _) ran
  rcases leads with known | ⟨_, _, unbound, bare, head, node, headChild, held, text⟩
  · rw [known.isAbsent] at unknown
    cases unknown
  · refine ⟨unbound, head, node, headChild, held, text,
      ⟨kind, path, head, node, pathChild, bare, headChild, held, rfl⟩, ?_⟩
    rintro ⟨name, bound, nameText, seen⟩
    cases NameTable.name_unique (grown.text? nameText) text
    cases seen.symm.trans unbound

/-- A variable that led nowhere is introduced, under a name that the scope does not show. -/
theorem Resolver.Weighs.introduces
    (weighs : tree.resolver.Weighs id scope path target ty before after)
    (settled : before.known.scopes.Settled) (unknown : target.isAbsent = true)
    (kind : tree.kind id = .ok .assignment)
    (headChild : tree.child? path .name = .ok (some head)) (held : tree.node head = .ok node) :
    tree.Introduces before.known scope id node.text ∧ ∃ name,
      after.known.names.text? name = some node.text ∧
      before.known.scopes.lookup scope name = .ok none := by
  obtain ⟨_, value, between, _, _, asks, typed⟩ := weighs.typed
  obtain ⟨symbol, rfl, ran, same⟩ := asks.path_ran
  obtain ⟨typedRan, _⟩ := typed.expression_ran
  have settledBetween : between.known.scopes.Settled := by
    rw [same]
    exact settled
  have grown := (Attempt.ensures_ok (Typing.expression_yields settledBetween _) typedRan).1
  obtain ⟨unbound, other, found, named, there, text, introduces⟩ :=
    Tree.introduces_of_absent settled kind weighs.pathChild ran unknown
  cases headChild.symm.trans named
  cases held.symm.trans there
  exact ⟨introduces, symbol.name, grown.text? text, unbound⟩

/-- The value that was typed had its type when the assignment was visited already. -/
theorem Resolver.Weighs.gives
    (weighs : tree.resolver.Weighs id scope path target ty before after) (sound : tree.Sound)
    (nested : before.known.scopes.Nested) (lawful : Lawful names before.known) :
    tree.Gives before.known scope id ty ∧ ty.Settled ∧
      after.known = { before.known with names := after.known.names } := by
  obtain ⟨fragment, value, between, fragmentChild, valueChild, asks, typed⟩ := weighs.typed
  obtain ⟨symbol, rfl, ran, same⟩ := asks.path_ran
  obtain ⟨typedRan, sameAfter⟩ := typed.expression_ran
  have grown := (Attempt.ensures_ok (Typing.path_yields lawful.settled false _) ran).1
  rw [show between.known.view tree = before.known.view tree by rw [same]; rfl] at typedRan
  have inside := sound.inside value fragment (Tree.child?_eq_ok_some valueChild).1
  obtain ⟨last, final⟩ := Snapshot.expression_again nested lawful.named sound
    (Typing.inside_of_path ran) inside grown (.refl _) typedRan
  refine ⟨⟨fragment, value, last, fragmentChild, valueChild, final⟩,
    (Attempt.ensures_ok (Typing.expression_yields lawful.settled _) typedRan).2, ?_⟩
  rw [sameAfter, same]

end Assignments
end ScopeTyping
