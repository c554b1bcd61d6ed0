import ScopeTyping.Proofs.Pass.Recording

/-! The course of a visit that succeeds. A visit enters its node, which settles the scope
that the node hands on; it visits the nodes that are handed the scope, one after another; and
it leaves the node again. What holds of every visit that succeeds, from whatever state it
starts, is shown by going through the ways to enter a node and to leave it. -/
namespace ScopeTyping

/-! ### Single steps -/

namespace Progress

/-- A run after one more step. -/
def noted (before : Progress) (event : Event) (known : Snapshot) : Progress :=
  ⟨known, ⟨event, known⟩ :: before.journal⟩

/-- The number of the scope that is opened next. -/
def next (before : Progress) : ScopeId := ⟨before.known.scopes.size⟩

/-- A run that is about to visit a node. -/
def visiting (before : Progress) (id : NodeId) (scope : ScopeId) : Progress :=
  before.noted (.visited id scope) before.known

/-- A run that has opened a scope. -/
def opening (before : Progress) (parent : Option ScopeId) (kind : ScopeKind) : Progress :=
  before.noted (.opened before.next)
    { before.known with scopes := (before.known.scopes.create parent kind).2 }

/-- A run that has bound the header of a scope. -/
def readying (before : Progress) (scope : ScopeId) : Progress :=
  before.noted (.ready scope) before.known

/-- A scope is attached to a node. -/
inductive Attaches (before : Progress) (id : NodeId) (scope : ScopeId) : Progress → Prop where
  | done {annotations : Annotations}
      (attached : before.known.annotations.attach? id scope = some annotations) :
      Attaches before id scope (before.noted (.attached id scope) { before.known with annotations })

/-- The text of a node is bound in a scope. -/
inductive Binds (tree : Tree) (before : Progress) (scope : ScopeId) (id : NodeId) (ty : Ty) :
    Progress → Prop where
  | done {node : Node} {replaced : Option Symbol} {scopes : Forest}
      (held : tree.node id = .ok node)
      (inserted : before.known.scopes.insert scope
        ⟨(before.known.names.intern node.text).1, ty⟩ = .ok (replaced, scopes)) :
      Binds tree before scope id ty
        (before.noted (.bound scope ⟨(before.known.names.intern node.text).1, ty⟩)
          { before.known with names := (before.known.names.intern node.text).2, scopes })

/-- A question is answered. -/
inductive Asks (resolver : Resolver) (before : Progress) (call : Call) (answer : Answer) :
    Progress → Prop where
  | done {names : NameTable}
      (given : (resolver.answer (before.known.view resolver.tree) call).outcome
        before.known.names = (.ok answer, names)) :
      Asks resolver before call answer
        (before.noted (.asked call answer) { before.known with names })

end Progress

/-- Items are gone through one after another, each by a step. -/
inductive Along {α : Type} (step : α → Progress → Progress → Prop) :
    List α → Progress → Progress → Prop where
  | done {here : Progress} : Along step [] here here
  | next {item : α} {rest : List α} {before between after : Progress}
      (first : step item before between) (others : Along step rest between after) :
      Along step (item :: rest) before after

/-! ### Entering and leaving a node -/

/-- Kinds that are entered without a step. -/
def Kind.straight : Kind → Bool
  | .start | .nestedBlock | .assignment | .foreachBlock | .ifBlock | .elseifBlock
  | .functionBlock => false
  | _ => true

/-- Kinds without a rule of their own: a visit of such a node is a visit of its children. -/
def Kind.isPlain : Kind → Bool
  | .start | .nestedBlock | .assignment | .foreachBlock | .whileBlock | .whenBlock | .elseBlock
  | .ifBlock | .elseifBlock | .tryBlock | .functionBlock => false
  | _ => true

/-- The kind of the header in which a kind of branch holds its condition. -/
def Kind.conditionHeader? : Kind → Option Kind
  | .ifBlock => some .ifStatement
  | .elseifBlock => some .elseifStatement
  | _ => none

theorem Kind.straight_of_opensScope {kind : Kind} (opens : kind.opensScope = true) :
    kind.straight = false := by
  cases kind <;> simp_all [straight, opensScope]

theorem Kind.conditionHeader?_of_opensScope {kind : Kind} (opens : kind.opensScope = true) :
    kind.conditionHeader? = none := by
  cases kind <;> simp_all [conditionHeader?, opensScope]

theorem Kind.conditionHeader?_of_straight {kind : Kind} (straight : kind.straight = true) :
    kind.conditionHeader? = none := by
  cases kind <;> simp_all [conditionHeader?, Kind.straight]

namespace Resolver

/-- A parameter of a function is bound to the type written for it. -/
inductive BindsParameter (resolver : Resolver) (scope : ScopeId) (argument : NodeId)
    (before after : Progress) : Prop where
  | done {name types : NodeId} {ty : Ty} {between : Progress}
      (nameChild : resolver.tree.child? argument .name = .ok (some name))
      (typesChild : resolver.tree.child? argument .types = .ok (some types))
      (asks : before.Asks resolver (.declared types) (.type ty) between)
      (binds : between.Binds resolver.tree scope name ty after)

/-- The two sides of an assignment are typed. -/
structure Weighs (resolver : Resolver) (id : NodeId) (scope : ScopeId) (path : NodeId)
    (target ty : Ty) (before after : Progress) : Prop where
  pathChild : resolver.tree.child? id .path = .ok (some path)
  typed : ∃ fragment value between,
    resolver.tree.child? id .assignmentFragment = .ok (some fragment) ∧
    resolver.tree.child? fragment .baseExpression = .ok (some value) ∧
    before.Asks resolver (.path path scope false) (.type target) between ∧
    between.Asks resolver (.expression value scope) (.type ty) after

/-- A node of a kind is entered in `scope`, and `inner` is the scope that it hands on. -/
inductive Enters (resolver : Resolver) (id : NodeId) (scope : ScopeId) (before : Progress) :
    Kind → ScopeId → Progress → Prop where
  | straight {kind : Kind} (straight : kind.straight = true) :
      Enters resolver id scope before kind scope before
  | condition {kind headerKind : Kind} {header condition : NodeId} {ty : Ty} {after : Progress}
      (branch : kind.conditionHeader? = some headerKind)
      (headerChild : resolver.tree.child? id headerKind = .ok (some header))
      (conditionChild : resolver.tree.child? header .baseExpression = .ok (some condition))
      (asks : before.Asks resolver (.expression condition scope) (.type ty) after) :
      Enters resolver id scope before kind scope after
  | story {after : Progress}
      (attaches : ((before.opening none .root).readying before.next).Attaches id before.next after) :
      Enters resolver id scope before .start before.next after
  | block {after : Progress}
      (attaches : ((before.opening (some scope) .block).readying before.next).Attaches id before.next
        after) :
      Enters resolver id scope before .nestedBlock before.next after
  | accepted {path : NodeId} {target ty : Ty} {after : Progress}
      (weighs : resolver.Weighs id scope path target ty before after)
      (known : target.isAbsent = false) (fits : target.accepts ty = true) :
      Enters resolver id scope before .assignment scope after
  | introduced {path head : NodeId} {target ty : Ty} {typed after : Progress}
      (weighs : resolver.Weighs id scope path target ty before typed)
      (unknown : target.isAbsent = true)
      (headChild : resolver.tree.child? path .name = .ok (some head))
      (binds : typed.Binds resolver.tree scope head (if ty.isAbsent then .any else ty) after) :
      Enters resolver id scope before .assignment scope after
  | loop {header output : NodeId} {attached asked bound : Progress}
      (attaches : (before.opening (some scope) .loop).Attaches id before.next attached)
      (headerChild : resolver.tree.child? id .foreachStatement = .ok (some header))
      (typed : (resolver.tree.child? header .baseExpression = .ok none ∧ asked = attached) ∨
        ∃ iterable ty, resolver.tree.child? header .baseExpression = .ok (some iterable) ∧
          attached.Asks resolver (.expression iterable scope) (.type ty) asked)
      (outputChild : resolver.tree.child? header .output = .ok (some output))
      (whole : (resolver.tree.childrenOfKind output .name).fault = none)
      (loopNames : Along (fun name here later =>
          Progress.Binds resolver.tree here before.next name .any later)
        (resolver.tree.childrenOfKind output .name).items asked bound) :
      Enters resolver id scope before .foreachBlock before.next (bound.readying before.next)
  | function {header : NodeId} {bound read after : Progress}
      (headerChild : resolver.tree.child? id .functionStatement = .ok (some header))
      (whole : (resolver.tree.childrenOfKind header .typedArgument).fault = none)
      (parameters : Along (resolver.BindsParameter before.next)
        (resolver.tree.childrenOfKind header .typedArgument).items (before.opening none .function)
        bound)
      (declares : (resolver.tree.child? header .functionOutput = .ok none ∧
          read = bound.readying before.next) ∨
        ∃ output types ty, resolver.tree.child? header .functionOutput = .ok (some output) ∧
          resolver.tree.child? output .types = .ok (some types) ∧
          (bound.readying before.next).Asks resolver (.declared types) (.type ty) read)
      (attaches : read.Attaches id before.next after) :
      Enters resolver id scope before .functionBlock before.next after

/-- A node of a kind that handed on `inner` is left. -/
inductive Leaves (resolver : Resolver) (id : NodeId) (inner : ScopeId) (before : Progress) :
    Kind → Progress → Prop where
  | silent {kind : Kind} (noFunction : kind ≠ .functionBlock) :
      Leaves resolver id inner before kind before
  | checked {body : NodeId} {ty : Ty} {after : Progress}
      (bodyChild : resolver.tree.child? id .nestedBlock = .ok (some body))
      (asks : before.Asks resolver (.returns body inner ty) .accepted after) :
      Leaves resolver id inner before .functionBlock after

end Resolver

/-- The nodes that a node hands its scope on to, in the order in which they are visited. -/
inductive Tree.HandsAll (tree : Tree) (id : NodeId) : List NodeId → Prop where
  | children {node : Node} (held : tree.node id = .ok node) (plain : node.kind.hasBody = false) :
      HandsAll tree id node.children
  | body {node inner : Node} {body : NodeId} (held : tree.node id = .ok node)
      (bodied : node.kind.hasBody = true) (found : tree.child? id .nestedBlock = .ok (some body))
      (bodyHeld : tree.node body = .ok inner) :
      HandsAll tree id
        (inner.children ++ if node.kind.hasBranches then node.branches body else [])

/-- The list holds the nodes that are handed the scope, and no others. -/
theorem Tree.HandsAll.mem_iff {tree : Tree} {id child : NodeId} {ids : List NodeId}
    (all : tree.HandsAll id ids) : child ∈ ids ↔ tree.Hands id child := by
  cases all with
  | @children node held plain =>
    refine ⟨fun member => .child held plain member, fun hands => ?_⟩
    cases hands with
    | child there _ member =>
      cases held.symm.trans there
      exact member
    | statement there bodied _ _ _ =>
      cases held.symm.trans there
      cases plain.symm.trans bodied
    | branch there branched _ _ =>
      cases held.symm.trans there
      cases plain.symm.trans (Kind.hasBody_of_hasBranches branched)
  | @body node inner body held bodied found bodyHeld =>
    rw [List.mem_append]
    constructor
    · rintro (statement | branch)
      · exact .statement held bodied found bodyHeld statement
      · by_cases branched : node.kind.hasBranches = true
        · rw [if_pos branched] at branch
          exact .branch held branched found branch
        · rw [if_neg branched] at branch
          cases branch
    · intro hands
      cases hands with
      | child there plain _ =>
        cases held.symm.trans there
        cases plain.symm.trans bodied
      | statement _ _ otherFound otherHeld member =>
        cases found.symm.trans otherFound
        cases bodyHeld.symm.trans otherHeld
        exact .inl member
      | branch there branched otherFound member =>
        cases held.symm.trans there
        cases found.symm.trans otherFound
        rw [if_pos branched]
        exact .inr member

/-! ### The course -/

/-- What a part of the pass has to do: handle a node that it is visiting, or visit nodes. -/
inductive Task where
  | node (id : NodeId) (scope : ScopeId)
  | nodes (ids : List NodeId) (scope : ScopeId)

/-- A task is carried out from one state of a run to another. -/
inductive Course (resolver : Resolver) : Task → Progress → Progress → Prop where
  | node {id : NodeId} {scope inner : ScopeId} {kind : Kind} {ids : List NodeId}
      {before entered swept after : Progress}
      (known : resolver.tree.kind id = .ok kind)
      (enters : resolver.Enters id scope before kind inner entered)
      (all : resolver.tree.HandsAll id ids)
      (below : Course resolver (.nodes ids inner) entered swept)
      (leaves : resolver.Leaves id inner swept kind after) :
      Course resolver (.node id scope) before after
  | done {scope : ScopeId} {here : Progress} : Course resolver (.nodes [] scope) here here
  | next {id : NodeId} {rest : List NodeId} {scope : ScopeId} {before between after : Progress}
      (first : Course resolver (.node id scope) (before.visiting id scope) between)
      (others : Course resolver (.nodes rest scope) between after) :
      Course resolver (.nodes (id :: rest) scope) before after

section Reading
variable {resolver : Resolver} {before between after : Progress} {id : NodeId} {scope : ScopeId}
  {α β : Type}

theorem Course.append {ids more : List NodeId}
    (first : Course resolver (.nodes ids scope) before between)
    (second : Course resolver (.nodes more scope) between after) :
    Course resolver (.nodes (ids ++ more) scope) before after := by
  induction ids generalizing before with
  | nil =>
    cases first
    exact second
  | cons id rest step =>
    cases first with
    | next visit others => exact .next visit (step others)

/-! ### Reading the course off a success -/

/-- Going through items succeeds by going through them one after another. -/
theorem along_of_forM {step : α → Progress → Progress → Prop} {each : α → Pass Unit}
    (reads : ∀ item here later, (each item).outcome here = (.ok (), later) → step item here later)
    {items : List α} (ran : (items.forM each).outcome before = (.ok (), after)) :
    Along step items before after := by
  induction items generalizing before with
  | nil =>
    cases ran
    exact .done
  | cons item rest further =>
    obtain ⟨_, between, first, others⟩ := Fallible.outcome_bind_eq_ok.1
      (show (each item >>= fun _ => rest.forM each).outcome before = _ from ran)
    exact .next (reads item before between first) (further others)

theorem along_of_forEach {step : α → Progress → Progress → Prop} {each : α → Pass Unit}
    (reads : ∀ item here later, (each item).outcome here = (.ok (), later) → step item here later)
    {walk : Walk α} (ran : (walk.forEach each).outcome before = (.ok (), after)) :
    walk.fault = none ∧ Along step walk.items before after := by
  obtain ⟨_, between, items, rest⟩ := Fallible.outcome_bind_eq_ok.1
    (show (walk.items.forM each >>= fun _ => _).outcome before = _ from ran)
  cases ended : walk.fault with
  | some fault =>
    rw [ended] at rest
    cases rest
  | none =>
    rw [ended] at rest
    cases rest
    exact ⟨rfl, along_of_forM reads items⟩

namespace Pass

theorem record_ok {event : Event} (ran : (record event).outcome before = (.ok (), after)) :
    after = before.noted event before.known := by
  cases ran
  rfl

theorem openScope_ok {parent : Option ScopeId} {kind : ScopeKind} {opened : ScopeId}
    (ran : (openScope parent kind).outcome before = (.ok opened, after)) :
    opened = before.next ∧ after = before.opening parent kind := by
  cases ran
  exact ⟨rfl, rfl⟩

theorem attach_ok {tree : Tree} (ran : (attach tree id scope).outcome before = (.ok (), after)) :
    before.Attaches id scope after := by
  unfold attach at ran
  obtain ⟨now, between, asked, rest⟩ := Fallible.outcome_bind_eq_ok.1 ran
  cases asked
  cases attached : before.known.annotations.attach? id scope with
  | some annotations =>
    rw [attached] at rest
    cases rest
    exact .done attached
  | none =>
    rw [attached] at rest
    obtain ⟨_, _, reported⟩ := Attempt.guard_bind_ok rest
    exact absurd reported Attempt.report_fails

theorem bind_ok {tree : Tree} {ty : Ty}
    (ran : (bind tree scope id ty).outcome before = (.ok (), after)) :
    before.Binds tree scope id ty after := by
  obtain ⟨node, held, _⟩ := Attempt.guard_bind_ok ran
  rw [outcome_bindName held] at ran
  cases inserted : before.known.scopes.insert scope
      ⟨(before.known.names.intern node.text).1, ty⟩ with
  | ok answer =>
    rw [inserted] at ran
    cases ran
    exact .done held inserted
  | error fault =>
    rw [inserted] at ran
    cases ran

theorem ask_ok {call : Call} {answer : α → Answer} {question : View → Typing α} {value : α}
    (asks : ∀ view, resolver.answer view call = question view >>= fun value => pure (answer value))
    (ran : (ask resolver.tree call answer question).outcome before = (.ok value, after)) :
    before.Asks resolver call (answer value) after := by
  rw [outcome_ask] at ran
  rcases given : (question (before.known.view resolver.tree)).outcome before.known.names with
    ⟨outcome, names⟩
  rw [given] at ran
  cases outcome with
  | ok value =>
    cases ran
    refine .done ?_
    rw [asks, Fallible.outcome_bind, given]
    rfl
  | error failure =>
    cases failure with
    | error error => cases ran
    | fault fault => cases ran

end Pass

namespace Resolver

variable {visit : Visit}

theorem path_ok {mustExist : Bool} {symbol : Symbol}
    (ran : (resolver.path id scope mustExist).outcome before = (.ok symbol, after)) :
    before.Asks resolver (.path id scope mustExist) (.type symbol.ty) after := by
  have asks := Pass.ask_ok (fun _ => rfl) ran
  exact asks

theorem expression_ok {ty : Ty}
    (ran : (resolver.expression id scope).outcome before = (.ok ty, after)) :
    before.Asks resolver (.expression id scope) (.type ty) after :=
  Pass.ask_ok (fun _ => rfl) ran

theorem declared_ok {ty : Ty} (ran : (resolver.declared id).outcome before = (.ok ty, after)) :
    before.Asks resolver (.declared id) (.type ty) after :=
  Pass.ask_ok (fun _ => rfl) ran

theorem handle_plain {node : Node} (held : resolver.tree.node id = .ok node)
    (plain : node.kind.isPlain = true) :
    resolver.handle visit id scope = resolver.visitChildren visit id scope := by
  unfold Resolver.handle
  simp only [Resolver.node, held, Attempt.guard, pure_bind]
  cases kind : node.kind <;> first | rfl | (rw [kind] at plain; cases plain)

/-- Visiting succeeds by taking a course. -/
def TakesCourse (resolver : Resolver) (visit : Visit) : Prop :=
  ∀ id scope before after, (visit id scope).outcome before = (.ok (), after) →
    Course resolver (.node id scope) (before.visiting id scope) after

theorem TakesCourse.all (takes : resolver.TakesCourse visit) {items : List NodeId}
    (ran : (items.forM fun child => visit child scope).outcome before = (.ok (), after)) :
    Course resolver (.nodes items scope) before after := by
  have along := along_of_forM (fun child here later => takes child scope here later) ran
  clear ran
  induction along with
  | done => exact .done
  | next first _ others => exact .next first others

theorem TakesCourse.children (takes : resolver.TakesCourse visit) {node : Node}
    (held : resolver.tree.node id = .ok node)
    (ran : (resolver.visitChildren visit id scope).outcome before = (.ok (), after)) :
    Course resolver (.nodes node.children scope) before after := by
  obtain ⟨found, there, visited⟩ := Attempt.guard_bind_ok ran
  cases held.symm.trans there
  exact takes.all visited

theorem TakesCourse.body (takes : resolver.TakesCourse visit) {body : NodeId}
    (ran : (resolver.visitBody visit id scope).outcome before = (.ok body, after)) :
    resolver.tree.child? id .nestedBlock = .ok (some body) ∧ ∃ inner,
      resolver.tree.node body = .ok inner ∧
        Course resolver (.nodes inner.children scope) before after := by
  obtain ⟨found, there, rest⟩ := Attempt.requiredChild_bind_ok ran
  obtain ⟨_, last, visited, ended⟩ := Fallible.outcome_bind_eq_ok.1 rest
  cases ended
  obtain ⟨inner, held, _⟩ := Attempt.guard_bind_ok visited
  exact ⟨there, inner, held, takes.children held visited⟩

/-- A construct with nothing behind its body takes the course through the body. -/
theorem TakesCourse.discardBody (takes : resolver.TakesCourse visit) {node : Node}
    (held : resolver.tree.node id = .ok node) (bodied : node.kind.hasBody = true)
    (alone : node.kind.hasBranches = false)
    (ran : (discard (resolver.visitBody visit id scope)).outcome before = (.ok (), after)) :
    ∃ ids, resolver.tree.HandsAll id ids ∧ Course resolver (.nodes ids scope) before after := by
  obtain ⟨body, visited⟩ := Attempt.discard_ok ran
  obtain ⟨found, inner, bodyHeld, course⟩ := takes.body visited
  refine ⟨_, .body held bodied found bodyHeld, ?_⟩
  rw [if_neg (Bool.eq_false_iff.1 alone), List.append_nil]
  exact course

/-- A construct with branches takes the course through its body and then through them. -/
theorem TakesCourse.branching (takes : resolver.TakesCourse visit) {node : Node}
    (held : resolver.tree.node id = .ok node) (branched : node.kind.hasBranches = true)
    (ran : (resolver.branching visit id scope).outcome before = (.ok (), after)) :
    ∃ ids, resolver.tree.HandsAll id ids ∧ Course resolver (.nodes ids scope) before after := by
  obtain ⟨body, between, first, rest⟩ := Fallible.outcome_bind_eq_ok.1 ran
  obtain ⟨found, inner, bodyHeld, statements⟩ := takes.body first
  obtain ⟨other, there, branches⟩ := Attempt.guard_bind_ok rest
  cases held.symm.trans there
  refine ⟨_, .body held (Kind.hasBody_of_hasBranches branched) found bodyHeld, ?_⟩
  rw [if_pos branched]
  exact statements.append (takes.all branches)

theorem condition_ok {header : Kind}
    (ran : (resolver.condition header id scope).outcome before = (.ok (), after)) :
    ∃ statement condition ty, resolver.tree.child? id header = .ok (some statement) ∧
      resolver.tree.child? statement .baseExpression = .ok (some condition) ∧
      before.Asks resolver (.expression condition scope) (.type ty) after := by
  obtain ⟨statement, headerChild, rest⟩ := Attempt.requiredChild_bind_ok ran
  obtain ⟨condition, conditionChild, typed⟩ := Attempt.requiredChild_bind_ok rest
  obtain ⟨ty, asked⟩ := Attempt.discard_ok typed
  exact ⟨statement, condition, ty, headerChild, conditionChild, expression_ok asked⟩

/-- A node that opens a scope for its children opens it, attaches it and visits them. -/
theorem TakesCourse.enclose (takes : resolver.TakesCourse visit) {node : Node}
    (held : resolver.tree.node id = .ok node) {parent : Option ScopeId} {kind : ScopeKind}
    (ran : (resolver.enclose visit id parent kind).outcome before = (.ok (), after)) :
    ∃ entered, ((before.opening parent kind).readying before.next).Attaches id before.next entered ∧
      Course resolver (.nodes node.children before.next) entered after := by
  obtain ⟨inner, _, opened, rest⟩ := Fallible.outcome_bind_eq_ok.1 ran
  obtain ⟨rfl, rfl⟩ := Pass.openScope_ok opened
  obtain ⟨_, _, recorded, rest⟩ := Fallible.outcome_bind_eq_ok.1 rest
  cases Pass.record_ok recorded
  obtain ⟨_, entered, attached, visited⟩ := Fallible.outcome_bind_eq_ok.1 rest
  exact ⟨entered, Pass.attach_ok attached, takes.children held visited⟩

theorem sides_ok {path : NodeId} {target : Symbol} {ty : Ty}
    (ran : (resolver.sides id scope).outcome before = (.ok (path, target, ty), after)) :
    resolver.Weighs id scope path target.ty ty before after := by
  unfold Resolver.sides at ran
  obtain ⟨path, pathChild, ran⟩ := Attempt.requiredChild_bind_ok ran
  obtain ⟨target, asked, led, ran⟩ := Fallible.outcome_bind_eq_ok.1 ran
  obtain ⟨fragment, fragmentChild, ran⟩ := Attempt.requiredChild_bind_ok ran
  obtain ⟨value, valueChild, ran⟩ := Attempt.requiredChild_bind_ok ran
  obtain ⟨ty, typed, found, ran⟩ := Fallible.outcome_bind_eq_ok.1 ran
  cases ran
  exact ⟨pathChild, fragment, value, asked, fragmentChild, valueChild, path_ok led,
    expression_ok found⟩

theorem TakesCourse.assignment (takes : resolver.TakesCourse visit) {node : Node}
    (held : resolver.tree.node id = .ok node)
    (ran : (resolver.assignment visit id scope).outcome before = (.ok (), after)) :
    ∃ entered, resolver.Enters id scope before .assignment scope entered ∧
      Course resolver (.nodes node.children scope) entered after := by
  unfold Resolver.assignment at ran
  obtain ⟨⟨path, target, ty⟩, typed, sides, ran⟩ := Fallible.outcome_bind_eq_ok.1 ran
  have weighs := sides_ok sides
  dsimp only at ran
  by_cases unknown : target.ty.isAbsent = true
  · rw [if_pos unknown] at ran
    obtain ⟨head, headChild, ran⟩ := Attempt.requiredChild_bind_ok ran
    obtain ⟨_, entered, bound, visited⟩ := Fallible.outcome_bind_eq_ok.1 ran
    exact ⟨entered, .introduced weighs unknown headChild (Pass.bind_ok bound),
      takes.children held visited⟩
  · rw [if_neg unknown] at ran
    by_cases fits : target.ty.accepts ty = true
    · rw [if_pos fits] at ran
      exact ⟨typed, .accepted weighs (Bool.eq_false_iff.2 unknown) fits,
        takes.children held ran⟩
    · rw [if_neg fits] at ran
      obtain ⟨_, _, reported, _⟩ := Fallible.outcome_bind_eq_ok.1 ran
      exact absurd reported Attempt.report_fails

/-- A loop is entered by binding its variables, and takes the course through its body. -/
theorem TakesCourse.foreachBlock (takes : resolver.TakesCourse visit) {node : Node}
    (held : resolver.tree.node id = .ok node) (kind : node.kind = .foreachBlock)
    (ran : (resolver.foreachBlock visit id scope).outcome before = (.ok (), after)) :
    ∃ entered ids, resolver.Enters id scope before .foreachBlock before.next entered ∧
      resolver.tree.HandsAll id ids ∧ Course resolver (.nodes ids before.next) entered after := by
  unfold Resolver.foreachBlock at ran
  obtain ⟨inner, opened, openedScope, ran⟩ := Fallible.outcome_bind_eq_ok.1 ran
  obtain ⟨rfl, rfl⟩ := Pass.openScope_ok openedScope
  obtain ⟨_, attached, attaches, ran⟩ := Fallible.outcome_bind_eq_ok.1 ran
  obtain ⟨header, headerChild, ran⟩ := Attempt.requiredChild_bind_ok ran
  obtain ⟨iterable?, iterableChild, ran⟩ := Attempt.guard_bind_ok ran
  -- Whether or not there is something to loop over, the variables and the body come next.
  have rest : ∀ asked, ((resolver.tree.child? header .baseExpression = .ok none ∧ asked = attached) ∨
      ∃ iterable ty, resolver.tree.child? header .baseExpression = .ok (some iterable) ∧
        attached.Asks resolver (.expression iterable scope) (.type ty) asked) →
      (resolver.loopBody visit id header before.next).outcome asked = (.ok (), after) →
      ∃ entered ids, resolver.Enters id scope before .foreachBlock before.next entered ∧
        resolver.tree.HandsAll id ids ∧ Course resolver (.nodes ids before.next) entered after := by
    intro asked typed ran
    obtain ⟨output, outputChild, ran⟩ := Attempt.requiredChild_bind_ok ran
    obtain ⟨_, bound, binds, ran⟩ := Fallible.outcome_bind_eq_ok.1 ran
    obtain ⟨whole, loopNames⟩ := along_of_forEach (fun _ _ _ => Pass.bind_ok) binds
    obtain ⟨_, entered, recorded, visited⟩ := Fallible.outcome_bind_eq_ok.1 ran
    cases Pass.record_ok recorded
    obtain ⟨ids, all, course⟩ := takes.discardBody held (by rw [kind]; rfl) (by rw [kind]; rfl) visited
    exact ⟨_, ids, .loop (Pass.attach_ok attaches) headerChild typed outputChild whole loopNames,
      all, course⟩
  cases iterable? with
  | none => exact rest attached (.inl ⟨iterableChild, rfl⟩) ran
  | some iterable =>
    obtain ⟨_, asked, discarded, ran⟩ := Fallible.outcome_bind_eq_ok.1 ran
    obtain ⟨ty, found⟩ := Attempt.discard_ok discarded
    exact rest asked (.inr ⟨iterable, ty, iterableChild, expression_ok found⟩) ran

theorem parameter_ok {argument : NodeId}
    (ran : (resolver.parameter scope argument).outcome before = (.ok (), after)) :
    resolver.BindsParameter scope argument before after := by
  obtain ⟨name, nameChild, ran⟩ := Attempt.requiredChild_bind_ok ran
  obtain ⟨types, typesChild, ran⟩ := Attempt.requiredChild_bind_ok ran
  obtain ⟨ty, between, read, bound⟩ := Fallible.outcome_bind_eq_ok.1 ran
  exact .done nameChild typesChild (declared_ok read) (Pass.bind_ok bound)

theorem returnType_ok {header : NodeId} {ty : Ty}
    (ran : (resolver.returnType header).outcome before = (.ok ty, after)) :
    (resolver.tree.child? header .functionOutput = .ok none ∧ after = before) ∨
      ∃ output types ty, resolver.tree.child? header .functionOutput = .ok (some output) ∧
        resolver.tree.child? output .types = .ok (some types) ∧
        before.Asks resolver (.declared types) (.type ty) after := by
  obtain ⟨output?, outputChild, ran⟩ := Attempt.guard_bind_ok ran
  cases output? with
  | none =>
    cases ran
    exact .inl ⟨outputChild, rfl⟩
  | some output =>
    obtain ⟨types, typesChild, ran⟩ := Attempt.requiredChild_bind_ok ran
    exact .inr ⟨output, types, ty, outputChild, typesChild, declared_ok ran⟩

theorem TakesCourse.functionBlock (takes : resolver.TakesCourse visit) {node : Node}
    (held : resolver.tree.node id = .ok node) (kind : node.kind = .functionBlock)
    (ran : (resolver.functionBlock visit id).outcome before = (.ok (), after)) :
    ∃ entered swept ids, resolver.Enters id scope before .functionBlock before.next entered ∧
      resolver.tree.HandsAll id ids ∧ Course resolver (.nodes ids before.next) entered swept ∧
      resolver.Leaves id before.next swept .functionBlock after := by
  unfold Resolver.functionBlock at ran
  obtain ⟨header, headerChild, ran⟩ := Attempt.requiredChild_bind_ok ran
  obtain ⟨⟨inner, ty⟩, read, signed, ran⟩ := Fallible.outcome_bind_eq_ok.1 ran
  unfold Resolver.signature at signed
  obtain ⟨opened, _, openedScope, signed⟩ := Fallible.outcome_bind_eq_ok.1 signed
  obtain ⟨rfl, rfl⟩ := Pass.openScope_ok openedScope
  obtain ⟨_, bound, binds, signed⟩ := Fallible.outcome_bind_eq_ok.1 signed
  obtain ⟨whole, parameters⟩ := along_of_forEach (fun _ _ _ => parameter_ok) binds
  obtain ⟨_, _, recorded, signed⟩ := Fallible.outcome_bind_eq_ok.1 signed
  cases Pass.record_ok recorded
  obtain ⟨_, _, returns, signed⟩ := Fallible.outcome_bind_eq_ok.1 signed
  cases signed
  obtain ⟨_, entered, attaches, ran⟩ := Fallible.outcome_bind_eq_ok.1 ran
  obtain ⟨body, swept, visited, checked⟩ := Fallible.outcome_bind_eq_ok.1 ran
  obtain ⟨bodyChild, statements, bodyHeld, course⟩ := takes.body visited
  have all := Tree.HandsAll.body held (by rw [kind]; rfl) bodyChild bodyHeld
  rw [kind, if_neg (by decide), List.append_nil] at all
  exact ⟨entered, swept, _,
    .function headerChild whole parameters (returnType_ok returns) (Pass.attach_ok attaches), all,
    course, .checked bodyChild (Pass.ask_ok (fun _ => rfl) checked)⟩

/-- The handler of a node's kind takes the course of the node. -/
theorem TakesCourse.visitWith (takes : resolver.TakesCourse visit) :
    resolver.TakesCourse (resolver.visitWith visit) := by
  intro id scope before after ran
  obtain ⟨_, _, recorded, ran⟩ := Fallible.outcome_bind_eq_ok.1 ran
  cases Pass.record_ok recorded
  obtain ⟨node, held, ran⟩ := Attempt.guard_bind_ok ran
  have known := Tree.kind_of_node held
  cases kind : node.kind with
  | start =>
    rw [kind] at ran known
    obtain ⟨entered, attaches, course⟩ := takes.enclose held ran
    exact .node known (.story attaches) (.children held (by rw [kind]; rfl)) course
      (.silent (by decide))
  | nestedBlock =>
    rw [kind] at ran known
    obtain ⟨entered, attaches, course⟩ := takes.enclose held ran
    exact .node known (.block attaches) (.children held (by rw [kind]; rfl)) course
      (.silent (by decide))
  | assignment =>
    rw [kind] at ran known
    obtain ⟨entered, enters, course⟩ := takes.assignment held ran
    exact .node known enters (.children held (by rw [kind]; rfl)) course (.silent (by decide))
  | foreachBlock =>
    rw [kind] at ran known
    obtain ⟨entered, ids, enters, all, course⟩ := takes.foreachBlock held kind ran
    exact .node known enters all course (.silent (by decide))
  | whileBlock | whenBlock | elseBlock =>
    rw [kind] at ran known
    obtain ⟨ids, all, course⟩ := takes.discardBody held (by rw [kind]; rfl) (by rw [kind]; rfl) ran
    exact .node known (.straight rfl) all course (.silent (by decide))
  | ifBlock =>
    rw [kind] at ran known
    obtain ⟨_, between, first, rest⟩ := Fallible.outcome_bind_eq_ok.1 ran
    obtain ⟨header, condition, ty, headerChild, conditionChild, asks⟩ := condition_ok first
    obtain ⟨ids, all, course⟩ := takes.branching held (by rw [kind]; rfl) rest
    exact .node known (.condition rfl headerChild conditionChild asks) all course (.silent (by decide))
  | elseifBlock =>
    rw [kind] at ran known
    obtain ⟨_, between, first, rest⟩ := Fallible.outcome_bind_eq_ok.1 ran
    obtain ⟨header, condition, ty, headerChild, conditionChild, asks⟩ := condition_ok first
    obtain ⟨ids, all, course⟩ := takes.discardBody held (by rw [kind]; rfl) (by rw [kind]; rfl) rest
    exact .node known (.condition rfl headerChild conditionChild asks) all course (.silent (by decide))
  | tryBlock =>
    rw [kind] at ran known
    obtain ⟨ids, all, course⟩ := takes.branching held (by rw [kind]; rfl) ran
    exact .node known (.straight rfl) all course (.silent (by decide))
  | functionBlock =>
    rw [kind] at ran known
    obtain ⟨entered, swept, ids, enters, all, course, leaves⟩ := takes.functionBlock held kind ran
    exact .node known enters all course leaves
  | _ =>
    rw [kind] at ran known
    exact .node known (.straight rfl) (.children held (by rw [kind]; rfl)) (takes.children held ran)
      (.silent (by decide))

/-- A visit that succeeds takes a course, however deep it goes. -/
theorem visit_takesCourse : resolver.TakesCourse resolver.visit := by
  have within : ∀ depth, resolver.TakesCourse (resolver.visitWithin depth) := by
    intro depth
    induction depth with
    | zero =>
      intro id scope before after ran
      cases ran
    | succ depth step => exact step.visitWith
  exact within _

end Resolver

/-- A run that succeeds handles the root of its tree, starting from nothing but names; the
scope that the root is handed does not matter. -/
theorem Resolver.run_course {names : NameTable} {resolution : Resolution}
    (succeeds : (resolver.run names).outcome = .ok resolution) (scope : ScopeId) :
    ∃ after, Course resolver (.node resolver.tree.root scope) ⟨.initial names, []⟩ after ∧
      resolver.tree.kind resolver.tree.root = .ok .start ∧
      resolution = after.known.resolution ∧ (resolver.run names).names = after.known.names ∧
      (resolver.run names).journal = after.journal.reverse := by
  rcases ran : resolver.visitStory.outcome ⟨.initial names, []⟩ with ⟨outcome, after⟩
  have left : resolver.run names =
      ⟨outcome.map fun _ => after.known.resolution, after.known.names, after.journal.reverse⟩ := by
    simp [Resolver.run, ran]
  rw [left] at succeeds ⊢
  cases outcome with
  | error _ => cases succeeds
  | ok _ =>
    cases succeeds
    obtain ⟨node, held, ran⟩ := Attempt.guard_bind_ok ran
    have known := Tree.kind_of_node held
    dsimp only at ran
    by_cases story : node.kind = .start
    · rw [if_pos story] at ran
      rw [story] at known
      obtain ⟨entered, attaches, course⟩ := visit_takesCourse.enclose held ran
      exact ⟨after, .node known (.story attaches) (.children held (by rw [story]; rfl)) course
        (.silent (by decide)), known, rfl, rfl, rfl⟩
    · rw [if_neg story] at ran
      exact absurd ran Attempt.malformed_fails

end Reading
end ScopeTyping
