import ScopeTyping.Proofs.Pass.Conduct

/-! Every handler of the pass conducts itself well, if visiting the nodes below does. So the
error of a run that has one is justified by the tree alone, whatever names are known and
however ill-shaped the tree is. -/
namespace ScopeTyping

/-- Visits conduct themselves well at every node that is bare. -/
def Resolver.Behaves (tree : Tree) (visit : Resolver.Visit) : Prop :=
  ∀ id scope before, tree.Under id tree.root → before.Tidy 0 → before.known.Bare tree id →
    Conducts tree id 0 (visit id scope) before (fun _ _ => True)

/-- The children of a node are bare. -/
def Snapshot.BareBelow (now : Snapshot) (tree : Tree) (id : NodeId) : Prop :=
  ∀ child, tree.ChildOf child id → now.Bare tree child

variable {tree : Tree} {id : NodeId} {node : Node} {before : Progress} {scope : ScopeId}
  {visit : Resolver.Visit}

theorem Snapshot.Bare.below {now : Snapshot} (bare : now.Bare tree id) : now.BareBelow tree id :=
  fun _ below => bare.descend below

/-- A scope at a node leaves the nodes below it bare. -/
theorem Snapshot.BareBelow.attached {now later : Snapshot} (bare : now.BareBelow tree id)
    (sound : tree.Sound) (kept : ∀ other, other ≠ id →
      later.annotations.get? other = now.annotations.get? other) : later.BareBelow tree id := by
  intro child below other under alone
  rw [kept other fun same => sound.not_under_child below (same ▸ under)]
  exact bare child below other under alone

theorem Snapshot.BareBelow.still {after : Progress} (bare : before.known.BareBelow tree id)
    (still : before.Still after) : after.known.BareBelow tree id :=
  fun child below => (bare child below).still still

namespace Resolver.Behaves

/-- Children that are apart are visited one after another, each of them bare still. -/
theorem all (behaves : Behaves tree visit) (under : tree.Under id tree.root)
    {children : List NodeId} (below : ∀ child ∈ children, tree.ChildOf child id)
    (apart : children.Pairwise tree.Apart) (tidy : before.Tidy 0)
    (bare : ∀ child ∈ children, before.known.Bare tree child) :
    Conducts tree id 0 (children.forM fun child => visit child scope) before (fun _ _ => True) := by
  induction children generalizing before with
  | nil => exact Conducts.pure tidy trivial
  | cons first rest step =>
    obtain ⟨beside, apart⟩ := List.pairwise_cons.1 apart
    have firstBelow := below first (List.mem_cons_self ..)
    have visited := behaves first scope before (.head firstBelow under) tidy
      (bare first (List.mem_cons_self ..))
    refine (visited.widen (.single firstBelow)).bind fun _ after tidyAfter ⟨confined, _⟩ => ?_
    refine step (fun child member => below child (List.mem_cons_of_mem _ member)) apart tidyAfter
      fun child member => ?_
    exact (bare child (List.mem_cons_of_mem _ member)).confined confined (beside child member)

theorem children (behaves : Behaves tree visit) (under : tree.Under id tree.root)
    (tidy : before.Tidy 0) (bare : before.known.BareBelow tree id) :
    Conducts tree id 0 (tree.resolver.visitChildren visit id scope) before (fun _ _ => True) := by
  unfold visitChildren
  refine Conducts.guard_bind tidy fun node held => ?_
  exact behaves.all under (fun _ member => Tree.childOf_of_mem held member)
    (Tree.children_apart under held) tidy fun child member =>
      bare child (Tree.childOf_of_mem held member)

/-- The statements of a body are visited; nothing beside the body gets a scope. -/
theorem body (behaves : Behaves tree visit) (under : tree.Under id tree.root)
    (tidy : before.Tidy 0) (bare : before.known.BareBelow tree id) :
    Conducts tree id 0 (tree.resolver.visitBody visit id scope) before (fun body after =>
      tree.ChildOf body id ∧ Confined tree body before.known after.known) := by
  unfold visitBody
  refine Conducts.requiredChild_bind tidy under fun body known bodyUnder => ?_
  have below := (Tree.child?_eq_ok_some known).1
  have statements : Conducts tree body 0 (tree.resolver.visitChildren visit body scope) before
      (fun _ _ => True) := behaves.children bodyUnder tidy (bare body below).below
  refine (statements.widen (.single below)).bind fun _ after tidyAfter ⟨confined, _⟩ => ?_
  exact Conducts.pure tidyAfter ⟨below, confined⟩

theorem branching (behaves : Behaves tree visit) (under : tree.Under id tree.root)
    (tidy : before.Tidy 0) (bare : before.known.BareBelow tree id) :
    Conducts tree id 0 (tree.resolver.branching visit id scope) before (fun _ _ => True) := by
  refine (behaves.body under tidy bare).bind
    fun body after tidyAfter ⟨bodyBelow, confined⟩ => ?_
  unfold visitAfter
  refine Conducts.guard_bind tidyAfter fun node held => ?_
  have below : ∀ branch ∈ node.branches body, tree.ChildOf branch id := fun _ member =>
    Tree.childOf_of_mem held (Tree.mem_children_of_mem_branches member)
  obtain ⟨beside, apart⟩ : (∀ branch ∈ node.branches body, tree.Apart body branch) ∧
      (node.branches body).Pairwise tree.Apart := by
    obtain ⟨found, there, member⟩ := bodyBelow
    cases held.symm.trans there
    exact List.pairwise_cons.1
      ((Tree.children_apart under held).sublist (Tree.body_branches_sublist member))
  refine behaves.all under below apart tidyAfter fun branch member => ?_
  exact (bare branch (below branch member)).confined confined (beside branch member)

/-- A node that opens a scope gets it before its children are visited. -/
theorem enclose (behaves : Behaves tree visit) (sound : tree.Sound)
    (under : tree.Under id tree.root) (held : tree.node id = .ok node)
    (opens : node.kind.opensScope = true) (tidy : before.Tidy 0) (bare : before.known.Bare tree id)
    (around : Option ScopeId) (kind : ScopeKind) :
    Conducts tree id 0 (tree.resolver.enclose visit id around kind) before (fun _ _ => True) := by
  refine (Pass.openScope_conducts tidy around kind).bind fun inner opened tidyOpened still => ?_
  refine (Pass.record_conducts tidyOpened _).bind fun _ ready tidyReady stillReady => ?_
  have bareReady := bare.still (still.trans stillReady)
  refine (Pass.attach_conducts tidyReady under held opens bareReady).bind
    fun _ _ tidyAfter kept => ?_
  exact behaves.children under tidyAfter (bareReady.below.attached sound kept)

theorem condition (under : tree.Under id tree.root) (tidy : before.Tidy 0) (header : Kind) :
    Conducts tree id 0 (tree.resolver.condition header id scope) before
      (fun _ => before.Still) := by
  unfold Resolver.condition
  refine Conducts.requiredChild_bind tidy under fun statement _ statementUnder => ?_
  refine Conducts.requiredChild_bind tidy statementUnder fun condition _ conditionUnder => ?_
  exact (expression_conducts tidy conditionUnder scope).discard.weaken fun _ _ ⟨_, still⟩ => still

theorem sides (under : tree.Under id tree.root) (tidy : before.Tidy 0) :
    Conducts tree id 0 (tree.resolver.sides id scope) before
      (fun (path, _, _) after => tree.Under path tree.root ∧ before.Still after) := by
  unfold Resolver.sides
  refine Conducts.requiredChild_bind tidy under fun path _ pathUnder => ?_
  refine (path_conducts tidy pathUnder scope false).bind fun target asked tidyAsked still => ?_
  refine Conducts.requiredChild_bind tidyAsked under fun fragment _ fragmentUnder => ?_
  refine Conducts.requiredChild_bind tidyAsked fragmentUnder fun value _ valueUnder => ?_
  refine (expression_conducts tidyAsked valueUnder scope).bind
    fun found typed tidyTyped stillTyped => ?_
  exact Conducts.pure tidyTyped ⟨pathUnder, still.trans stillTyped⟩

theorem assignment (behaves : Behaves tree visit) (under : tree.Under id tree.root)
    (held : tree.node id = .ok node) (kind : node.kind = .assignment) (tidy : before.Tidy 0)
    (bare : before.known.BareBelow tree id) :
    Conducts tree id 0 (tree.resolver.assignment visit id scope) before (fun _ _ => True) := by
  unfold Resolver.assignment
  refine (Behaves.sides under tidy).bind
    fun (path, target, found) typed tidyTyped ⟨pathUnder, still⟩ => ?_
  have bareTyped := bare.still still
  dsimp only
  by_cases unknown : target.ty.isAbsent = true
  · simp only [unknown, if_true]
    refine Conducts.requiredChild_bind tidyTyped pathUnder fun head _ _ => ?_
    refine (Pass.bindName_conducts tidyTyped scope head _).bind
      fun _ bound tidyBound stillBound => ?_
    exact behaves.children under tidyBound (bareTyped.still stillBound)
  · by_cases fits : target.ty.accepts found = true
    · simp only [unknown, fits, Bool.false_eq_true, if_false, if_true]
      exact behaves.children under tidyTyped bareTyped
    · simp only [unknown, fits, Bool.false_eq_true, if_false]
      have refused : Conducts tree id 0
          (Attempt.report tree id (.typeAssignmentDifferent target.ty found) : Pass PUnit) typed
          (fun _ _ => False) :=
        Conducts.report tidyTyped held under ⟨kind, Bool.eq_false_iff.2 fits⟩
      exact refused.bind fun _ _ _ never => never.elim

/-- A loop binds its variables and then visits its body. -/
theorem loopBody (behaves : Behaves tree visit) (under : tree.Under id tree.root)
    (tidy : before.Tidy 0) (bare : before.known.BareBelow tree id) {header : NodeId}
    (headerUnder : tree.Under header tree.root) :
    Conducts tree id 0 (tree.resolver.loopBody visit id header scope) before (fun _ _ => True) := by
  unfold Resolver.loopBody
  refine Conducts.requiredChild_bind tidy headerUnder fun output _ _ => ?_
  refine (Conducts.forEach tidy fun name _ tidyNow => ?_).bind fun _ bound tidyBound still => ?_
  · exact Pass.bindName_conducts tidyNow scope name .any
  · refine (Pass.record_conducts tidyBound _).bind fun _ ready tidyReady stillReady => ?_
    have bareReady := bare.still (still.trans stillReady)
    exact (behaves.body under tidyReady bareReady).discard.weaken fun _ _ _ => trivial

theorem foreachBlock (behaves : Behaves tree visit) (sound : tree.Sound)
    (under : tree.Under id tree.root) (held : tree.node id = .ok node)
    (opens : node.kind.opensScope = true) (tidy : before.Tidy 0)
    (bare : before.known.Bare tree id) :
    Conducts tree id 0 (tree.resolver.foreachBlock visit id scope) before (fun _ _ => True) := by
  unfold Resolver.foreachBlock
  refine (Pass.openScope_conducts tidy _ .loop).bind fun inner opened tidyOpened still => ?_
  have bareOpened := bare.still still
  refine (Pass.attach_conducts tidyOpened under held opens bareOpened).bind
    fun _ attached tidyAttached kept => ?_
  have bareBelow := bareOpened.below.attached sound kept
  refine Conducts.requiredChild_bind tidyAttached under fun header _ headerUnder => ?_
  refine Conducts.guard_bind tidyAttached fun iterable found => ?_
  dsimp only
  cases iterable with
  | none => exact behaves.loopBody under tidyAttached bareBelow headerUnder
  | some iterable =>
    have below := (Tree.child?_eq_ok_some found).1
    refine (expression_conducts tidyAttached (.head below headerUnder) scope).discard.bind
      fun _ typed tidyTyped ⟨_, stillTyped⟩ => ?_
    exact behaves.loopBody under tidyTyped (bareBelow.still stillTyped) headerUnder

end Resolver.Behaves

namespace Resolver

theorem parameter_conducts {argument : NodeId} {owed : Nat} (tidy : before.Tidy owed)
    (under : tree.Under argument tree.root) :
    Conducts tree id owed (tree.resolver.parameter scope argument) before
      (fun _ => before.Still) := by
  unfold parameter
  refine Conducts.requiredChild_bind tidy under fun name _ _ => ?_
  refine Conducts.requiredChild_bind tidy under fun types known typesUnder => ?_
  have isTypes := (Tree.child?_eq_ok_some known).2
  refine (declared_conducts tidy typesUnder isTypes).bind fun ty _ tidyAsked still => ?_
  exact (Pass.bindName_conducts tidyAsked scope name ty).weaken
    fun _ _ stillBound => still.trans stillBound

theorem returnType_conducts {header : NodeId} {owed : Nat} (tidy : before.Tidy owed)
    (under : tree.Under header tree.root) :
    Conducts tree id owed (tree.resolver.returnType header) before
      (fun _ => before.Still) := by
  unfold returnType
  refine Conducts.guard_bind tidy fun answer known => ?_
  cases answer with
  | none => exact Conducts.pure tidy rfl
  | some output =>
    have outputUnder : tree.Under output tree.root := .head (Tree.child?_eq_ok_some known).1 under
    refine Conducts.requiredChild_bind tidy outputUnder fun types found typesUnder => ?_
    exact declared_conducts tidy typesUnder (Tree.child?_eq_ok_some found).2

/-- A signature opens a scope and leaves it to the function to attach it. -/
theorem signature_conducts {header : NodeId} (tidy : before.Tidy 0)
    (under : tree.Under header tree.root) :
    Conducts tree id 1 (tree.resolver.signature header) before
      (fun _ => before.Still) := by
  unfold signature
  refine (Pass.openScope_conducts tidy none .function).bind fun scope _ tidyOpened opened => ?_
  refine (Conducts.forEach tidyOpened fun argument member tidyNow => ?_).bind
    fun _ _ tidyBound bound => ?_
  · exact parameter_conducts tidyNow (.head (Tree.mem_items_childrenOfKind member).1 under)
  · refine (Pass.record_conducts tidyBound _).bind fun _ _ tidyReady ready => ?_
    refine (returnType_conducts tidyReady under).bind fun ty _ tidyTyped typed => ?_
    refine Conducts.pure tidyTyped ?_
    exact ((opened.trans bound).trans ready).trans typed

theorem Behaves.functionBlock (behaves : Behaves tree visit) (sound : tree.Sound)
    (under : tree.Under id tree.root) (held : tree.node id = .ok node)
    (opens : node.kind.opensScope = true) (tidy : before.Tidy 0)
    (bare : before.known.Bare tree id) :
    Conducts tree id 0 (tree.resolver.functionBlock visit id) before (fun _ _ => True) := by
  unfold Resolver.functionBlock
  refine Conducts.requiredChild_bind tidy under fun header _ headerUnder => ?_
  refine (signature_conducts tidy headerUnder).bind fun ⟨inner, ty⟩ signed tidySigned still => ?_
  have bareSigned := bare.still still
  refine (Pass.attach_conducts tidySigned under held opens bareSigned).bind
    fun _ attached tidyAttached kept => ?_
  have bareBelow := bareSigned.below.attached sound kept
  refine (behaves.body under tidyAttached bareBelow).bind
    fun body visited tidyVisited ⟨below, _⟩ => ?_
  exact (checkReturns_conducts tidyVisited (.head below under) inner ty).weaken fun _ _ _ => trivial

/-- A visit conducts itself well if the visits below it do. -/
theorem Behaves.visitWith (behaves : Behaves tree visit) (sound : tree.Sound) :
    Behaves tree (tree.resolver.visitWith visit) := by
  intro id scope start under tidyStart bareStart
  unfold Resolver.visitWith
  refine (Pass.record_conducts tidyStart _).bind fun _ before tidy still => ?_
  have bare := bareStart.still still
  refine Conducts.guard_bind tidy fun node held => ?_
  cases kind : node.kind with
  | start => exact behaves.enclose sound under held (by simp [kind, Kind.opensScope]) tidy bare _ _
  | nestedBlock =>
    exact behaves.enclose sound under held (by simp [kind, Kind.opensScope]) tidy bare _ _
  | assignment => exact behaves.assignment under held kind tidy bare.below
  | foreachBlock =>
    exact behaves.foreachBlock sound under held (by simp [kind, Kind.opensScope]) tidy bare
  | functionBlock =>
    exact behaves.functionBlock sound under held (by simp [kind, Kind.opensScope]) tidy bare
  | whileBlock | whenBlock | elseBlock =>
    exact (behaves.body under tidy bare.below).discard.weaken fun _ _ _ => trivial
  | ifBlock =>
    refine (Behaves.condition under tidy .ifStatement).bind fun _ _ tidyTyped stillTyped => ?_
    exact behaves.branching under tidyTyped (bare.below.still stillTyped)
  | elseifBlock =>
    refine (Behaves.condition under tidy .elseifStatement).bind fun _ _ tidyTyped stillTyped => ?_
    exact (behaves.body under tidyTyped (bare.below.still stillTyped)).discard.weaken
      fun _ _ _ => trivial
  | tryBlock => exact behaves.branching under tidy bare.below
  | _ => exact behaves.children under tidy bare.below

/-- Visits conduct themselves well, however deep they go. -/
theorem visit_behaves (sound : tree.Sound) : Behaves tree tree.resolver.visit := by
  have within : ∀ depth, Behaves tree (tree.resolver.visitWithin depth) := by
    intro depth
    induction depth with
    | zero => exact fun _ _ _ _ tidy _ => ⟨trivial, tidy.recorded⟩
    | succ depth step => exact step.visitWith sound
  exact within _

theorem visitStory_conducts (sound : tree.Sound) (names : NameTable) :
    Conducts tree tree.root 0 tree.resolver.visitStory ⟨.initial names, []⟩ (fun _ _ => True) := by
  have tidy : Progress.Tidy ⟨.initial names, []⟩ 0 :=
    ⟨rfl, Nat.zero_le 1, fun moment impossible => by cases impossible⟩
  have bare : (Snapshot.initial names).Bare tree tree.root := fun _ _ _ => rfl
  unfold visitStory
  refine Conducts.guard_bind tidy fun node held => ?_
  dsimp only
  by_cases story : node.kind = .start
  · rw [if_pos story]
    exact (visit_behaves sound).enclose sound .refl held (by simp [story, Kind.opensScope]) tidy
      bare none .root
  · rw [if_neg story]
    exact (Attempt.ensures_malformed held .refl (.story rfl story)).weaken
      (fun _ _ holds => holds) fun _ _ facts => ⟨facts.1, facts.2 ▸ tidy.recorded⟩

end Resolver

/-! ### Runs -/

/-- At no moment of a run is there more than one scope without a node. -/
theorem Tree.resolve_recorded (sound : tree.Sound) {names : NameTable} {moment : Moment}
    (member : moment ∈ (tree.resolve names).journal) :
    moment.known.scopes.size ≤ moment.known.annotations.size + 1 := by
  have story := Resolver.visitStory_conducts sound names
  rcases ran : tree.resolver.visitStory.outcome ⟨.initial names, []⟩ with ⟨outcome, progress⟩
  have journal : (tree.resolve names).journal = progress.journal.reverse := by
    simp [Tree.resolve, Resolver.run, ran]
  rw [journal, List.mem_reverse] at member
  cases outcome with
  | ok _ => exact (Attempt.ensures_ok story ran).1.recorded moment member
  | error _ => exact (Attempt.ensures_error story ran).2 moment member

/-- The error of a run that fails with one is told of a node that the root reaches, with the
span of the node, and what its cause says of the node is so. -/
theorem Tree.resolve_justified (tree : Tree) (names : NameTable) (sound : tree.Sound)
    {told : SemanticError} (fails : (tree.resolve names).outcome = .error (.error told)) :
    told.Justified tree := by
  have story := Resolver.visitStory_conducts sound names
  rcases ran : tree.resolver.visitStory.outcome ⟨.initial names, []⟩ with ⟨outcome, progress⟩
  have ended : (tree.resolve names).outcome = outcome.map fun _ => progress.known.resolution := by
    simp [Tree.resolve, Resolver.run, ran]
  rw [ended] at fails
  cases outcome with
  | ok _ => cases fails
  | error failure =>
    cases fails
    exact (Attempt.ensures_error story ran).1

/-- A story that binds a variable and asks for it with a slip in its name. -/
def Tree.slip : Tree where
  nodes := #[
    ⟨.name, .point 0, "count", []⟩, ⟨.path, .point 0, "", [⟨0⟩]⟩, ⟨.number, .point 8, "1", []⟩,
    ⟨.baseExpression, .point 8, "", [⟨2⟩]⟩, ⟨.assignmentFragment, .point 6, "", [⟨3⟩]⟩,
    ⟨.assignment, .point 0, "", [⟨1⟩, ⟨4⟩]⟩,
    ⟨.name, .point 10, "total", []⟩, ⟨.path, .point 10, "", [⟨6⟩]⟩,
    ⟨.name, .point 18, "cuont", []⟩, ⟨.path, .point 18, "", [⟨8⟩]⟩,
    ⟨.baseExpression, .point 18, "", [⟨9⟩]⟩, ⟨.assignmentFragment, .point 16, "", [⟨10⟩]⟩,
    ⟨.assignment, .point 10, "", [⟨7⟩, ⟨11⟩]⟩, ⟨.start, .point 0, "", [⟨5⟩, ⟨12⟩]⟩]
  root := ⟨13⟩

/-- The slip is told of the node that has it, and what is suggested is another name. -/
theorem Tree.slip_justified : ∃ told,
    (Tree.slip.resolve .empty).outcome = .error (.error told) ∧ told.node = ⟨8⟩ ∧
    told.cause = .unresolvedVariable "cuont" ["count"] ∧ told.Justified Tree.slip := by
  have sound : Tree.slip.Sound := Tree.sound_of_ascending (by decide +kernel)
  have failure : (match (Tree.slip.resolve .empty).outcome with
      | .ok _ => none
      | .error failure => some failure) =
      some (.error ⟨.unresolvedVariable "cuont" ["count"], ⟨8⟩, .point 18⟩) := by decide +kernel
  cases ended : (Tree.slip.resolve .empty).outcome with
  | ok _ =>
    rw [ended] at failure
    cases failure
  | error told =>
    rw [ended] at failure
    cases failure
    exact ⟨_, rfl, rfl, rfl, Tree.resolve_justified Tree.slip .empty sound ended⟩

end ScopeTyping
