import ScopeTyping.Proofs.Program.Enacted

/-! The constructs of the language one by one. A visit of a construct performs the part that
stands there as soon as visits of the nodes in its body and of its branches perform what stands
there; the header of a construct is passed over or asked about, and gives nothing a scope but
the construct itself. -/
namespace ScopeTyping

variable {tree : Tree} {visit : Resolver.Visit} {id body : NodeId}
  {heads slots branchIds children : List NodeId} {scope inner : ScopeId} {before : Progress}
  {kind : Kind} {text : String} {parts branches : List Part}

/-! ### Statements without a body -/

/-- The children of an assignment are passed over, whatever was asked or bound before: no node
gets a scope at them, and no return stands there. -/
theorem passed_enacts {target fragment : NodeId} {now : Progress} (sound : tree.Sound)
    (shows : Shows tree.nodes id .assignment "" [target, fragment])
    (inert : ∀ child ∈ [target, fragment], Inert tree.nodes child)
    (idle : ∀ child ∈ [target, fragment], Idles visit child) (free : before.known.Free tree [id])
    (same : now.known.annotations = before.known.annotations) :
    Enacts (tree.resolver.visitChildren visit id scope) now (pure [])
      fun _ sites after => Handled tree [id] scope sites before.known after := by
  rw [visitChildren_eq shows, ← bind_pure (List.forM _ _)]
  obtain ⟨after, ran, known⟩ := idles_all idle scope now
  refine Enacts.unseen ran (by rw [Progress.scene, known]; rfl) (.pure ?_)
  have passed : Handled tree [target, fragment] scope [] before.known after.known :=
    .passed sound inert (by rw [known, same])
  refine passed.above sound shows (by decide) (by decide) ?_
  rw [free id (by simp) id .refl]
  rfl

theorem performs_assignment {target fragment value : NodeId} {head : String}
    {keys : List (Key Expr)} {expr : Expr} (sound : tree.Sound)
    (shows : Shows tree.nodes id .assignment "" [target, fragment])
    (left : ExprAt tree.nodes (.path head keys) target)
    (right : Shows tree.nodes fragment .assignmentFragment "" [value])
    (stands : ExprAt tree.nodes (.wrapped expr) value)
    (idle : ∀ child ∈ [target, fragment], Idles visit child) :
    Performs tree (tree.resolver.visitWith visit) id fun scope =>
      (Part.assignment head keys expr).run scope := by
  intro scope before free
  have inert : ∀ child ∈ [target, fragment], Inert tree.nodes child := by
    simpa using ⟨left.inert, .mk right rfl (by simpa using stands.inert)⟩
  obtain ⟨pathKind, name, headChild, named⟩ : tree.kind target = .ok .path ∧ ∃ name,
      tree.child? target .name = .ok (some name) ∧ NameAt tree.nodes head name := by
    cases left with
    | path shows named _ =>
      exact ⟨shows.kind, _, shows.child? [] _ _ (by simp) named.kind, named⟩
  have pathChild := shows.child? [] target [fragment] (by simp) pathKind
  have fragmentChild := Shows.child? [target] fragment [] shows
    (by simpa using ⟨_, pathKind, by decide⟩) right.kind
  have valueChild := right.child? [] value [] (by simp) stands.kind_wrapped
  show Enacts (Pass.record _ >>= fun _ => _) before _ _
  refine Enacts.record ?_
  obtain ⟨_, held⟩ := shows.node
  simp only [Resolver.handle, Resolver.node, held, Attempt.guard, pure_bind]
  simp only [Resolver.assignment, Resolver.sides, requiredChild_eq pathChild,
    requiredChild_eq fragmentChild, requiredChild_eq valueChild, requiredChild_eq headChild,
    pure_bind, Part.run, Part.assign, bind_assoc]
  refine (target_enacts sound left scope).bind ?_
  rintro target _ asked ⟨same, kept⟩
  subst same
  refine (expression_enacts sound stands scope).bind ?_
  rintro found _ typed ⟨same, keptToo⟩
  subst same
  have still : typed.known.annotations = before.known.annotations := keptToo.trans kept
  by_cases unknown : target.ty.isAbsent = true
  · simp only [if_pos unknown]
    exact (Pass.bindName_enacts named scope _).bind fun _ _ bound keptBound =>
      passed_enacts sound shows inert idle free (keptBound.trans still)
  · by_cases fits : target.ty.accepts found = true
    · simp only [if_neg unknown, if_pos fits, pure_bind]
      exact passed_enacts sound shows inert idle free still
    · simp only [if_neg unknown, if_neg fits]
      have refused : Enacts (Attempt.report tree id (.typeAssignmentDifferent target.ty found) : Pass Unit)
          typed (Reading.refuse (.typeAssignmentDifferent target.ty found) rfl : Reading Scene Unit)
          fun _ _ _ => False := report_enacts shows
      exact refused.bind fun _ _ _ never => never.elim

/-! ### Bodies -/

section Bodies
variable (sound : tree.Sound) (once : tree.PlacesOnce)
  (performs : List.Forall₂ (fun part id => Performs tree visit id fun scope => part.run scope)
    parts slots)
include sound once performs

/-- The statements below a node are run in the scope that they are visited in. -/
theorem children_enacts (shows : Shows tree.nodes id kind text slots)
    (free : before.known.Free tree slots) :
    Enacts (tree.resolver.visitChildren visit id scope) before (Part.runAll scope parts)
      fun _ sites after => Handled tree slots scope sites before.known after := by
  rw [visitChildren_eq shows]
  exact performs_all performs (shows.parted sound once) free

/-- The statements of a body are run in the scope of its construct. -/
theorem body_enacts (known : tree.child? id .nestedBlock = .ok (some body))
    (held : Shows tree.nodes body .nestedBlock "" slots) (free : before.known.Free tree [body]) :
    Enacts (tree.resolver.visitBody visit id scope) before (Part.runAll scope parts)
      fun value sites after => value = body ∧ Handled tree slots scope sites before.known after := by
  rw [Resolver.visitBody, requiredChild_eq known, pure_bind, ← bind_pure (Part.runAll scope parts)]
  have freeSlots : before.known.Free tree slots :=
    free.below fun slot member => Tree.under_of_childOf (held.childOf member)
  exact (children_enacts sound once performs held freeSlots).bind fun _ sites after handled =>
    .pure ⟨rfl, handled⟩

end Bodies

/-- The returns that stand in a body without a scope of its own are those of its construct. -/
theorem Handled.inBody {sites : List Return} {start finish : Snapshot}
    (handled : Handled tree slots scope sites start finish) (sound : tree.Sound)
    (held : Shows tree.nodes body .nestedBlock "" slots) (free : start.Free tree [body]) :
    Handled tree [body] scope sites start finish := by
  refine handled.above sound held (by decide) (by decide) ?_
  rw [free body (by simp) body .refl]
  rfl

/-! ### Constructs that share the scope around them -/

/-- What the pass does at the header of a construct that shares the scope around it. -/
def Resolver.begin (resolver : Resolver) (id : NodeId) (scope : ScopeId) : Header → Pass Unit
  | .ifBlock _ => resolver.condition .ifStatement id scope
  | .elseifBlock _ => resolver.condition .elseifStatement id scope
  | _ => pure ()

/-- At a construct that shares the scope around it, the pass visits the body behind the header and,
where branches may stand, what comes behind the body. -/
def Resolver.share (resolver : Resolver) (visit : Visit) (id : NodeId) (scope : ScopeId)
    (header : Header) : Pass Unit := do
  resolver.begin id scope header
  let body ← resolver.visitBody visit id scope
  if header.branches then resolver.visitAfter visit id body scope

theorem handle_shared {header : Header} (shows : Shows tree.nodes id header.kind text children) :
    tree.resolver.handle visit id scope = tree.resolver.share visit id scope header := by
  unfold Resolver.handle
  obtain ⟨_, held⟩ := shows.node
  simp only [Resolver.node, held, Attempt.guard, pure_bind]
  cases header <;>
    simp only [Header.kind, Resolver.share, Resolver.begin, pure_bind, Header.branches,
      Resolver.ifBlock, Resolver.elseifBlock, Resolver.tryBlock, Resolver.branching,
      discard_eq_bind, if_true, Bool.false_eq_true, if_false]

/-- The condition of a construct is typed as the program types it. -/
theorem header_enacts {header : Header} (sound : tree.Sound)
    (shows : Shows tree.nodes id header.kind "" (heads ++ children))
    (stands : HeaderAt tree.nodes header heads) :
    Enacts (tree.resolver.begin id scope header) before (header.begin scope)
      fun _ _ after => after.annotations = before.known.annotations := by
  have conditional : ∀ {kind : Kind} {condition : Expr},
      header.opener? = some (kind, condition) →
      Enacts (tree.resolver.condition kind id scope) before
        (discard (Scene.ask fun scopes => condition.type scopes scope))
        fun _ _ after => after.annotations = before.known.annotations := by
    intro kind condition opener
    cases stands with
    | silent silent =>
      rw [silent] at opener
      cases opener
    | @opener head innerId _ _ _ found opens inner =>
      rw [found] at opener
      cases opener
      have headChild := Shows.child? [] _ _ shows (by simp) opens.kind
      have innerChild := opens.child? [] _ [] (by simp) inner.kind_wrapped
      rw [Resolver.condition, requiredChild_eq headChild, pure_bind, requiredChild_eq innerChild,
        pure_bind]
      refine (expression_enacts sound inner scope).discard.weaken ?_
      rintro _ _ _ ⟨_, _, _, kept⟩
      exact kept
  cases header with
  | ifBlock condition => exact conditional rfl
  | elseifBlock condition => exact conditional rfl
  | elseBlock => exact .pure rfl
  | whileBlock condition => exact .pure rfl
  | whenBlock subject => exact .pure rfl
  | tryBlock => exact .pure rfl

/-- What stands behind a body are the branches. -/
theorem drop_to_branches (apart : body ∉ heads) :
    ((heads ++ body :: branchIds).dropWhile (· != body)).drop 1 = branchIds := by
  rw [List.dropWhile_append_of_pos fun head member => by
    simpa using fun same : head = body => apart (same ▸ member)]
  rw [List.dropWhile_cons_of_neg (by simp), List.drop_one, List.tail_cons]

theorem visitAfter_eq (shows : Shows tree.nodes id kind text (heads ++ body :: branchIds))
    (apart : body ∉ heads) : tree.resolver.visitAfter visit id body scope =
      branchIds.forM fun child => visit child scope := by
  unfold Resolver.visitAfter
  obtain ⟨_, same⟩ := shows.node_bind fun node =>
    ((node.children.dropWhile (· != body)).drop 1).forM fun child => visit child scope
  refine same.trans ?_
  simp only [drop_to_branches apart]

/-- The branches behind a body are run in the scope of their construct. -/
theorem branches_enacts {header : Header}
    (shows : Shows tree.nodes id header.kind "" (heads ++ body :: branchIds)) (apart : body ∉ heads)
    (branched : header.branches = false → branches = [])
    (others : List.Forall₂ (fun part id => Performs tree visit id fun scope => part.run scope)
      branches branchIds)
    (parted : branchIds.Pairwise tree.Parted) (free : before.known.Free tree branchIds) :
    Enacts (if header.branches then tree.resolver.visitAfter visit id body scope else pure ())
      before (Part.runAll scope branches)
      fun _ sites after => Handled tree branchIds scope sites before.known after := by
  cases may : header.branches with
  | true =>
    rw [if_pos rfl, visitAfter_eq shows apart]
    exact performs_all others parted free
  | false =>
    cases branched may
    cases others
    exact .pure ⟨.of_eq rfl, .nil⟩

theorem performs_shared {header : Header} (sound : tree.Sound) (once : tree.PlacesOnce)
    (shows : Shows tree.nodes id header.kind "" (heads ++ body :: branchIds))
    (headed : HeaderAt tree.nodes header heads) (branched : header.branches = false → branches = [])
    (held : Shows tree.nodes body .nestedBlock "" slots)
    (performs : List.Forall₂ (fun part id => Performs tree visit id fun scope => part.run scope)
      parts slots)
    (others : List.Forall₂ (fun part id => Performs tree visit id fun scope => part.run scope)
      branches branchIds) :
    Performs tree (tree.resolver.visitWith visit) id fun scope =>
      (Part.shared header parts branches).run scope := by
  intro scope before free
  obtain ⟨_, bodyApart, headsApart⟩ := List.pairwise_append.1 (shows.parted sound once)
  obtain ⟨bodyApart, branchesApart⟩ := List.pairwise_cons.1 bodyApart
  have under : ∀ child ∈ heads ++ body :: branchIds, tree.Under child id :=
    fun child member => Tree.under_of_childOf (shows.childOf member)
  show Enacts _ before ((Part.shared header parts branches).run scope) _
  refine Enacts.record ?_
  rw [handle_shared shows, Resolver.share, Part.run]
  refine (header_enacts sound shows headed).bind fun _ _ asked kept => ?_
  have stillFree : asked.known.Free tree [id] := free.of_eq kept
  have known := headed.body_child shows held.kind
  have freeBody : asked.known.Free tree [body] :=
    stillFree.below fun child member => under child (by simp_all)
  refine (body_enacts sound once performs known held freeBody).bind ?_
  rintro value sites ran ⟨same, inSlots⟩
  subst value
  have handled := inSlots.inBody sound held freeBody
  have freeBranches : ran.known.Free tree branchIds := by
    refine Snapshot.Free.spared (stillFree.below fun child member => under child (by simp_all))
      handled.spared ?_
    simpa using fun other member => (bodyApart other member).symm
  have notHead := headed.body_not_mem held.kind
  rw [← bind_pure (ite ..)]
  refine (branches_enacts shows notHead branched others branchesApart freeBranches).bind
    fun _ others after handledToo => .pure ?_
  have passed : Handled tree heads scope [] before.known asked.known :=
    .passed sound headed.inert kept
  have all := passed.append (handled.append handledToo (by simpa using bodyApart)) headsApart
  refine all.above sound shows ?_ ?_ ?_
  · cases header <;> simp [Header.kind]
  · cases header <;> simp [Header.kind]
  · rw [free id (by simp) id .refl]
    rfl

/-! ### Nodes that get a scope -/

/-- A node got a scope, and no other one did. -/
def Opened (id : NodeId) (inner : ScopeId) (start finish : Snapshot) : Prop :=
  ∀ other, finish.annotations.get? other =
    if other = id then some inner else start.annotations.get? other

section Opened
variable {start between finish : Snapshot} {sites : List Return}

/-- Nothing below the node has got a scope with it. -/
theorem Opened.free (opened : Opened id inner start finish) (sound : tree.Sound)
    (free : start.Free tree [id]) (below : ∀ child ∈ children, tree.ChildOf child id) :
    finish.Free tree children := by
  intro child member other path
  have apart : other ≠ id := by
    rintro rfl
    exact sound.acyclic _ (Relation.TransGen.tail' path (below child member))
  rw [opened other, if_neg apart]
  exact free id (by simp) other (path.tail (below child member))

theorem Opened.spared (opened : Opened id inner start between)
    (later : Spared tree [id] between finish) : Spared tree [id] start finish := by
  intro other apart
  have differ : other ≠ id := fun same => apart id (by simp) (same ▸ .refl)
  rw [later other apart, opened other, if_neg differ]

/-- A scope is attached to a node that has none. -/
theorem attach_enacts {α β : Type} {next : Unit → Pass α} {twin : Reading Scene β}
    {done : α → β → Snapshot → Prop} (free : before.known.annotations.get? id = none)
    (rest : ∀ after : Progress, Opened id inner before.known after.known →
      Enacts (next ()) after twin done) :
    Enacts (Pass.attach tree id inner >>= next) before twin done := by
  obtain ⟨after, ran, same, gets⟩ := Pass.attach_unseen free inner
  exact Enacts.unseen ran same (rest after gets)

theorem performs_block (sound : tree.Sound) (once : tree.PlacesOnce)
    (shows : Shows tree.nodes id .nestedBlock "" slots)
    (performs : List.Forall₂ (fun part id => Performs tree visit id fun scope => part.run scope)
      parts slots) :
    Performs tree (tree.resolver.visitWith visit) id fun scope =>
      (Part.scoped .block parts).run scope := by
  intro scope before free
  show Enacts (Pass.record _ >>= fun _ => _) before ((Part.scoped .block parts).run scope) _
  refine Enacts.record ?_
  obtain ⟨_, held⟩ := shows.node
  simp only [Resolver.handle, Resolver.node, held, Attempt.guard, pure_bind, Resolver.nestedBlock,
    Resolver.enclose, Part.run, Opening.begin, Opening.finish, bind_assoc]
  refine (Pass.openScope_enacts (some scope) .block).bind ?_
  rintro inner _ created ⟨same, kept⟩
  subst same
  have stillFree : created.known.Free tree [id] := Snapshot.Free.of_eq free kept
  refine Enacts.record (attach_enacts (stillFree id (by simp) id .refl) fun now opened => ?_)
  have freeSlots := opened.free sound stillFree fun slot => shows.childOf
  rw [bind_pure]
  refine (children_enacts sound once performs shows freeSlots).weaken fun _ sites after handled => ?_
  have own : (now.known.annotations.get? id).getD scope = inner := by
    rw [opened id, if_pos rfl]
    rfl
  have above := handled.above sound shows (by decide) (by decide) own
  exact ⟨Spared.trans (.of_eq kept) (opened.spared above.spared), above.tallied⟩

end Opened

/-! ### Bindings -/

/-- Items are bound one after another, and no node gets a scope meanwhile. -/
theorem forM_enacts {ι : Type} {others : List ι} {each : NodeId → Pass Unit}
    {twin : ι → Reading Scene Unit} {ids : List NodeId}
    (inner : List.Forall₂ (fun other id => ∀ before, Enacts (each id) before (twin other)
      fun _ _ after => after.annotations = before.known.annotations) others ids) :
    Enacts (ids.forM each) before (others.forM twin) fun _ _ after =>
      after.annotations = before.known.annotations := by
  induction inner generalizing before with
  | nil => exact .pure rfl
  | cons first _ step =>
    exact (first before).bind fun _ _ between kept =>
      step.weaken fun _ _ _ keptToo => keptToo.trans kept

theorem forEach_whole {State α : Type} (items : List α) (each : α → Attempt State Unit) :
    (Walk.whole items).forEach each = items.forM each := by
  show (items.forM each >>= fun _ => pure ()) = _
  exact bind_pure _

/-- All variables of a loop are bound to a type of which nothing is known. -/
theorem loopVariables_enacts {names : List String} {ids : List NodeId}
    (named : List.Forall₂ (NameAt tree.nodes) names ids) (inner : ScopeId) :
    Enacts (ids.forM fun name => Pass.bind tree inner name .any) before
      (names.forM fun name => Scene.bind inner name .any) fun _ _ after =>
        after.annotations = before.known.annotations :=
  forM_enacts (named.imp fun _ _ named _ => Pass.bindName_enacts named inner .any)

/-- A parameter is bound to the type that is written for it. -/
theorem parameter_enacts (sound : tree.Sound) {param : String × Written} {id : NodeId}
    (stands : ParameterAt tree.nodes param id) (inner : ScopeId) :
    Enacts (tree.resolver.parameter inner id) before (Opening.parameter inner param)
      fun _ _ after => after.annotations = before.known.annotations := by
  cases stands with
  | @mk id name types _ _ shows named typed =>
    have nameChild := Shows.child? [] name [types] shows (by simp) named.kind
    have typesChild := Shows.child? [name] types [] shows
      (by simpa using named.otherKind (by decide)) typed.kind
    rw [Resolver.parameter, requiredChild_eq nameChild, pure_bind, requiredChild_eq typesChild,
      pure_bind]
    refine (declared_enacts sound typed).bind ?_
    rintro ty _ asked ⟨same, kept⟩
    subst same
    exact (Pass.bindName_enacts named inner ty).weaken fun _ _ _ keptToo => keptToo.trans kept

/-! ### Returns -/

section Returns
variable {sites : List Return}

/-- A return is checked as the program checks it. -/
theorem Typing.checkReturn_agrees {view : View} (sound : view.tree.Sound) {item : NodeId × ScopeId}
    {site : Return} (stands : SiteAt view.tree item site) (ty : Ty) :
    Agrees (checkReturn view ty item) (site.check view.scopes ty) := by
  rcases item with ⟨id, scope⟩
  rcases site with ⟨value, other⟩
  obtain ⟨same, ids, shows, inner⟩ := stands
  cases same
  obtain ⟨_, held⟩ := shows.node
  have typed : Agrees (returned view (id, scope)) (Return.type view.scopes ⟨value, scope⟩) := by
    cases value with
    | none =>
      cases inner
      have nothing := shows.child?_none .baseExpression (by simp)
      simp only [returned, nothing, Attempt.guard, pure_bind]
      exact .pure _
    | some value =>
      cases inner with
      | @cons _ innerId _ _ stands others =>
        cases others
        have innerChild := shows.child? [] innerId [] (by simp) stands.kind_wrapped
        simp only [returned, innerChild, Attempt.guard, pure_bind]
        exact (expression_agrees view sound stands).congr (by rw [Expr.type]; rfl)
  refine typed.bind fun found => ?_
  by_cases fits : ty.accepts found = true
  · simp only [if_pos fits]
    exact .pure ()
  · simp only [if_neg fits]
    exact .report held

/-- The returns of a body are checked as the program checks them. -/
theorem checkReturns_enacts (sound : tree.Sound) (held : Shows tree.nodes body .nestedBlock "" slots)
    (tallied : Tallied tree before.known slots inner sites) (ty : Ty) :
    Enacts (tree.resolver.checkReturns body inner ty) before
      (Scene.ask fun scopes => sites.forM (Return.check scopes ty)) fun _ _ after =>
        after.annotations = before.known.annotations := by
  obtain ⟨_, found⟩ := held.node
  have lower := held.lower sound (Nat.lt_succ_of_le (tree.height_le body))
  obtain ⟨items, met, stand⟩ := tallied (before.known.view tree) tree.size rfl
    (fun _ _ _ _ => rfl) lower
  have reached : Typing.returnSites (before.known.view tree) body inner = .whole items := by
    refine (Typing.returnSitesWithin_succ found tree.size inner).trans met
  have agrees : Typing.Agrees (Typing.checkReturns (before.known.view tree) body inner ty)
      (sites.forM (Return.check before.known.scopes ty)) := by
    rw [Typing.checkReturns, reached, forEach_whole]
    exact .forM (stand.flip.imp fun _ _ stands => Typing.checkReturn_agrees sound stands ty)
  exact (Pass.ask_enacts agrees).weaken fun _ _ _ kept => kept.2

end Returns

/-! ### Loops and functions -/

/-- What was handled in the body of a construct with a scope of its own was handled at the
construct. -/
theorem Opened.handled (scope : ScopeId) {sites : List Return} {header : NodeId}
    {start opening between finish : Snapshot}
    (opened : Opened id inner start opening) (sound : tree.Sound) (once : tree.PlacesOnce)
    (shows : Shows tree.nodes id .foreachBlock "" [header, body])
    (inert : Inert tree.nodes header) (kept : between.annotations = opening.annotations)
    (handled : Handled tree [body] inner sites between finish) :
    Handled tree [id] scope sites start finish := by
  have apart := (List.pairwise_cons.1 (shows.parted sound once)).1
  have passed : Handled tree [header] inner [] opening between :=
    .passed sound (by simpa using inert) kept
  have own : (opening.annotations.get? id).getD scope = inner := by
    rw [opened id, if_pos rfl]
    rfl
  have above := (passed.append handled (by simpa using apart)).above sound shows (by decide)
    (by decide) own
  exact ⟨opened.spared above.spared, above.tallied⟩

theorem performs_foreach {header : NodeId} {iterable : Expr} {names : List String}
    (sound : tree.Sound) (once : tree.PlacesOnce)
    (shows : Shows tree.nodes id .foreachBlock "" [header, body])
    (opens : OpeningAt tree.nodes (.foreachBlock iterable names) header)
    (held : Shows tree.nodes body .nestedBlock "" slots)
    (performs : List.Forall₂ (fun part id => Performs tree visit id fun scope => part.run scope)
      parts slots) :
    Performs tree (tree.resolver.visitWith visit) id fun scope =>
      (Part.scoped (.foreachBlock iterable names) parts).run scope := by
  intro scope before free
  show Enacts (Pass.record _ >>= fun _ => _) before
    ((Part.scoped (.foreachBlock iterable names) parts).run scope) _
  refine Enacts.record ?_
  obtain ⟨_, found⟩ := shows.node
  have inert := opens.inert
  have bodyChild := opens.body_child shows held.kind
  cases opens with
  | @foreachBlock _ innerId output ids _ _ opens stands outputs named =>
    have wrapped := stands.kind_wrapped
    have headerChild := shows.child? [] header [body] (by simp) opens.kind
    have iterableChild := opens.child? [] innerId [output] (by simp) wrapped
    have outputChild := Shows.child? [innerId] output [] opens
      (by simpa using ⟨_, wrapped, by decide⟩) outputs.kind
    have outputNames : tree.childrenOfKind output .name = .whole ids := by
      refine Shows.childrenOfKind [] ids [] (by simpa using outputs) (by simp) ?_ (by simp)
      exact forall_of_forall₂ named fun _ _ named => named.kind
    simp only [Resolver.handle, Resolver.node, found, Attempt.guard, pure_bind,
      Resolver.foreachBlock, Resolver.loopBody, Part.run, Opening.begin, Opening.finish,
      bind_assoc, Resolver.child?, requiredChild_eq headerChild,
      requiredChild_eq outputChild, iterableChild, outputNames, forEach_whole]
    refine (Pass.openScope_enacts (some scope) .loop).bind ?_
    rintro inner _ created ⟨same, kept⟩
    subst same
    have stillFree : created.known.Free tree [id] := free.of_eq kept
    refine attach_enacts (stillFree id (by simp) id .refl) fun now opened => ?_
    refine (expression_enacts sound stands scope).discard.bind ?_
    rintro _ _ asked ⟨_, _, _, keptAsked⟩
    refine (loopVariables_enacts named inner).bind fun _ _ bound keptBound => Enacts.record ?_
    have still : bound.known.annotations = now.known.annotations := keptBound.trans keptAsked
    have freeBody : (bound.noted (.ready inner) bound.known).known.Free tree [body] :=
      (opened.free sound stillFree (by simpa using shows.childOf (by simp))).of_eq still
    rw [bind_pure]
    refine (body_enacts sound once performs bodyChild held freeBody).discard_left.weaken ?_
    rintro _ sites after ⟨_, rfl, inSlots⟩
    have handled := opened.handled scope sound once shows inert still
      (inSlots.inBody sound held freeBody)
    exact ⟨Spared.trans (.of_eq kept) handled.spared, handled.tallied⟩

/-- The arguments of a signature are its parameters, and what it returns comes behind them. -/
theorem Shows.signature {header nameId : NodeId} {paramIds outputIds : List NodeId} {name : String}
    {params : List (String × Written)} {output : Option Written}
    (opens : Shows tree.nodes header .functionStatement "" (nameId :: (paramIds ++ outputIds)))
    (named : NameAt tree.nodes name nameId)
    (parameters : List.Forall₂ (ParameterAt tree.nodes) params paramIds)
    (returns : List.Forall₂ (OutputAt tree.nodes) output.toList outputIds) :
    tree.childrenOfKind header .typedArgument = .whole paramIds ∧
      ∀ child ∈ nameId :: paramIds, tree.OtherKind .functionOutput child := by
  have paramKind : ∀ id ∈ paramIds, tree.kind id = .ok .typedArgument :=
    forall_of_forall₂ parameters fun _ _ ⟨shows, _, _⟩ => shows.kind
  have outputKind : ∀ id ∈ outputIds, tree.kind id = .ok .functionOutput :=
    forall_of_forall₂ returns fun _ _ ⟨shows, _⟩ => shows.kind
  refine ⟨?_, List.forall_mem_cons.2 ⟨named.otherKind (by decide), ?_⟩⟩
  · exact Shows.childrenOfKind [nameId] paramIds outputIds opens
      (by simpa using named.otherKind (by decide)) paramKind
      fun id member => ⟨_, outputKind id member, by decide⟩
  · exact fun id member => ⟨_, paramKind id member, by decide⟩

/-- The type that a signature says is returned is the one that is written there. -/
theorem returnType_enacts {header : NodeId} {outputIds : List NodeId} {output : Option Written}
    (sound : tree.Sound) (shows : Shows tree.nodes header kind text (children ++ outputIds))
    (others : ∀ child ∈ children, tree.OtherKind .functionOutput child)
    (returns : List.Forall₂ (OutputAt tree.nodes) output.toList outputIds) :
    Enacts (tree.resolver.returnType header) before (Opening.returnType output)
      fun value twin after => value = twin ∧ after.annotations = before.known.annotations := by
  cases output with
  | none =>
    cases returns
    have nothing := shows.child?_none .functionOutput (by simpa using others)
    simp only [Resolver.returnType, Resolver.child?, nothing, Attempt.guard, pure_bind,
      Opening.returnType]
    exact .pure ⟨rfl, rfl⟩
  | some written =>
    cases returns with
    | @cons _ outputId _ _ stands none =>
      cases none
      cases stands with
      | @mk _ types _ opens typed =>
        have outputChild := Shows.child? children outputId [] shows others opens.kind
        have typesChild := opens.child? [] types [] (by simp) typed.kind
        simp only [Resolver.returnType, Resolver.child?, outputChild, Attempt.guard, pure_bind,
          requiredChild_eq typesChild]
        exact declared_enacts sound typed

theorem performs_function {header : NodeId} {name : String} {params : List (String × Written)}
    {output : Option Written} (sound : tree.Sound) (once : tree.PlacesOnce)
    (shows : Shows tree.nodes id .functionBlock "" [header, body])
    (opens : OpeningAt tree.nodes (.functionBlock name params output) header)
    (held : Shows tree.nodes body .nestedBlock "" slots)
    (performs : List.Forall₂ (fun part id => Performs tree visit id fun scope => part.run scope)
      parts slots) :
    Performs tree (tree.resolver.visitWith visit) id fun scope =>
      (Part.scoped (.functionBlock name params output) parts).run scope := by
  intro scope before free
  show Enacts (Pass.record _ >>= fun _ => _) before
    ((Part.scoped (.functionBlock name params output) parts).run scope) _
  refine Enacts.record ?_
  obtain ⟨_, found⟩ := shows.node
  have bodyChild := opens.body_child shows held.kind
  cases opens with
  | @functionBlock _ nameId paramIds outputIds _ _ _ opens named parameters returns =>
    have headerChild := shows.child? [] header [body] (by simp) opens.kind
    obtain ⟨arguments, beforeOutput⟩ := opens.signature named parameters returns
    simp only [Resolver.handle, Resolver.node, found, Attempt.guard, pure_bind,
      Resolver.functionBlock, Resolver.signature, Part.run, Opening.begin, Opening.finish,
      bind_assoc, requiredChild_eq headerChild, arguments, forEach_whole]
    refine (Pass.openScope_enacts none .function).bind ?_
    rintro inner _ created ⟨same, keptFirst⟩
    subst same
    refine (forM_enacts (parameters.imp fun _ _ stands before =>
      parameter_enacts sound stands inner)).bind fun _ _ bound keptBound => Enacts.record ?_
    refine (returnType_enacts sound opens beforeOutput returns).bind ?_
    rintro ty _ signed ⟨same, keptLast⟩
    subst same
    have kept : signed.known.annotations = before.known.annotations :=
      keptLast.trans (keptBound.trans keptFirst)
    have stillFree : signed.known.Free tree [id] := free.of_eq kept
    refine attach_enacts (stillFree id (by simp) id .refl) fun now opened => ?_
    have bodyBelow : tree.ChildOf body id := shows.childOf (by simp)
    have freeBody : now.known.Free tree [body] :=
      opened.free sound stillFree (by simpa using bodyBelow)
    refine (body_enacts sound once performs bodyChild held freeBody).bind ?_
    rintro value sites ran ⟨same, inSlots⟩
    subst value
    have handled := inSlots.inBody sound held freeBody
    rw [← bind_pure (tree.resolver.checkReturns body inner ty)]
    refine (checkReturns_enacts sound held inSlots.tallied ty).bind fun _ _ after keptAfter => ?_
    refine .pure ⟨?_, .function shows⟩
    have widened : Spared tree [id] now.known ran.known :=
      handled.spared.widen (by simpa using Tree.under_of_childOf bodyBelow)
    exact Spared.trans (.of_eq kept) (opened.spared (widened.trans (.of_eq keptAfter)))

end ScopeTyping
