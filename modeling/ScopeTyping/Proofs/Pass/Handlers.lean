import ScopeTyping.Proofs.Pass.Recording

/-! Every handler carries the chronicle on, if visiting the nodes below does. The handlers
differ in which scope they hand on, and to which nodes: once a handler succeeds, all of
these were visited. -/
namespace ScopeTyping
namespace Resolver

variable {resolver : Resolver} {names : NameTable} {before : Progress} {visit : Visit}
  {id : NodeId} {scope : ScopeId} {node : Node}

/-- Visiting nodes that were handed a scope carries the chronicle on, and visits all that
they hand it on to. -/
def Visits (resolver : Resolver) (names : NameTable) (visit : Visit) : Prop :=
  ∀ id scope before, Kept resolver names before → Ready before.journal scope →
    Handed resolver.tree before.journal id scope →
    Continues resolver names (visit id scope) before
      (fun _ after => Swept resolver.tree after.journal id)

section Visiting

theorem Visits.all (visits : Visits resolver names visit) (kept : Kept resolver names before)
    (ready : Ready before.journal scope) {items : List NodeId}
    (handed : ∀ child ∈ items, Handed resolver.tree before.journal child scope) :
    Continues resolver names (items.forM fun child => visit child scope) before
      (fun _ after => ∀ child ∈ items, Swept resolver.tree after.journal child) := by
  induction items generalizing before with
  | nil => exact Continues.pure kept (by simp)
  | cons item rest step =>
    show Continues resolver names
      (visit item scope >>= fun _ => rest.forM fun child => visit child scope) before _
    have first := visits item scope before kept ready (handed item (List.mem_cons_self ..))
    refine first.bind fun _ between onward swept => ?_
    have others := step onward.kept (ready.later onward.grown) fun child member =>
      (handed child (List.mem_cons_of_mem _ member)).later onward.grown
    refine others.weaken fun _ after further all child member => ?_
    rcases List.mem_cons.1 member with rfl | later
    · exact swept.later further.grown
    · exact all child later

theorem Visits.children (visits : Visits resolver names visit) (kept : Kept resolver names before)
    (ready : Ready before.journal scope) (held : resolver.tree.node id = .ok node)
    (handed : ∀ child ∈ node.children, Handed resolver.tree before.journal child scope) :
    Continues resolver names (resolver.visitChildren visit id scope) before
      (fun _ after => ∀ child ∈ node.children, Swept resolver.tree after.journal child) := by
  unfold visitChildren
  refine Continues.guard_bind kept fun found there => ?_
  cases held.symm.trans there
  exact visits.all kept ready handed

theorem Visits.body (visits : Visits resolver names visit) (kept : Kept resolver names before)
    (ready : Ready before.journal scope) (held : resolver.tree.node id = .ok node)
    (bodied : node.kind.hasBody = true) (hosts : Hosts resolver.tree before.journal id scope) :
    Continues resolver names (resolver.visitBody visit id scope) before
      (fun body after => resolver.tree.child? id .nestedBlock = .ok (some body) ∧
        ∀ inner, resolver.tree.node body = .ok inner → ∀ child ∈ inner.children,
          Swept resolver.tree after.journal child) := by
  unfold visitBody
  refine Continues.requiredChild_bind kept fun body found => ?_
  have statements : Continues resolver names (resolver.visitChildren visit body scope) before
      (fun _ after => ∀ inner, resolver.tree.node body = .ok inner → ∀ child ∈ inner.children,
        Swept resolver.tree after.journal child) := by
    unfold visitChildren
    refine Continues.guard_bind kept fun inner there => ?_
    have handed : ∀ child ∈ inner.children, Handed resolver.tree before.journal child scope :=
      fun child member => ⟨id, hosts, .statement held bodied found there member⟩
    refine (visits.all kept ready handed).weaken fun _ after _ all other otherHeld => ?_
    cases there.symm.trans otherHeld
    exact all
  exact statements.bind fun _ after onward all => Continues.pure onward.kept ⟨found, all⟩

theorem Visits.branches (visits : Visits resolver names visit) (kept : Kept resolver names before)
    (ready : Ready before.journal scope) (held : resolver.tree.node id = .ok node)
    (branched : node.kind.hasBranches = true) (hosts : Hosts resolver.tree before.journal id scope)
    {body : NodeId} (found : resolver.tree.child? id .nestedBlock = .ok (some body)) :
    Continues resolver names (resolver.visitAfter visit id body scope) before
      (fun _ after => ∀ child ∈ node.branches body, Swept resolver.tree after.journal child) := by
  unfold visitAfter
  refine Continues.guard_bind kept fun other there => ?_
  cases held.symm.trans there
  have handed : ∀ child ∈ node.branches body, Handed resolver.tree before.journal child scope :=
    fun child member => ⟨id, hosts, .branch held branched found member⟩
  exact visits.all kept ready handed

end Visiting

/-! ### Whom a node hands its scope to -/

section Hands
variable {tree : Tree} {journal : List Moment} {body : NodeId}

theorem handsSwept_of_children (held : tree.node id = .ok node) (plain : node.kind.hasBody = false)
    (all : ∀ child ∈ node.children, Swept tree journal child) : HandsSwept tree journal id := by
  intro child hands
  cases hands with
  | child there _ member =>
    cases held.symm.trans there
    exact all child member
  | statement there bodied _ _ _ =>
    cases held.symm.trans there
    cases plain.symm.trans bodied
  | branch there branched _ _ =>
    cases held.symm.trans there
    cases plain.symm.trans (Kind.hasBody_of_hasBranches branched)

theorem handsSwept_of_body (held : tree.node id = .ok node) (bodied : node.kind.hasBody = true)
    (found : tree.child? id .nestedBlock = .ok (some body))
    (statements : ∀ inner, tree.node body = .ok inner → ∀ child ∈ inner.children,
      Swept tree journal child)
    (branches : node.kind.hasBranches = true → ∀ child ∈ node.branches body,
      Swept tree journal child) : HandsSwept tree journal id := by
  intro child hands
  cases hands with
  | child there plain _ =>
    cases held.symm.trans there
    cases plain.symm.trans bodied
  | statement there _ otherFound bodyHeld member =>
    cases found.symm.trans otherFound
    exact statements _ bodyHeld child member
  | branch there branched otherFound member =>
    cases held.symm.trans there
    cases found.symm.trans otherFound
    exact branches branched child member

theorem hosts_of_visited (held : tree.node id = .ok node) (plain : node.kind.opensScope = false)
    (visited : Happened journal (.visited id scope)) : Hosts tree journal id scope :=
  ⟨node.kind, Tree.kind_of_node held, by simpa [plain] using visited⟩

theorem hosts_of_attached (held : tree.node id = .ok node) (opens : node.kind.opensScope = true)
    (attached : Happened journal (.attached id scope)) : Hosts tree journal id scope :=
  ⟨node.kind, Tree.kind_of_node held, by simpa [opens] using attached⟩

end Hands

/-! ### The handlers -/

section Handlers

theorem path_continues (kept : Kept resolver names before) {mustExist : Bool} :
    Continues resolver names (resolver.path id scope mustExist) before
      (fun symbol after =>
        Stepped before (.asked (.path id scope mustExist) (.type symbol.ty)) after ∧
        (resolver.rules.path (before.known.view resolver.tree) scope id mustExist).outcome
          before.known.names = (.ok symbol, after.known.names) ∧
        after.known.view resolver.tree = before.known.view resolver.tree) :=
  Pass.ask_continues kept fun _ => rfl

theorem expression_continues (kept : Kept resolver names before) :
    Continues resolver names (resolver.expression id scope) before
      (fun ty after => Stepped before (.asked (.expression id scope) (.type ty)) after ∧
        (resolver.rules.expression (before.known.view resolver.tree) scope id).outcome
          before.known.names = (.ok ty, after.known.names) ∧
        after.known.view resolver.tree = before.known.view resolver.tree) :=
  Pass.ask_continues kept fun _ => rfl

theorem declared_continues (kept : Kept resolver names before) :
    Continues resolver names (resolver.declared id) before
      (fun ty after => Stepped before (.asked (.declared id) (.type ty)) after ∧
        (resolver.rules.declared (before.known.view resolver.tree) id).outcome
          before.known.names = (.ok ty, after.known.names) ∧
        after.known.view resolver.tree = before.known.view resolver.tree) :=
  Pass.ask_continues kept fun _ => rfl

theorem checkReturns_continues (kept : Kept resolver names before) {ty : Ty} :
    Continues resolver names (resolver.checkReturns id scope ty) before
      (fun _ after => Stepped before (.asked (.returns id scope ty) .accepted) after) :=
  (Pass.ask_continues kept fun _ => rfl).weaken fun _ _ _ facts => facts.1

/-- A node without a body visits its children in the scope that it hosts. -/
theorem hostedChildren_continues (visits : Visits resolver names visit)
    (kept : Kept resolver names before) (held : resolver.tree.node id = .ok node)
    (plain : node.kind.hasBody = false) (ready : Ready before.journal scope)
    (hosts : Hosts resolver.tree before.journal id scope) :
    Continues resolver names (resolver.visitChildren visit id scope) before
      (fun _ after => HandsSwept resolver.tree after.journal id) := by
  have handed : ∀ child ∈ node.children, Handed resolver.tree before.journal child scope :=
    fun child member => ⟨id, hosts, .child held plain member⟩
  apply (visits.children kept ready held handed).weaken
  exact fun _ _ _ all => handsSwept_of_children held plain all

/-- A node that opens a scope visits its children in it. -/
theorem enclose_continues (visits : Visits resolver names visit) (kept : Kept resolver names before)
    (held : resolver.tree.node id = .ok node) (opens : node.kind.opensScope = true)
    (plain : node.kind.hasBody = false)
    (entered : (id = resolver.tree.root ∧ node.kind = .start) ∨
      ∃ around, Happened before.journal (.visited id around))
    {parent : Option ScopeId} {kind : ScopeKind}
    (ready : ∀ around, parent = some around → Ready before.journal around) :
    Continues resolver names (resolver.enclose visit id parent kind) before
      (fun _ after => HandsSwept resolver.tree after.journal id) := by
  refine (Pass.openScope_continues kept kind ready).bind fun inner opened first pending => ?_
  obtain ⟨_, found, there, _⟩ := pending
  apply (Pass.ready_continues first.kept (Forest.lt_size_of_scope there)).bind
  intro _ bound second innerReady
  have enteredLater : (id = resolver.tree.root ∧ node.kind = .start) ∨
      ∃ around, Happened bound.journal (.visited id around) :=
    entered.imp_right fun ⟨around, visited⟩ =>
      ⟨around, visited.later (first.grown.trans second.grown)⟩
  apply (Pass.attach_continues second.kept (Tree.kind_of_node held) opens enteredLater).bind
  intro _ attached third stepped
  exact hostedChildren_continues visits third.kept held plain (innerReady.later third.grown)
    (hosts_of_attached held opens stepped.happened)

/-- The sides of an assignment are typed in one view; the value knows the names that its path
left behind. -/
structure Sided (resolver : Resolver) (now after : Snapshot) (id : NodeId) (scope : ScopeId)
    (path value : NodeId) (target : Symbol) (ty : Ty) (between : NameTable) : Prop where
  pathChild : resolver.tree.child? id .path = .ok (some path)
  valueChild : ∃ fragment, resolver.tree.child? id .assignmentFragment = .ok (some fragment) ∧
    resolver.tree.child? fragment .baseExpression = .ok (some value)
  asked : (resolver.rules.path (now.view resolver.tree) scope path false).outcome now.names =
    (.ok target, between)
  typed : (resolver.rules.expression (now.view resolver.tree) scope value).outcome between =
    (.ok ty, after.names)
  same : now.view resolver.tree = after.view resolver.tree

theorem sides_continues (kept : Kept resolver names before) :
    Continues resolver names (resolver.sides id scope) before
      (fun (path, target, ty) after => ∃ value between,
        Sided resolver before.known after.known id scope path value target ty between) := by
  unfold sides
  refine Continues.requiredChild_bind kept fun path pathChild => ?_
  refine (path_continues kept).bind fun target asked first ⟨_, led, askedView⟩ => ?_
  refine Continues.requiredChild_bind first.kept fun fragment fragmentChild => ?_
  refine Continues.requiredChild_bind first.kept fun value valueChild => ?_
  refine (expression_continues first.kept).bind fun ty typed second ⟨_, found, typedView⟩ => ?_
  rw [askedView] at found
  exact Continues.pure second.kept ⟨value, asked.known.names, pathChild,
    ⟨fragment, fragmentChild, valueChild⟩, led, found, (typedView.trans askedView).symm⟩

theorem assignment_continues (visits : Visits resolver names visit)
    (kept : Kept resolver names before) (held : resolver.tree.node id = .ok node)
    (kind : node.kind = .assignment) (ready : Ready before.journal scope)
    (visited : Happened before.journal (.visited id scope)) :
    Continues resolver names (resolver.assignment visit id scope) before
      (fun _ after => HandsSwept resolver.tree after.journal id ∧
        ∃ path value target ty earlier later between, Assigned resolver names after.journal id scope
          path value target ty earlier later between) := by
  unfold assignment
  refine (sides_continues kept).bind fun (path, target, ty) typed first sided => ?_
  obtain ⟨value, between, sided⟩ := sided
  have readyNow : Ready typed.journal scope := ready.later first.grown
  have plain : node.kind.hasBody = false := by simp [kind, Kind.hasBody]
  have children : ∀ later, Onward resolver names typed later →
      Continues resolver names (resolver.visitChildren visit id scope) later
        (fun _ after => HandsSwept resolver.tree after.journal id) := by
    intro later onward
    have past := first.trans onward
    exact hostedChildren_continues visits onward.kept held plain (ready.later past.grown)
      (hosts_of_visited held (by simp [kind, Kind.opensScope]) (visited.later past.grown))
  have assigned : ∀ {after : Progress}, typed.journal <:+ after.journal →
      ((target.ty.isAbsent = false ∧ target.ty.accepts ty = true) ∨
        (target.ty.isAbsent = true ∧ ∃ head node symbol known,
          resolver.tree.child? path .name = .ok (some head) ∧ resolver.tree.node head = .ok node ∧
          known.names.text? symbol.name = some node.text ∧
          symbol.ty = (if ty.isAbsent then .any else ty) ∧
          (⟨.bound scope symbol, known⟩ :: typed.journal) <:+ after.journal)) →
      Assigned resolver names after.journal id scope path value target ty before.journal
        typed.journal between := by
    intro after reached settled
    obtain ⟨pathChild, valueChild, asked, answered, _⟩ := sided
    rw [first.kept.current] at answered
    rw [kept.current] at asked answered
    exact ⟨pathChild, valueChild, ready, first.grown, reached, asked, answered, settled⟩
  dsimp only
  by_cases unknown : target.ty.isAbsent = true
  · rw [if_pos unknown]
    refine Continues.requiredChild_bind first.kept fun head headChild => ?_
    have binder : Binder resolver typed.journal typed.known scope head
        (if ty.isAbsent then .any else ty) :=
      .assigned readyNow headChild (sided.same ▸ sided.asked) (sided.same ▸ sided.typed) unknown
    refine (Pass.bind_continues first.kept binder).bind fun _ bound second facts => ?_
    obtain ⟨headNode, name, headHeld, named, stepped⟩ := facts
    refine (children bound second).weaken fun _ after third swept => ⟨swept, ?_⟩
    refine ⟨path, value, target, ty, _, _, _, assigned (second.grown.trans third.grown) (.inr ?_)⟩
    exact ⟨unknown, head, headNode, _, bound.known, headChild, headHeld, named, rfl,
      stepped.journal ▸ third.grown⟩
  · rw [if_neg unknown]
    by_cases fits : target.ty.accepts ty = true
    · rw [if_pos fits]
      refine (children typed (.refl first.kept)).weaken fun _ after second swept => ⟨swept, ?_⟩
      refine ⟨path, value, target, ty, _, _, _, assigned second.grown (.inl ⟨?_, fits⟩)⟩
      exact Bool.eq_false_iff.2 unknown
    · rw [if_neg fits]
      unfold Attempt.report
      simp only [bind_assoc]
      exact Continues.guard_bind first.kept fun _ _ => Continues.throw first.kept

/-- A construct whose body shares its scope visits the body. -/
theorem sharedBody_continues (visits : Visits resolver names visit)
    (kept : Kept resolver names before) (held : resolver.tree.node id = .ok node)
    (bodied : node.kind.hasBody = true) (shares : node.kind.opensScope = false)
    (ready : Ready before.journal scope) (visited : Happened before.journal (.visited id scope)) :
    Continues resolver names (resolver.visitBody visit id scope) before
      (fun body after => resolver.tree.child? id .nestedBlock = .ok (some body) ∧
        ∀ inner, resolver.tree.node body = .ok inner → ∀ child ∈ inner.children,
          Swept resolver.tree after.journal child) :=
  visits.body kept ready held bodied (hosts_of_visited held shares visited)

theorem discardBody_continues (visits : Visits resolver names visit)
    (kept : Kept resolver names before) (held : resolver.tree.node id = .ok node)
    (bodied : node.kind.hasBody = true) (shares : node.kind.opensScope = false)
    (alone : node.kind.hasBranches = false)
    (ready : Ready before.journal scope) (visited : Happened before.journal (.visited id scope)) :
    Continues resolver names (discard (resolver.visitBody visit id scope)) before
      (fun _ after => HandsSwept resolver.tree after.journal id) := by
  apply (sharedBody_continues visits kept held bodied shares ready visited).discard.weaken
  rintro _ after _ ⟨body, found, statements⟩
  refine handsSwept_of_body held bodied found statements fun branched => ?_
  cases alone.symm.trans branched

/-- A construct visits its body and then the branches behind it, all in one scope. -/
theorem branching_continues (visits : Visits resolver names visit)
    (kept : Kept resolver names before) (held : resolver.tree.node id = .ok node)
    (branched : node.kind.hasBranches = true) (shares : node.kind.opensScope = false)
    (ready : Ready before.journal scope) (visited : Happened before.journal (.visited id scope)) :
    Continues resolver names (resolver.branching visit id scope) before
      (fun _ after => HandsSwept resolver.tree after.journal id) := by
  have bodied := Kind.hasBody_of_hasBranches branched
  apply (sharedBody_continues visits kept held bodied shares ready visited).bind
  intro body between first facts
  obtain ⟨found, statements⟩ := facts
  have hosts := hosts_of_visited held shares (visited.later first.grown)
  apply (visits.branches first.kept (ready.later first.grown) held branched hosts found).weaken
  intro _ after second branches
  refine handsSwept_of_body held bodied found (fun inner there child member => ?_) fun _ => branches
  exact (statements inner there child member).later second.grown

theorem condition_continues (kept : Kept resolver names before) {header : Kind} :
    Continues resolver names (resolver.condition header id scope) before (fun _ _ => True) := by
  unfold condition
  refine Continues.requiredChild_bind kept fun header _ => ?_
  refine Continues.requiredChild_bind kept fun condition _ => ?_
  exact (expression_continues kept).discard.weaken fun _ _ _ _ => trivial

/-- Going through items carries the chronicle on, and keeps what each item keeps. -/
theorem forEach_continues {ι : Type} {walk : Walk ι} {next : ι → Pass Unit}
    {keeps : Progress → Prop} (each : ∀ item between, Onward resolver names before between →
      keeps between → Continues resolver names (next item) between (fun _ after => keeps after))
    (kept : Kept resolver names before) (holds : keeps before) :
    Continues resolver names (walk.forEach next) before (fun _ after => keeps after) := by
  have items : ∀ (items : List ι) between, Onward resolver names before between → keeps between →
      Continues resolver names (items.forM next) between (fun _ after => keeps after) := by
    intro items
    induction items with
    | nil => exact fun between onward holds => Continues.pure onward.kept holds
    | cons item rest step =>
      intro between onward holds
      show Continues resolver names (next item >>= fun _ => rest.forM next) between _
      refine (each item between onward holds).bind fun _ after further still => ?_
      exact step after (onward.trans further) still
  unfold Walk.forEach
  refine (items walk.items before (.refl kept) holds).bind fun _ after onward still => ?_
  cases walk.fault with
  | some fault => exact Continues.throw onward.kept
  | none => exact Continues.pure onward.kept still

theorem Pending.binder {progress : Progress} (pending : Pending progress scope .loop) {name : NodeId} :
    Binder resolver progress.journal progress.known scope name .any := by
  obtain ⟨unready, found, held, loop⟩ := pending
  exact .loopVariable held loop unready

/-- A loop binds its variables and then visits its body. -/
theorem loopBody_continues (visits : Visits resolver names visit)
    (kept : Kept resolver names before) (held : resolver.tree.node id = .ok node)
    (kind : node.kind = .foreachBlock) (pending : Pending before scope .loop)
    (attached : Happened before.journal (.attached id scope)) {header : NodeId} :
    Continues resolver names (resolver.loopBody visit id header scope) before
      (fun _ after => HandsSwept resolver.tree after.journal id) := by
  unfold loopBody
  refine Continues.requiredChild_bind kept fun output _ => ?_
  have loopNames : Continues resolver names
      ((resolver.tree.childrenOfKind output .name).forEach fun name =>
        Pass.bind resolver.tree scope name .any) before
      (fun _ after => Pending after scope .loop) := by
    refine forEach_continues (fun name between onward pending => ?_) kept pending
    apply (Pass.bind_continues onward.kept (Pending.binder pending)).weaken
    rintro _ after _ ⟨_, _, _, _, bound⟩
    exact bound.pending scope .loop (by simp) pending
  refine loopNames.bind fun _ bound first stillPending => ?_
  obtain ⟨_, found, there, _⟩ := stillPending
  apply (Pass.ready_continues first.kept (Forest.lt_size_of_scope there)).bind
  intro _ isReady second ready
  have bodied : node.kind.hasBody = true := by simp [kind, Kind.hasBody]
  have hosts := hosts_of_attached held (by simp [kind, Kind.opensScope])
    (attached.later (first.trans second).grown)
  apply (visits.body second.kept ready held bodied hosts).discard.weaken
  rintro _ after _ ⟨body, found, statements⟩
  refine handsSwept_of_body held bodied found statements fun branched => ?_
  simp [kind, Kind.hasBranches] at branched

theorem foreachBlock_continues (visits : Visits resolver names visit)
    (kept : Kept resolver names before) (held : resolver.tree.node id = .ok node)
    (kind : node.kind = .foreachBlock) (ready : Ready before.journal scope)
    (visited : Happened before.journal (.visited id scope)) :
    Continues resolver names (resolver.foreachBlock visit id scope) before
      (fun _ after => HandsSwept resolver.tree after.journal id) := by
  have readyParent : ∀ around, some scope = some around → Ready before.journal around :=
    fun around same => Option.some.inj same ▸ ready
  unfold foreachBlock
  refine (Pass.openScope_continues kept .loop readyParent).bind fun inner opened first pending => ?_
  have opens : node.kind.opensScope = true := by simp [kind, Kind.opensScope]
  have entered : (id = resolver.tree.root ∧ node.kind = .start) ∨
      ∃ around, Happened opened.journal (.visited id around) := .inr ⟨scope, visited.later first.grown⟩
  apply (Pass.attach_continues first.kept (Tree.kind_of_node held) opens entered).bind
  intro _ attached second stepped
  have stillPending := stepped.pending inner .loop (by simp) pending
  refine Continues.requiredChild_bind second.kept fun header headerChild => ?_
  refine Continues.guard_bind second.kept fun iterable _ => ?_
  dsimp only
  cases iterable with
  | some iterable =>
    refine (expression_continues second.kept).discard.bind fun _ typed third facts => ?_
    obtain ⟨ty, asked, _⟩ := facts
    exact loopBody_continues visits third.kept held kind
      (asked.pending inner .loop (by simp) stillPending) (stepped.happened.later third.grown)
  | none => exact loopBody_continues visits second.kept held kind stillPending stepped.happened

/-- A parameter is bound in a function whose header is still open. -/
theorem parameter_continues (kept : Kept resolver names before)
    (pending : Pending before scope .function) :
    Continues resolver names (resolver.parameter scope id) before
      (fun _ after => Pending after scope .function) := by
  unfold parameter
  refine Continues.requiredChild_bind kept fun name _ => ?_
  refine Continues.requiredChild_bind kept fun types _ => ?_
  refine (declared_continues kept).bind fun ty read first facts => ?_
  obtain ⟨asked, ran, sameView⟩ := facts
  have stillPending := asked.pending scope .function (by simp) pending
  obtain ⟨unready, found, there, function⟩ := stillPending
  rw [← sameView] at ran
  apply (Pass.bind_continues first.kept (.parameter there function unready ran)).weaken
  rintro _ after _ ⟨_, _, _, _, bound⟩
  exact bound.pending scope .function (by simp) ⟨unready, found, there, function⟩

theorem returnType_continues (kept : Kept resolver names before) :
    Continues resolver names (resolver.returnType id) before
      (fun ty _ => Declares resolver id ty) := by
  unfold returnType
  refine Continues.guard_bind kept fun answer known => ?_
  cases answer with
  | none => exact Continues.pure kept (.inl ⟨known, rfl⟩)
  | some output =>
    refine Continues.requiredChild_bind kept fun types typesChild => ?_
    refine (declared_continues kept).weaken fun ty after _ facts => ?_
    exact .inr ⟨output, types, before.known, _, _, known, typesChild, facts.2.1⟩

theorem signature_continues (kept : Kept resolver names before) :
    Continues resolver names (resolver.signature id) before
      (fun answer after => Ready after.journal answer.1 ∧ Declares resolver id answer.2) := by
  have outermost : ∀ around, (none : Option ScopeId) = some around → Ready before.journal around :=
    fun around impossible => by cases impossible
  unfold signature
  refine (Pass.openScope_continues kept .function outermost).bind fun scope opened first pending => ?_
  have parameters : Continues resolver names
      ((resolver.tree.childrenOfKind id .typedArgument).forEach (resolver.parameter scope)) opened
      (fun _ after => Pending after scope .function) :=
    forEach_continues (fun _ _ onward pending => parameter_continues onward.kept pending)
      first.kept pending
  refine parameters.bind fun _ bound second stillPending => ?_
  obtain ⟨_, found, there, _⟩ := stillPending
  apply (Pass.ready_continues second.kept (Forest.lt_size_of_scope there)).bind
  intro _ isReady third ready
  refine (returnType_continues third.kept).bind fun ty after fourth declares => ?_
  exact Continues.pure fourth.kept ⟨ready.later fourth.grown, declares⟩

theorem functionBlock_continues (visits : Visits resolver names visit)
    (kept : Kept resolver names before) (held : resolver.tree.node id = .ok node)
    (kind : node.kind = .functionBlock) (visited : Happened before.journal (.visited id scope)) :
    Continues resolver names (resolver.functionBlock visit id) before
      (fun _ after => HandsSwept resolver.tree after.journal id ∧
        ∃ header body inner ty past known,
          Checked resolver after.journal id header body inner ty past known) := by
  unfold functionBlock
  refine Continues.requiredChild_bind kept fun header headerChild => ?_
  refine (signature_continues kept).bind fun answer signed first facts => ?_
  obtain ⟨inner, ty⟩ := answer
  obtain ⟨ready, declares⟩ := facts
  have opens : node.kind.opensScope = true := by simp [kind, Kind.opensScope]
  have entered : (id = resolver.tree.root ∧ node.kind = .start) ∨
      ∃ around, Happened signed.journal (.visited id around) := .inr ⟨scope, visited.later first.grown⟩
  apply (Pass.attach_continues first.kept (Tree.kind_of_node held) opens entered).bind
  intro _ attached second stepped
  have bodied : node.kind.hasBody = true := by simp [kind, Kind.hasBody]
  have hosts := hosts_of_attached held opens stepped.happened
  have readyNow : Ready attached.journal inner := ready.later second.grown
  apply (visits.body second.kept readyNow held bodied hosts).bind
  rintro body between third ⟨found, statements⟩
  have swept : HandsSwept resolver.tree between.journal id := by
    refine handsSwept_of_body held bodied found statements fun branched => ?_
    simp [kind, Kind.hasBranches] at branched
  refine (checkReturns_continues third.kept).weaken fun _ after fourth accepted => ?_
  refine ⟨fun child hands => (swept child hands).later fourth.grown,
    header, body, inner, ty, between.journal, after.known, ?_⟩
  exact {
    headerChild, bodyChild := found, declares, swept
    attached := stepped.happened.later third.grown
    ready := readyNow.later third.grown
    accepted := accepted.journal ▸ List.suffix_refl _ }

/-! ### Whole runs -/

theorem finished_of_kind {journal : List Moment} (held : resolver.tree.node id = .ok node)
    (noAssignment : node.kind ≠ .assignment) (noFunction : node.kind ≠ .functionBlock) :
    Finished resolver names journal id scope := by
  have known := Tree.kind_of_node held
  constructor
  · intro kind
    exact absurd (Except.ok.inj (known.symm.trans kind)) noAssignment
  · intro kind
    exact absurd (Except.ok.inj (known.symm.trans kind)) noFunction

/-- The handler of a node's kind carries the chronicle on and finishes the visit. -/
theorem handle_continues (visits : Visits resolver names visit) (kept : Kept resolver names before)
    (ready : Ready before.journal scope) (visited : Happened before.journal (.visited id scope)) :
    Continues resolver names (resolver.handle visit id scope) before
      (fun _ after => HandsSwept resolver.tree after.journal id ∧
        Finished resolver names after.journal id scope) := by
  refine Continues.guard_bind kept fun node held => ?_
  have around : ∀ around, some scope = some around → Ready before.journal around :=
    fun around same => Option.some.inj same ▸ ready
  have outermost : ∀ around, (none : Option ScopeId) = some around → Ready before.journal around :=
    fun around impossible => by cases impossible
  have finish : ∀ {pass : Pass Unit}, node.kind ≠ .assignment → node.kind ≠ .functionBlock →
      Continues resolver names pass before (fun _ after => HandsSwept resolver.tree after.journal id) →
      Continues resolver names pass before (fun _ after =>
        HandsSwept resolver.tree after.journal id ∧ Finished resolver names after.journal id scope) :=
    fun noAssignment noFunction continues => continues.weaken fun _ _ _ swept =>
      ⟨swept, finished_of_kind held noAssignment noFunction⟩
  cases kind : node.kind with
  | start =>
    apply finish (by simp [kind]) (by simp [kind])
    exact enclose_continues visits kept held (by simp [kind, Kind.opensScope])
      (by simp [kind, Kind.hasBody]) (.inr ⟨scope, visited⟩) outermost
  | nestedBlock =>
    apply finish (by simp [kind]) (by simp [kind])
    exact enclose_continues visits kept held (by simp [kind, Kind.opensScope])
      (by simp [kind, Kind.hasBody]) (.inr ⟨scope, visited⟩) around
  | assignment =>
    apply (assignment_continues visits kept held kind ready visited).weaken
    rintro _ after _ ⟨swept, assigned⟩
    refine ⟨swept, fun _ => assigned, fun function => ?_⟩
    simp [Tree.kind_of_node held, kind] at function
  | foreachBlock =>
    apply finish (by simp [kind]) (by simp [kind])
    exact foreachBlock_continues visits kept held kind ready visited
  | whileBlock | whenBlock | elseBlock =>
    apply finish (by simp [kind]) (by simp [kind])
    exact discardBody_continues visits kept held (by simp [kind, Kind.hasBody])
      (by simp [kind, Kind.opensScope]) (by simp [kind, Kind.hasBranches]) ready visited
  | ifBlock =>
    apply finish (by simp [kind]) (by simp [kind])
    refine (condition_continues kept).bind fun _ between onward _ => ?_
    exact branching_continues visits onward.kept held (by simp [kind, Kind.hasBranches])
      (by simp [kind, Kind.opensScope]) (ready.later onward.grown) (visited.later onward.grown)
  | elseifBlock =>
    apply finish (by simp [kind]) (by simp [kind])
    refine (condition_continues kept).bind fun _ between onward _ => ?_
    exact discardBody_continues visits onward.kept held (by simp [kind, Kind.hasBody])
      (by simp [kind, Kind.opensScope]) (by simp [kind, Kind.hasBranches])
      (ready.later onward.grown) (visited.later onward.grown)
  | tryBlock =>
    apply finish (by simp [kind]) (by simp [kind])
    exact branching_continues visits kept held (by simp [kind, Kind.hasBranches])
      (by simp [kind, Kind.opensScope]) ready visited
  | functionBlock =>
    apply (functionBlock_continues visits kept held kind visited).weaken
    rintro _ after _ ⟨swept, checked⟩
    refine ⟨swept, fun assignment => ?_, fun _ => checked⟩
    simp [Tree.kind_of_node held, kind] at assignment
  | _ =>
    apply finish (by simp [kind]) (by simp [kind])
    exact hostedChildren_continues visits kept held (by simp [kind, Kind.hasBody]) ready
      (hosts_of_visited held (by simp [kind, Kind.opensScope]) visited)

theorem visitWith_continues (visits : Visits resolver names visit) :
    Visits resolver names (resolver.visitWith visit) := by
  intro id scope before kept ready handed
  obtain ⟨keptEntered, stepped⟩ := stepped_of_step kept (.visited ready handed)
  have grown := List.suffix_cons (⟨.visited id scope, before.known⟩ : Moment) before.journal
  have handled := handle_continues visits keptEntered (ready.later grown) stepped.happened
  refine Attempt.Ensures.weaken handled (fun _ after facts => ?_)
    fun _ after failed => ⟨failed.1, grown.trans failed.2⟩
  obtain ⟨onward, swept, finished⟩ := facts
  refine ⟨⟨onward.kept, grown.trans onward.grown, fun other inner visited => ?_⟩,
    swept_of_visited (stepped.happened.later onward.grown) swept⟩
  rcases onward.finished other inner visited with earlier | done
  · rcases happened_cons.1 earlier with this | before
    · cases this
      exact .inr finished
    · exact .inl before
  · exact .inr done

/-- The pass keeps a chronicle, however deep it goes. -/
theorem visit_continues : Visits resolver names resolver.visit := by
  have within : ∀ depth, Visits resolver names (resolver.visitWithin depth) := by
    intro depth
    induction depth with
    | zero => exact fun id scope before kept _ _ => Continues.throw kept
    | succ depth step => exact visitWith_continues step
  exact within _

theorem visitStory_continues :
    Continues resolver names resolver.visitStory ⟨.initial names, []⟩ (fun _ _ => True) := by
  have kept : Kept resolver names ⟨.initial names, []⟩ := ⟨.begun, rfl⟩
  unfold visitStory
  refine Continues.guard_bind kept fun node held => ?_
  dsimp only
  by_cases story : node.kind = .start
  · rw [if_pos story]
    have outermost : ∀ around, (none : Option ScopeId) = some around → Ready [] around :=
      fun around impossible => by cases impossible
    exact (enclose_continues visit_continues kept held (by simp [story, Kind.opensScope])
      (by simp [story, Kind.hasBody]) (.inl ⟨rfl, story⟩) outermost).weaken fun _ _ _ _ => trivial
  · rw [if_neg story]
    exact Continues.guard_bind kept fun _ _ => Continues.throw kept

end Handlers
end Resolver

/-- The journal of a run, its newest moment first. -/
def Run.history (run : Run) : List Moment := run.journal.reverse

theorem Run.happened_journal {run : Run} {event : Event} :
    Happened run.journal event ↔ Happened run.history event := by
  simp [Happened, Run.history]

section Runs
variable {resolver : Resolver} {names : NameTable} {resolution : Resolution}

/-- Every run leaves a chronicle, whether it succeeds or fails. -/
theorem Resolver.chronicle_run : Chronicle resolver names (resolver.run names).history := by
  have story := @Resolver.visitStory_continues resolver names
  rcases ran : resolver.visitStory.outcome ⟨.initial names, []⟩ with ⟨outcome, progress⟩
  have left : (resolver.run names).history = progress.journal := by
    simp [Run.history, Resolver.run, ran]
  rw [left]
  cases outcome with
  | ok _ => exact (Attempt.ensures_ok story ran).1.kept.chronicle
  | error _ => exact (Attempt.ensures_error story ran).1

/-- Every moment of a run ends a chronicle. -/
theorem Resolver.chronicle_of_mem {moment : Moment}
    (member : moment ∈ (resolver.run names).journal) :
    ∃ past, Chronicle resolver names (moment :: past) := by
  have among : moment ∈ (resolver.run names).history := List.mem_reverse.2 member
  obtain ⟨newer, past, split⟩ := List.append_of_mem among
  have chronicle := @Resolver.chronicle_run resolver names
  rw [split] at chronicle
  exact ⟨past, chronicle.of_append⟩

/-- A run that succeeds tells what it knew at the end, when every visit was over. -/
theorem Resolver.run_finished (succeeds : (resolver.run names).outcome = .ok resolution) :
    (resolver.run names).names = (latest names (resolver.run names).history).names ∧
    resolution = (latest names (resolver.run names).history).resolution ∧
    ∀ id scope, Happened (resolver.run names).history (.visited id scope) →
      Finished resolver names (resolver.run names).history id scope := by
  have story := @Resolver.visitStory_continues resolver names
  rcases ran : resolver.visitStory.outcome ⟨.initial names, []⟩ with ⟨outcome, progress⟩
  have left : resolver.run names =
      ⟨outcome.map fun _ => progress.known.resolution, progress.known.names,
        progress.journal.reverse⟩ := by
    simp [Resolver.run, ran]
  rw [left] at succeeds ⊢
  simp only [Run.history, List.reverse_reverse]
  cases outcome with
  | error _ => cases succeeds
  | ok _ =>
    cases succeeds
    obtain ⟨⟨kept, _, finished⟩, _⟩ := Attempt.ensures_ok story ran
    refine ⟨congrArg Snapshot.names kept.current, congrArg Snapshot.resolution kept.current, ?_⟩
    intro id scope visited
    rcases finished id scope visited with ⟨moment, impossible, _⟩ | done
    · cases impossible
    · exact done

end Runs
end ScopeTyping
