import ScopeTyping.Proofs.Pass.Equivariance
import ScopeTyping.Proofs.Program.Construction
import ScopeTyping.Proofs.Program.Enactment
import ScopeTyping.Proofs.Program.Visits

/-! The pass and the builder agree on the shape of trees. A story that is built as it is meant to
be is never refused for its shape, and once it is resolved every statement that binds, returns or
opens a scope for more than a body has been visited, and visited once
(`Tree.Tells.resolve_agrees`). -/
namespace ScopeTyping

variable {tree : Tree} {id below child : NodeId} {kind : Kind} {text : String}
  {children : List NodeId} {seen : NodeId → Prop}

/-- Kinds of statements that a visit does something about. -/
def Kind.isHandled : Kind → Bool
  | .assignment | .returnStatement | .foreachBlock | .functionBlock => true
  | _ => false

/-- Kinds at which parts of programs stand, but for the blocks that other parts have for bodies. -/
def Kind.isStatement : Kind → Bool
  | .assignment | .returnStatement | .ifBlock | .elseifBlock | .elseBlock | .whileBlock | .whenBlock
  | .foreachBlock | .tryBlock | .functionBlock => true
  | _ => false

theorem Kind.isStatement_of_isHandled (handled : kind.isHandled = true) :
    kind.isStatement = true := by
  revert handled
  cases kind <;> decide

/-! ### Visited at least once -/

/-- Whatever a node that was seen hands its scope to has been seen too. -/
def Tree.Closed (tree : Tree) (seen : NodeId → Prop) : Prop :=
  ∀ id child, seen id → tree.Hands id child → seen child

/-- The statements at and below a node have been seen. -/
def Tree.Covers (tree : Tree) (seen : NodeId → Prop) (id : NodeId) : Prop :=
  ∀ below kind, tree.Under below id → tree.kind below = .ok kind → kind.isStatement = true → seen below

/-- A node that need not be seen covers what its children cover. -/
theorem Tree.Covers.node (shows : Shows tree.nodes id kind text children)
    (here : kind.isStatement = true → seen id) (each : ∀ child ∈ children, tree.Covers seen child) :
    tree.Covers seen id := by
  intro below other under known statement
  rcases shows.under_cases under with rfl | ⟨child, member, further⟩
  · cases shows.kind.symm.trans known
    exact here statement
  · exact each child member below other further known statement

/-- There is no statement at or below an inert node. -/
theorem Inert.covers (inert : Inert tree.nodes id) : tree.Covers seen id := by
  induction inert with
  | @mk id kind text children shows passive _ step =>
    have apart : kind.isStatement = false := by
      revert passive
      cases kind <;> decide
    exact .node shows (fun statement => Bool.noConfusion (apart.symm.trans statement)) step

/-- A body covers what its statements cover. -/
theorem Tree.Covers.body {slots : List NodeId} (held : Shows tree.nodes id .nestedBlock text slots)
    (each : ∀ slot ∈ slots, tree.Covers seen slot) : tree.Covers seen id :=
  .node held (by simp [Kind.isStatement]) each

/-- A kind without a body hands its scope to its children. -/
theorem Shows.hands (shows : Shows tree.nodes id kind text children)
    (plain : kind.hasBody = false) : ∀ child ∈ children, tree.Hands id child := by
  obtain ⟨_, held⟩ := shows.node
  exact fun child member => .child held plain member

/-- A kind with a body hands its scope to the statements in it. -/
theorem Shows.hands_slots {body : NodeId} {slots : List NodeId}
    (shows : Shows tree.nodes id kind text children) (bodied : kind.hasBody = true)
    (found : tree.child? id .nestedBlock = .ok (some body))
    (held : Shows tree.nodes body .nestedBlock "" slots) : ∀ slot ∈ slots, tree.Hands id slot := by
  obtain ⟨_, there⟩ := shows.node
  obtain ⟨_, bodyThere⟩ := held.node
  exact fun slot member => .statement there bodied found bodyThere member

/-- A kind with branches hands its scope to what stands after its body. -/
theorem Shows.hands_branches {header : Header} {heads branches : List NodeId} {body : NodeId}
    (shows : Shows tree.nodes id header.kind "" (heads ++ body :: branches))
    (headed : HeaderAt tree.nodes header heads) (branching : header.branches = true)
    (isBody : tree.kind body = .ok .nestedBlock) : ∀ branch ∈ branches, tree.Hands id branch := by
  obtain ⟨_, there⟩ := shows.node
  intro branch member
  refine .branch there ?_ (headed.body_child shows isBody) ?_
  · cases header <;> first | rfl | cases branching
  · rw [Node.branches, drop_to_branches (headed.body_not_mem isBody)]
    exact member

/-- What parts cover once their nodes were seen is covered by all nodes that were. -/
theorem Tree.covers_each {holds : NodeId → Prop} {parts : List Part} {ids : List NodeId}
    (steps : List.Forall₂ (fun part id => ∃ _ : PartAt tree.nodes part id,
      seen id → tree.Covers holds id) parts ids) (each : ∀ id ∈ ids, seen id) :
    ∀ id ∈ ids, tree.Covers holds id :=
  forall_of_forall₂ (forall₂_and_right steps each) fun _ _ ⟨⟨_, covers⟩, seen⟩ => covers seen

/-- Below a node that was seen and at which a part of a program stands, all is covered, and parts
stand at all the statements. -/
theorem PartAt.covers (closed : tree.Closed seen) {part : Part} (stands : PartAt tree.nodes part id)
    (here : seen id) : tree.Covers (fun id => seen id ∧ ∃ part, PartAt tree.nodes part id) id := by
  induction stands using PartAt.induct with
  | @slot id innerId kind part shows slot inner step =>
    have plain : kind.hasBody = false := by rcases slot with rfl | rfl <;> rfl
    refine .node shows (fun _ => ⟨here, _, .slot shows slot inner⟩) ?_
    exact List.forall_mem_singleton.2 (step (closed _ _ here (shows.hands plain innerId (by simp))))
  | assignment shows left right inner =>
    have fragment : Inert tree.nodes _ := .mk right rfl (by simpa using inner.inert)
    exact .node shows (fun _ => ⟨here, _, .assignment shows left right inner⟩)
      (by simpa using ⟨left.inert.covers, fragment.covers⟩)
  | returned shows inner =>
    exact .node shows (fun _ => ⟨here, _, .returned shows inner⟩)
      (forall_of_forall₂ inner fun _ _ stands => stands.inert.covers)
  | evaluated shows inner =>
    exact .node shows (by simp [Kind.isStatement]) (by simpa using inner.inert.covers)
  | @shared id body heads slots branchIds header parts branches shows headed branched held inner beside
      steps others =>
    have found := headed.body_child shows held.kind
    have bodied : header.kind.hasBody = true := by cases header <;> rfl
    have slotSeen := fun slot member =>
      closed id slot here (shows.hands_slots bodied found held slot member)
    have branchSeen : ∀ branch ∈ branchIds, seen branch := by
      intro branch member
      cases may : header.branches with
      | false =>
        cases branched may
        cases beside
        cases member
      | true => exact closed id branch here (shows.hands_branches headed may held.kind branch member)
    have part : PartAt tree.nodes (.shared header parts branches) id :=
      .shared shows headed branched held inner beside
    refine .node shows (fun _ => ⟨here, _, part⟩)
      (List.forall_mem_append.2 ⟨?_, List.forall_mem_cons.2 ⟨?_, ?_⟩⟩)
    · exact fun head member => (headed.inert head member).covers
    · exact .body held (Tree.covers_each steps slotSeen)
    · exact Tree.covers_each others branchSeen
  | block shows _ steps =>
    have slotSeen := fun slot member => closed _ slot here (shows.hands rfl slot member)
    exact .body shows (Tree.covers_each steps slotSeen)
  | @catchBlock id header body ids binding parts shows caught named _ step =>
    have inert : Inert tree.nodes header :=
      .mk caught rfl (forall_of_forall₂ named fun _ _ => NameAt.inert)
    have bodySeen := closed id body here (shows.hands rfl body (by simp))
    exact .node shows (by simp [Kind.isStatement]) (by simpa using ⟨inert.covers, step bodySeen⟩)
  | @finallyBlock id body parts shows _ step =>
    have bodySeen := closed id body here (shows.hands rfl body (by simp))
    exact .node shows (by simp [Kind.isStatement]) (by simpa using step bodySeen)
  | @opening id header body slots kind opening parts headed shows opened held inner steps =>
    have bodied : kind.hasBody = true := by cases opening <;> cases headed <;> rfl
    have found := opened.body_child shows held.kind
    have slotSeen := fun slot member =>
      closed id slot here (shows.hands_slots bodied found held slot member)
    have covered := Tree.Covers.body held (Tree.covers_each steps slotSeen)
    exact .node shows (fun _ => ⟨here, _, .opening headed shows opened held inner⟩)
      (by simpa using ⟨opened.inert.covers, covered⟩)

/-! ### Whole stories -/

section Runs
variable {names : NameTable} {resolution : Resolution} {program : List Part}

/-- The nodes that a run visited, each as often as it was. -/
def Run.visits (run : Run) : List NodeId := ScopeTyping.visits run.journal

theorem ProgramAt.inside (stands : ProgramAt tree.nodes program tree.root) :
    tree.root.index < tree.size := by
  obtain ⟨_, shows, _⟩ := stands
  obtain ⟨_, held⟩ := shows.node
  exact Tree.lt_size_of_node held

/-- In a run that succeeds, the statements at which the parts of a program stand were visited. -/
theorem Resolver.Ends.covers {after : Progress} (ends : tree.resolver.Ends names resolution after)
    (stands : ProgramAt tree.nodes program tree.root) :
    tree.Covers (fun id => (∃ scope, Happened after.journal (.visited id scope)) ∧
      ∃ part, PartAt tree.nodes part id) tree.root := by
  have closed : tree.Closed fun id => ∃ scope, Happened after.journal (.visited id scope) := by
    rintro id child ⟨scope, visited⟩ hands
    obtain ⟨_, inner, housed⟩ := ends.housed visited
    exact ⟨inner, housed.handed child hands⟩
  obtain ⟨slots, shows, inner⟩ := stands
  obtain ⟨_, _, root⟩ := ends.course.housed.2
  have handed := fun slot member => root.handed slot (shows.hands rfl slot member)
  refine .node shows (by simp [Kind.isStatement]) ?_
  exact forall_of_forall₂ (forall₂_and_right inner handed)
    fun _ _ ⟨stands, visited⟩ => stands.covers closed ⟨_, visited⟩

/-- In a run that succeeds over a tree that places every node once, no node is visited twice. -/
theorem Resolver.Ends.visits_nodup {after : Progress} (sound : tree.Sound) (once : tree.PlacesOnce)
    (ends : tree.resolver.Ends names resolution after) : (visits after.journal).Nodup := by
  obtain ⟨visited, since, nodup, _⟩ := ends.course.visits_once sound once trivial
  rw [since]
  simpa [visits] using nodup

/-- A run over a sound tree that fails does so with an error of the story. -/
theorem Tree.resolve_fails (sound : tree.Sound) (inside : tree.root.index < tree.size)
    {failure : Failure} (fails : (tree.resolve names).outcome = .error failure) :
    ∃ told, failure = .error told := by
  rcases Tree.resolve_alike sound inside names names with ⟨ran, _, _⟩ | ⟨ran, _, _, _, _⟩
  · cases fails.symm.trans ran
  · cases fails.symm.trans ran
    exact ⟨_, rfl⟩

/-- Resolving a story that is built as it is meant to be agrees with its builder on the shape of
the tree: it fails only with an error that tells of the program, never of a node that is not what
its place asks for or that has a scope already; and where it succeeds, every assignment, return,
loop over a collection and function of the story was visited exactly once. -/
theorem Tree.Tells.resolve_agrees (tells : tree.Tells program) (names : NameTable) :
    (∀ failure, (tree.resolve names).outcome = .error failure →
      ∃ told, failure = .error told ∧ told.cause.ofShape = false) ∧
    ∀ resolution, (tree.resolve names).outcome = .ok resolution →
      ∀ id kind, tree.Under id tree.root → tree.kind id = .ok kind → kind.isHandled = true →
        (tree.resolve names).visits.count id = 1 := by
  obtain ⟨sound, once, stands⟩ := tells.laid
  constructor
  · intro failure fails
    obtain ⟨told, rfl⟩ := Tree.resolve_fails sound stands.inside fails
    refine ⟨told, rfl, ?_⟩
    rcases Tree.resolve_enacts sound once stands names with ⟨_, _, ran, _⟩ |
      ⟨_, refusal, _, ran, _, same⟩
    · cases fails.symm.trans ran
    · cases fails.symm.trans ran
      exact Refusal.not_ofShape same.symm
  · intro resolution succeeds id kind under known handled
    obtain ⟨after, ends⟩ := tree.resolver.run_ends succeeds
    have told : (tree.resolve names).visits = (visits after.journal).reverse := by
      have journal : (tree.resolve names).journal = after.journal.reverse := by
        rw [← ends.history]
        simp [Run.history]
        rfl
      rw [Run.visits, journal, visits, List.filterMap_reverse]
      rfl
    rw [told, List.count_reverse]
    have covered := ends.covers stands id kind under known (Kind.isStatement_of_isHandled handled)
    exact List.count_eq_one_of_mem (ends.visits_nodup sound once) (mem_visits.2 covered.1)

end Runs

namespace Tree

/-- Steps that build a story from its end: a function that returns a number, a loop over a list
that keeps the last item, and the list. -/
def sketchSteps : List Construct := [.int 1, .returnStatement (some ⟨0⟩), .types "int" [],
  .functionBlock "first" [] (some ⟨3⟩) [⟨2⟩], .path "item", .assign "last" ⟨12⟩, .path "items",
  .foreachBlock ⟨19⟩ ["item"] [⟨17⟩], .list [], .assign "items" ⟨28⟩]

/-- The statements of the story. -/
def sketchBody : List (Placed Part) := [
  ⟨⟨33⟩, .assignment "items" [] (.list [])⟩,
  ⟨⟨27⟩, .scoped (.foreachBlock (.path "items" []) ["item"])
    [.assignment "last" [] (.path "item" [])]⟩,
  ⟨⟨10⟩, .scoped (.functionBlock "first" [] (some (.mk "int" [])))
    [.returned (some (.literal .number "1"))]⟩]

/-- The story that the steps build. -/
def sketch : Tree := planned sketchSteps (sketchBody.map Placed.id)

theorem sketch_tells : sketch.Tells (sketchBody.map Placed.item) := by
  have plans : Plans sketchSteps [⟨0⟩, ⟨2⟩, ⟨3⟩, ⟨10⟩, ⟨12⟩, ⟨17⟩, ⟨19⟩, ⟨27⟩, ⟨28⟩, ⟨33⟩] []
      (sketchBody.map (Placed.as .statement)) :=
    .step (.literal rfl) rfl <| .step (.returnStatement (some ⟨⟨0⟩, _⟩)) rfl <|
    .step (.types "int" []) rfl <| .step (.functionBlock "first" [] (some ⟨⟨3⟩, _⟩) [⟨⟨2⟩, _⟩]) rfl <|
    .step (.path "item") rfl <| .step (.assign "last" ⟨⟨12⟩, _⟩) rfl <|
    .step (.path "items") rfl <| .step (.foreachBlock ⟨⟨19⟩, _⟩ ["item"] [⟨⟨17⟩, _⟩]) rfl <|
    .step (.list []) rfl <| .step (.assign "items" ⟨⟨28⟩, _⟩) rfl .done
  exact planned_tells sketchBody [] plans (by decide +kernel) (by decide +kernel)

theorem sketch_resolves : ∃ resolution, (sketch.resolve .empty).outcome = .ok resolution :=
  exists_of_isOk (by decide +kernel)

/-- The story resolves, and each of its handled statements was visited once. -/
theorem sketch_agrees : ∃ resolution, (sketch.resolve .empty).outcome = .ok resolution ∧
    ∀ id kind, sketch.Under id sketch.root → sketch.kind id = .ok kind → kind.isHandled = true →
      (sketch.resolve .empty).visits.count id = 1 := by
  obtain ⟨resolution, succeeds⟩ := sketch_resolves
  exact ⟨resolution, succeeds, (sketch_tells.resolve_agrees .empty).2 resolution succeeds⟩

end Tree
end ScopeTyping
