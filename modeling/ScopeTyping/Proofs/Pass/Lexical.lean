import ScopeTyping.Proofs.Pass.Housing

/-! Where the text puts a node is where the pass visits it. In a tree that places every node
once, the scopes that a run threads from construct to construct can be read off the tree and
the scopes of its nodes: a node is visited in the scope of the nearest node around it that has
one. Bodies have none, so a body binds where its construct does; the block of a handler has its
own, so a handler binds beside it. -/
namespace ScopeTyping

/-- A node is the body of a construct of a kind. -/
structure Tree.BodyOf (tree : Tree) (body construct : NodeId) (kind : Kind) : Prop where
  known : tree.kind construct = .ok kind
  bodied : kind.hasBody = true
  found : tree.child? construct .nestedBlock = .ok (some body)

/-- The statements in a block are visited in one scope, and in no other. -/
def Run.StatementsIn (run : Run) (tree : Tree) (block : NodeId) (inner : ScopeId) : Prop :=
  ∀ statement other, tree.ChildOf statement block →
    (Happened run.journal (.visited statement other) ↔ other = inner)

/-- The scopes of a run are placed as the text of the tree places them. -/
structure Run.Lexical (run : Run) (tree : Tree) (resolution : Resolution) : Prop where
  visits : ∀ id scope, Happened run.journal (.visited id scope) →
    ∃ parent, tree.ChildOf id parent ∧ tree.Within resolution.annotations parent scope
  root : ∃ scope, resolution.annotations.get? tree.root = some scope
  openers : ∀ id scope kind, Happened run.journal (.visited id scope) →
    tree.kind id = .ok kind → kind.opensScope = true →
    ∃ inner, resolution.annotations.get? id = some inner
  bodies : ∀ id scope kind body, Happened run.journal (.visited id scope) →
    tree.BodyOf body id kind → resolution.annotations.get? body = none
  around : ∀ id inner kind, resolution.annotations.get? id = some inner →
    tree.kind id = .ok kind → kind = .nestedBlock ∨ kind = .foreachBlock →
    ∃ parent outer found, tree.ChildOf id parent ∧
      tree.Within resolution.annotations parent outer ∧
      resolution.scopes.scope inner = .ok found ∧ found.parent = some outer
  statements : ∀ id scope kind body, Happened run.journal (.visited id scope) →
    tree.BodyOf body id kind → ∃ inner, run.StatementsIn tree body inner ∧
      if kind.opensScope then resolution.annotations.get? id = some inner else inner = scope
  handlers : ∀ id scope kind block, Happened run.journal (.visited id scope) →
    tree.kind id = .ok kind → kind = .catchBlock ∨ kind = .finallyBlock →
    tree.ChildOf block id → tree.kind block = .ok .nestedBlock →
    ∃ inner found, resolution.annotations.get? block = some inner ∧
      resolution.scopes.scope inner = .ok found ∧ found.kind = .block ∧
      found.parent = some scope ∧ run.StatementsIn tree block inner

section Trees
variable {tree : Tree} {id child body : NodeId} {kind : Kind}

theorem Tree.BodyOf.isBody (isBody : tree.BodyOf body id kind) : tree.IsBody body := by
  obtain ⟨node, held, rfl⟩ := Tree.node_of_kind isBody.known
  exact ⟨id, node, held, isBody.bodied, isBody.found⟩

/-- A construct hands its scope to the statements of its body. -/
theorem Tree.BodyOf.hands (isBody : tree.BodyOf body id kind) (below : tree.ChildOf child body) :
    tree.Hands id child := by
  obtain ⟨node, held, rfl⟩ := Tree.node_of_kind isBody.known
  obtain ⟨inner, bodyHeld, member⟩ := below
  exact .statement held isBody.bodied isBody.found bodyHeld member

/-- A node without a body hands its scope to its children. -/
theorem Tree.hands_of_childOf (known : tree.kind id = .ok kind) (plain : kind.hasBody = false)
    (below : tree.ChildOf child id) : tree.Hands id child := by
  obtain ⟨node, held, rfl⟩ := Tree.node_of_kind known
  obtain ⟨same, there, member⟩ := below
  cases held.symm.trans there
  exact .child held plain member

end Trees

section Runs
variable {resolver : Resolver} {names : NameTable} {resolution : Resolution} {after : Progress}
  {journal : List Moment} {id block : NodeId} {scope inner other : ScopeId} {kind : Kind}

/-- What a node hands its scope to is visited in it, and in no other. -/
theorem Resolver.Ends.statementsIn (ends : resolver.Ends names resolution after)
    (once : resolver.tree.PlacesOnce) (housed : Housed resolver.tree after id scope kind inner)
    (hands : ∀ statement, resolver.tree.ChildOf statement block → resolver.tree.Hands id statement) :
    (resolver.run names).StatementsIn resolver.tree block inner := by
  intro statement other below
  rw [ends.happened_iff]
  have visited := housed.handed statement (hands statement below)
  refine ⟨ends.kept.chronicle.visited_once once visited, ?_⟩
  rintro rfl
  exact visited

/-- The scope of a block or a loop stands in the one of the nearest node around the block or the
loop that has one. -/
theorem Resolver.Ends.around (ends : resolver.Ends names resolution after)
    (once : resolver.tree.PlacesOnce) (held : after.known.annotations.get? id = some inner)
    (known : resolver.tree.kind id = .ok kind) (nests : kind = .nestedBlock ∨ kind = .foreachBlock) :
    ∃ parent outer found, resolver.tree.ChildOf id parent ∧
      resolver.tree.Within after.known.annotations parent outer ∧
      after.known.scopes.scope inner = .ok found ∧ found.parent = some outer := by
  obtain ⟨outer, other, opens, entered, housed⟩ := ends.housed_of_attached held
  cases known.symm.trans housed.known
  obtain ⟨_, found, there, sameKind, parentScope⟩ := housed.opens opens
  have visited : Happened after.journal (.visited id outer) := by
    refine entered.resolve_left ?_
    rintro ⟨_, rfl⟩
    rcases nests with impossible | impossible <;> cases impossible
  obtain ⟨parent, below, within⟩ := ends.kept.chronicle.within_of_visited once id outer visited
  rw [← ends.kept.current] at within
  refine ⟨parent, outer, found, below, within, there, parentScope.trans ?_⟩
  rcases nests with rfl | rfl
  · rw [← Option.some.inj sameKind]
    rfl
  · rw [← Option.some.inj sameKind]
    rfl

/-- An indented block that is visited opens a scope for its statements inside the one it is
visited in. -/
theorem Resolver.Ends.block_opens (ends : resolver.Ends names resolution after)
    (once : resolver.tree.PlacesOnce) (visited : Happened after.journal (.visited block scope))
    (known : resolver.tree.kind block = .ok .nestedBlock) :
    ∃ inner found, after.known.annotations.get? block = some inner ∧
      after.known.scopes.scope inner = .ok found ∧ found.kind = .block ∧
      found.parent = some scope ∧ (resolver.run names).StatementsIn resolver.tree block inner := by
  obtain ⟨kind, inner, housed⟩ := ends.housed visited
  cases known.symm.trans housed.known
  obtain ⟨held, found, there, sameKind, parent⟩ := housed.opens rfl
  have isBlock := Option.some.inj sameKind
  rw [← isBlock] at parent
  exact ⟨inner, found, held, there, isBlock.symm, parent,
    ends.statementsIn once housed fun _ => Tree.hands_of_childOf known rfl⟩

end Runs

/-- In a run that succeeds, by whatever rules, over a tree that places every node once, the
scopes are placed as the text places them: visits go to the scope of the nearest node around
that has one, the bodies of conditionals, of `while`, of `when` and of `try` bind into the scope
around the construct, and the blocks of handlers into one of their own inside it. -/
theorem Resolver.run_lexical (resolver : Resolver) (names : NameTable) {resolution : Resolution}
    (once : resolver.tree.PlacesOnce)
    (succeeds : (resolver.run names).outcome = .ok resolution) :
    (resolver.run names).Lexical resolver.tree resolution := by
  obtain ⟨after, ends⟩ := Resolver.run_ends succeeds
  cases ends.resolution
  have chronicle := ends.kept.chronicle
  constructor
  case visits =>
    intro id scope visited
    obtain ⟨parent, below, within⟩ :=
      chronicle.within_of_visited once id scope (ends.happened_iff.1 visited)
    rw [← ends.kept.current] at within
    exact ⟨parent, below, within⟩
  case root =>
    obtain ⟨kind, inner, housed⟩ := ends.course.housed.2
    cases ends.story.symm.trans housed.known
    exact ⟨inner, (housed.opens rfl).1⟩
  case openers =>
    intro id scope kind visited known opens
    obtain ⟨other, inner, housed⟩ := ends.housed (ends.happened_iff.1 visited)
    cases known.symm.trans housed.known
    exact ⟨inner, (housed.opens opens).1⟩
  case bodies =>
    intro id scope kind body _ isBody
    have free := chronicle.unattached_of_body once isBody.isBody
    rwa [← ends.kept.current] at free
  case around =>
    intro id inner kind held known nests
    exact ends.around once held known nests
  case statements =>
    intro id scope kind body visited isBody
    obtain ⟨other, inner, housed⟩ := ends.housed (ends.happened_iff.1 visited)
    cases isBody.known.symm.trans housed.known
    refine ⟨inner, ends.statementsIn once housed fun _ below => isBody.hands below, ?_⟩
    split
    · exact (housed.opens ‹_›).1
    · exact housed.shares (Bool.eq_false_iff.2 ‹_›)
  case handlers =>
    intro id scope kind block visited known handler below blockKind
    have plain : kind.hasBody = false ∧ kind.opensScope = false := by
      rcases handler with rfl | rfl <;> exact ⟨rfl, rfl⟩
    obtain ⟨other, outer, housed⟩ := ends.housed (ends.happened_iff.1 visited)
    cases known.symm.trans housed.known
    cases housed.shares plain.2
    exact ends.block_opens once
      (housed.handed block (Tree.hands_of_childOf known plain.1 below)) blockKind

/-- In the tour of the constructs, the assignment in the conditional binds in the scope of the
story and the one in the handler in a scope of its own. -/
theorem Tree.tour_lexical : ∃ resolution,
    (Tree.tour.resolve .empty).outcome = .ok resolution ∧
    Happened (Tree.tour.resolve .empty).journal (.visited ⟨14⟩ ⟨0⟩) ∧
    Happened (Tree.tour.resolve .empty).journal (.visited ⟨38⟩ ⟨2⟩) ∧
    (Tree.tour.resolve .empty).Lexical Tree.tour resolution := by
  obtain ⟨resolution, outcome⟩ := Tree.tour_resolves
  have shared : Happened (Tree.tour.resolve .empty).journal (.visited ⟨14⟩ ⟨0⟩) := by
    decide +kernel
  have handled : Happened (Tree.tour.resolve .empty).journal (.visited ⟨38⟩ ⟨2⟩) := by
    decide +kernel
  exact ⟨resolution, outcome, shared, handled,
    Resolver.run_lexical ⟨Tree.tour, .standard⟩ .empty Tree.tour_placesOnce outcome⟩

end ScopeTyping
