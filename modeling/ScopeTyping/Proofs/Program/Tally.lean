import ScopeTyping.Pass.Visit
import ScopeTyping.Proofs.Program.Typed

/-! The parts of a tree in which visits give scopes to nodes, and the returns that stand there.
In a tree that places every node once, what stands below one child of a node is apart from what
stands below another, so visits leave each other's nodes alone. The returns that a check meets
at some nodes depend on the scopes of the nodes below these only, so they can be told node by
node while the nodes are visited. -/
namespace ScopeTyping

variable {tree : Tree} {id child parent : NodeId} {ids more children : List NodeId}

/-! ### Nodes apart -/

/-- Nothing stands below both of two nodes. -/
def Tree.Parted (tree : Tree) (one other : NodeId) : Prop :=
  ∀ below, tree.Under below one → ¬ tree.Under below other

theorem Tree.Parted.narrow {one other left right : NodeId} (parted : tree.Parted one other)
    (first : tree.Under left one) (second : tree.Under right other) : tree.Parted left right :=
  fun below under also => parted below (under.trans first) (also.trans second)

theorem Tree.Parted.symm {one other : NodeId} (parted : tree.Parted one other) :
    tree.Parted other one :=
  fun below under also => parted below also under

theorem Tree.under_of_childOf (below : tree.ChildOf child parent) : tree.Under child parent :=
  .single below

/-- The children of a node are apart from each other. -/
theorem Tree.children_parted (sound : tree.Sound) (once : tree.PlacesOnce) {node : Node}
    (held : tree.node parent = .ok node) : node.children.Pairwise tree.Parted := by
  have apart : ∀ one other, one ∈ node.children → other ∈ node.children → one ≠ other →
      ¬ tree.Under one other := by
    intro one other first second differ under
    rcases under.cases_head with same | ⟨above, below, further⟩
    · exact differ same
    · cases once.parent_unique (Tree.childOf_of_mem held first) below
      exact sound.not_under_child (Tree.childOf_of_mem held second) further
  refine (once.children_nodup held).imp_of_mem fun {one other} first second differ => ?_
  intro below under also
  rcases once.under_total under also with up | down
  · exact apart one other first second differ up
  · exact apart other one second first (Ne.symm differ) down

theorem Shows.parted {kind : Kind} {text : String} (sound : tree.Sound) (once : tree.PlacesOnce)
    (shows : Shows tree.nodes id kind text children) : children.Pairwise tree.Parted := by
  obtain ⟨_, held⟩ := shows.node
  exact Tree.children_parted sound once held

/-! ### What visits leave alone -/

/-- No node at or below some nodes has a scope. -/
def Snapshot.Free (now : Snapshot) (tree : Tree) (ids : List NodeId) : Prop :=
  ∀ id ∈ ids, ∀ below, tree.Under below id → now.annotations.get? below = none

/-- Only nodes at or below some nodes got scopes. -/
def Spared (tree : Tree) (ids : List NodeId) (before after : Snapshot) : Prop :=
  ∀ other, (∀ id ∈ ids, ¬ tree.Under other id) →
    after.annotations.get? other = before.annotations.get? other

variable {before between after now further : Snapshot}

theorem Snapshot.Free.below (free : now.Free tree [parent])
    (under : ∀ id ∈ ids, tree.Under id parent) : now.Free tree ids :=
  fun id member below path => free parent (List.mem_singleton_self _) below (path.trans (under id member))

theorem Snapshot.Free.subset (free : now.Free tree ids) (among : more ⊆ ids) : now.Free tree more :=
  fun id member => free id (among member)

theorem Snapshot.Free.of_eq (free : before.Free tree ids)
    (same : after.annotations = before.annotations) : after.Free tree ids := by
  intro id member below under
  rw [same]
  exact free id member below under

theorem Spared.of_eq (same : after.annotations = before.annotations) : Spared tree ids before after :=
  fun _ _ => by rw [same]

theorem Spared.append (first : Spared tree ids before between)
    (second : Spared tree more between after) : Spared tree (ids ++ more) before after := by
  intro other apart
  rw [second other fun id member => apart id (List.mem_append_right _ member)]
  exact first other fun id member => apart id (List.mem_append_left _ member)

theorem Spared.trans (first : Spared tree ids before between)
    (second : Spared tree ids between after) : Spared tree ids before after :=
  fun other apart => (second other apart).trans (first other apart)

theorem Spared.widen (spared : Spared tree ids before after)
    (under : ∀ id ∈ ids, tree.Under id parent) : Spared tree [parent] before after :=
  fun other apart => spared other fun id member below =>
    apart parent (List.mem_singleton_self _) (below.trans (under id member))

/-- A node keeps what it has while nodes below it are visited. -/
theorem Spared.get?_above (spared : Spared tree ids before after) (sound : tree.Sound)
    (below : ∀ child ∈ ids, Relation.TransGen tree.ChildOf child id) :
    after.annotations.get? id = before.annotations.get? id :=
  spared id fun child member under => sound.acyclic id (Relation.TransGen.trans_right under (below child member))

/-- Nodes keep what they have while nodes apart from them are visited. -/
theorem Spared.get? (spared : Spared tree more now further)
    (parted : ∀ other ∈ more, tree.Parted id other) {below : NodeId} (under : tree.Under below id) :
    further.annotations.get? below = now.annotations.get? below :=
  spared below fun other member => parted other member below under

theorem Snapshot.Free.spared (free : now.Free tree ids) (spared : Spared tree more now further)
    (parted : ∀ id ∈ ids, ∀ other ∈ more, tree.Parted id other) : further.Free tree ids := by
  intro id member below under
  rw [spared.get? (parted id member) under]
  exact free id member below under

/-! ### Returns -/

/-- A return of a tree is one of a program, in the same scope. -/
structure SiteAt (tree : Tree) (item : NodeId × ScopeId) (site : Return) : Prop where
  scope : item.2 = site.scope
  stands : ∃ ids, Shows tree.nodes item.1 .returnStatement "" ids ∧
    List.Forall₂ (ExprAt tree.nodes) (site.value.map Expr.wrapped).toList ids

/-- The returns that a check meets at a child of a node that stands in `scope`. -/
def Typing.sitesAt (view : View) (depth : Nat) (scope : ScopeId) (child : NodeId) :
    Walk (NodeId × ScopeId) :=
  let inner := (view.annotations.get? child).getD scope
  match view.tree.kind child with
  | .error fault => .stopped fault
  | .ok .functionBlock => .whole []
  | .ok .returnStatement => .whole [(child, inner)]
  | .ok _ => Typing.returnSitesWithin view depth child inner

theorem Typing.returnSitesWithin_succ {view : View} {node : Node}
    (held : view.tree.node id = .ok node) (depth : Nat) (scope : ScopeId) :
    Typing.returnSitesWithin view (depth + 1) id scope =
      .concat (node.children.map (Typing.sitesAt view depth scope)) := by
  simp only [Typing.returnSitesWithin, held]
  rfl

theorem Walk.append_assoc {α : Type} (first second third : Walk α) :
    (first.append second).append third = first.append (second.append third) := by
  rcases first with ⟨items, fault⟩
  rcases second with ⟨others, other⟩
  cases fault with
  | some fault => rfl
  | none =>
    cases other with
    | some other => rfl
    | none => simp [Walk.append]

theorem Walk.concat_append {α : Type} (pieces more : List (Walk α)) :
    Walk.concat (pieces ++ more) = (Walk.concat pieces).append (Walk.concat more) := by
  induction pieces with
  | nil => rfl
  | cons first rest step => rw [List.cons_append, Walk.concat, Walk.concat, step, Walk.append_assoc]

/-- A check meets some returns of a program at some nodes that stand in `scope`, as long as the
nodes below these have the scopes that they have now. -/
def Tallied (tree : Tree) (now : Snapshot) (ids : List NodeId) (scope : ScopeId)
    (sites : List Return) : Prop :=
  ∀ (view : View) (depth : Nat), view.tree = tree →
    (∀ id ∈ ids, ∀ below, tree.Under below id →
      view.annotations.get? below = now.annotations.get? below) →
    (∀ id ∈ ids, tree.height id < depth) →
    ∃ items, Walk.concat (ids.map (Typing.sitesAt view depth scope)) = .whole items ∧
      List.Forall₂ (SiteAt tree) items sites

namespace Tallied

variable {scope inner : ScopeId} {sites others : List Return} {kind : Kind} {text : String}

theorem nil : Tallied tree now [] scope [] := fun _ _ _ _ _ => ⟨[], rfl, .nil⟩

theorem append (first : Tallied tree now ids scope sites) (second : Tallied tree now more scope others) :
    Tallied tree now (ids ++ more) scope (sites ++ others) := by
  intro view depth same kept deep
  obtain ⟨items, met, stand⟩ := first view depth same
    (fun id member => kept id (List.mem_append_left _ member))
    fun id member => deep id (List.mem_append_left _ member)
  obtain ⟨rest, alsoMet, alsoStand⟩ := second view depth same
    (fun id member => kept id (List.mem_append_right _ member))
    fun id member => deep id (List.mem_append_right _ member)
  refine ⟨items ++ rest, ?_, List.rel_append stand alsoStand⟩
  rw [List.map_append, Walk.concat_append, met, alsoMet]
  rfl

/-- Scopes that nodes elsewhere got since then make no difference. -/
theorem later (tallied : Tallied tree now ids scope sites)
    (kept : ∀ id ∈ ids, ∀ below, tree.Under below id →
      further.annotations.get? below = now.annotations.get? below) :
    Tallied tree further ids scope sites := by
  intro view depth same keptSince deep
  exact tallied view depth same
    (fun id member below under => (keptSince id member below under).trans (kept id member below under))
    deep

/-- The returns at a node are those at its children, in its own scope if it has one. -/
theorem node (shows : Shows tree.nodes id kind text children) (sound : tree.Sound)
    (noFunction : kind ≠ .functionBlock) (noReturn : kind ≠ .returnStatement)
    (own : (now.annotations.get? id).getD scope = inner)
    (tallied : Tallied tree now children inner sites) : Tallied tree now [id] scope sites := by
  intro view depth same kept deep
  subst same
  obtain ⟨_, held⟩ := shows.node
  have lower := deep id (List.mem_singleton_self _)
  cases depth with
  | zero => exact absurd lower (Nat.not_lt_zero _)
  | succ depth =>
    obtain ⟨items, met, stand⟩ := tallied view depth rfl
      (fun child member below under => kept id (List.mem_singleton_self _) below
        (under.tail (shows.childOf member)))
      (shows.lower sound lower)
    refine ⟨items, ?_, stand⟩
    have here : Typing.sitesAt view (depth + 1) scope id =
        Typing.returnSitesWithin view (depth + 1) id inner := by
      unfold Typing.sitesAt
      rw [kept id (List.mem_singleton_self _) id .refl, own, shows.kind]
      cases kind <;> first | rfl | contradiction
    rw [List.map_singleton, Walk.concat, Walk.concat, Walk.append_whole_nil, here,
      Typing.returnSitesWithin_succ held, met]

/-- The returns of a function are its own. -/
theorem function (shows : Shows tree.nodes id .functionBlock text children) :
    Tallied tree now [id] scope [] := by
  intro view depth same _ _
  subst same
  refine ⟨[], ?_, .nil⟩
  have here : Typing.sitesAt view depth scope id = .whole [] := by
    unfold Typing.sitesAt
    rw [shows.kind]
  rw [List.map_singleton, Walk.concat, Walk.concat, Walk.append_whole_nil, here]

theorem returned {value : Option Expr} (shows : Shows tree.nodes id .returnStatement "" children)
    (inner : List.Forall₂ (ExprAt tree.nodes) (value.map Expr.wrapped).toList children)
    (free : now.annotations.get? id = none) : Tallied tree now [id] scope [⟨value, scope⟩] := by
  intro view depth same kept _
  subst same
  refine ⟨[(id, scope)], ?_, .cons ⟨rfl, children, shows, inner⟩ .nil⟩
  have here : Typing.sitesAt view depth scope id = .whole [(id, scope)] := by
    unfold Typing.sitesAt
    rw [shows.kind, kept id (List.mem_singleton_self _) id .refl, free]
    rfl
  rw [List.map_singleton, Walk.concat, Walk.concat, Walk.append_whole_nil, here]

/-- Nodes at which there are no returns one by one have none together. -/
theorem none (each : ∀ id ∈ ids, Tallied tree now [id] scope []) : Tallied tree now ids scope [] := by
  induction ids with
  | nil => exact nil
  | cons first rest step =>
    obtain ⟨here, others⟩ := List.forall_mem_cons.1 each
    exact append here (step others)

/-- There are no returns at inert nodes. -/
theorem inert (sound : tree.Sound) (inert : Inert tree.nodes id) :
    Tallied tree now [id] scope [] := by
  induction inert generalizing scope with
  | @mk id kind text children shows passive _ step =>
    refine node shows sound ?_ ?_ rfl (none fun child member => step child member)
    · rintro rfl
      cases passive
    · rintro rfl
      cases passive

end Tallied
end ScopeTyping
