import ScopeTyping.Proofs.Pass.Course
import ScopeTyping.Proofs.Pass.Standard

/-! Nodes at which nothing happens. A visit goes through the nodes below a plain node and hands its
scope on, and that is all: however deep the nodes go, it ends and changes nothing that is known
(`Tree.PlainBelow.idles`). -/
namespace ScopeTyping

/-- A visit of a node changes nothing that is known. -/
def Idles (visit : Resolver.Visit) (id : NodeId) : Prop :=
  ∀ scope before, ∃ after, (visit id scope).outcome before = (.ok (), after) ∧
    after.known = before.known

variable {tree : Tree} {visit : Resolver.Visit} {id child : NodeId} {ids : List NodeId}
  {node : Node}

/-- Nodes that are idled over one by one are idled over together. -/
theorem idles_all (idle : ∀ id ∈ ids, Idles visit id) (scope : ScopeId) (before : Progress) :
    ∃ after, (ids.forM fun child => visit child scope).outcome before = (.ok (), after) ∧
      after.known = before.known := by
  induction ids generalizing before with
  | nil => exact ⟨before, rfl, rfl⟩
  | cons first rest step =>
    obtain ⟨here, others⟩ := List.forall_mem_cons.1 idle
    obtain ⟨between, ran, same⟩ := here scope before
    obtain ⟨after, ranOn, sameOn⟩ := step others between
    refine ⟨after, ?_, sameOn.trans same⟩
    show (visit first scope >>= fun _ => rest.forM fun child => visit child scope).outcome before = _
    rw [Fallible.outcome_bind, ran]
    exact ranOn

/-- Where children are idled over, so are they all. -/
theorem idles_visitChildren (held : tree.node id = .ok node)
    (each : ∀ child ∈ node.children, Idles visit child) :
    Idles (tree.resolver.visitChildren visit) id := by
  intro scope before
  simp only [Resolver.visitChildren, Resolver.node, held, Attempt.guard, pure_bind]
  exact idles_all each scope before

/-- All that stands below a node is of a kind without a rule of its own. -/
def Tree.PlainBelow (tree : Tree) (id : NodeId) : Prop :=
  ∀ below kind, Relation.TransGen tree.ChildOf below id → tree.kind below = .ok kind →
    kind.isPlain = true

namespace Tree.PlainBelow

theorem onward (plain : tree.PlainBelow id) (childOf : tree.ChildOf child id) :
    tree.PlainBelow child :=
  fun below kind under => plain below kind (under.tail childOf)

/-- Nothing happens below a node if it is plain there. -/
theorem idles (plain : tree.PlainBelow id) (sound : tree.Sound) (held : tree.node id = .ok node)
    {depth : Nat} (deep : tree.height id ≤ depth) :
    Idles (tree.resolver.visitChildren (tree.resolver.visitWithin depth)) id := by
  induction depth generalizing id node with
  | zero =>
    apply idles_visitChildren held
    intro child member
    have lower := sound.height_lt (Tree.childOf_of_mem held member)
    omega
  | succ depth step =>
    apply idles_visitChildren held
    intro child member scope before
    have childOf := Tree.childOf_of_mem held member
    have lower := sound.height_lt childOf
    obtain ⟨inner, there⟩ := Tree.node_exists (sound.inside child id childOf)
    show ∃ after, (tree.resolver.handle (tree.resolver.visitWithin depth) child scope).outcome
      (before.visiting child scope) = (.ok (), after) ∧ after.known = before.known
    rw [Resolver.handle_plain there (plain child _ (.single childOf) (Tree.kind_of_node there))]
    exact step (plain.onward childOf) there (by omega) scope (before.visiting child scope)

end Tree.PlainBelow
end ScopeTyping
