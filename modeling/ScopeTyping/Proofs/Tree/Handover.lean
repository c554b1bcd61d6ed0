import ScopeTyping.Proofs.Tree.Descent

/-! Which nodes a construct hands its scope on to. Most kinds hand it to their children. A
construct with a body hands it to the statements of the body, past the node of the body
itself, and a conditional or a `try` also to the branches behind the body. -/
namespace ScopeTyping

/-- Kinds that open a scope for what they hold. -/
def Kind.opensScope : Kind → Bool
  | .start | .nestedBlock | .foreachBlock | .functionBlock => true
  | _ => false

/-- Kinds that hand their scope to the statements of a body. -/
def Kind.hasBody : Kind → Bool
  | .foreachBlock | .whileBlock | .whenBlock | .elseBlock | .ifBlock | .elseifBlock | .tryBlock
  | .functionBlock => true
  | _ => false

/-- Kinds that hand their scope to the branches behind the body too. -/
def Kind.hasBranches : Kind → Bool
  | .ifBlock | .tryBlock => true
  | _ => false

theorem Kind.hasBody_of_hasBranches {kind : Kind} (branched : kind.hasBranches = true) :
    kind.hasBody = true := by
  cases kind <;> first | rfl | cases branched

/-- The children that stand behind a body. -/
def Node.branches (node : Node) (body : NodeId) : List NodeId :=
  (node.children.dropWhile (· != body)).drop 1

namespace Tree

variable {tree : Tree} {parent child body : NodeId} {node : Node}

/-- A node hands its scope on to another one. -/
inductive Hands (tree : Tree) (parent child : NodeId) : Prop where
  | child {node : Node} (held : tree.node parent = .ok node) (plain : node.kind.hasBody = false)
      (member : child ∈ node.children)
  | statement {node inner : Node} {body : NodeId} (held : tree.node parent = .ok node)
      (bodied : node.kind.hasBody = true) (found : tree.child? parent .nestedBlock = .ok (some body))
      (bodyHeld : tree.node body = .ok inner) (member : child ∈ inner.children)
  | branch {node : Node} {body : NodeId} (held : tree.node parent = .ok node)
      (branched : node.kind.hasBranches = true)
      (found : tree.child? parent .nestedBlock = .ok (some body))
      (member : child ∈ node.branches body)

theorem mem_children_of_mem_branches (member : child ∈ node.branches body) :
    child ∈ node.children :=
  (List.dropWhile_sublist _).subset (List.mem_of_mem_drop member)

/-- A body does not stand behind itself. -/
theorem not_mem_branches (once : node.children.Nodup) : body ∉ node.branches body := by
  unfold Node.branches
  generalize node.children = children at once ⊢
  induction children with
  | nil => simp
  | cons head rest step =>
    obtain ⟨absent, later⟩ := List.nodup_cons.1 once
    by_cases same : head = body
    · subst same
      simpa using absent
    · rw [List.dropWhile_cons_of_pos (by simpa using same)]
      exact step later

/-- A body and what stands behind it are children in this order. -/
theorem body_branches_sublist (member : body ∈ node.children) :
    List.Sublist (body :: node.branches body) node.children := by
  unfold Node.branches
  generalize node.children = children at member ⊢
  induction children with
  | nil => cases member
  | cons head rest step =>
    by_cases same : head = body
    · subst same
      simp
    · rw [List.dropWhile_cons_of_pos (by simpa using same)]
      exact (step (List.mem_of_ne_of_mem (Ne.symm same) member)).cons head

/-- A node that stands as the body of a construct. -/
def IsBody (tree : Tree) (body : NodeId) : Prop :=
  ∃ parent node, tree.node parent = .ok node ∧ node.kind.hasBody = true ∧
    tree.child? parent .nestedBlock = .ok (some body)

/-- Scopes are handed downwards. -/
theorem Hands.below (hands : tree.Hands parent child) :
    Relation.TransGen tree.ChildOf child parent := by
  cases hands with
  | child held _ member => exact .single ⟨_, held, member⟩
  | statement _ _ found bodyHeld member =>
    exact .head ⟨_, bodyHeld, member⟩ (.single (child?_eq_ok_some found).1)
  | branch held _ _ member => exact .single ⟨_, held, mem_children_of_mem_branches member⟩

/-- A body is passed over: no node hands its scope to it. -/
theorem IsBody.not_handed (isBody : tree.IsBody body) (once : tree.PlacesOnce) :
    ¬ tree.Hands parent body := by
  obtain ⟨construct, node, held, bodied, found⟩ := isBody
  have below := (child?_eq_ok_some found).1
  intro hands
  cases hands with
  | child there plain member =>
    cases once.parent_unique below ⟨_, there, member⟩
    cases held.symm.trans there
    cases bodied.symm.trans plain
  | statement there _ otherFound otherHeld member =>
    cases once.parent_unique below ⟨_, otherHeld, member⟩
    obtain ⟨_, again, kind⟩ := node_of_kind (child?_eq_ok_some otherFound).2
    cases held.symm.trans again
    rw [kind] at bodied
    cases bodied
  | branch there _ otherFound member =>
    cases once.parent_unique below ⟨_, there, mem_children_of_mem_branches member⟩
    cases found.symm.trans otherFound
    exact not_mem_branches (once.children_nodup there) member

end Tree
end ScopeTyping
