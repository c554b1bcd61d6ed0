import ScopeTyping.Scope.Forest
import ScopeTyping.Tree.Basic

/-! Scopes attached to nodes. A node gets a scope once and keeps it: `attach?`
refuses a second one. -/
namespace ScopeTyping

/-- The scopes of the nodes that have one, in node order. -/
structure Annotations where
  entries : List (NodeId × ScopeId)
  ordered : entries.Pairwise fun left right => left.1.index < right.1.index
  deriving DecidableEq

namespace Annotations

/-- No node has a scope. -/
def empty : Annotations := ⟨[], .nil⟩

/-- How many nodes have a scope. -/
def size (annotations : Annotations) : Nat := annotations.entries.length

/-- The scope of a node. -/
def get? (annotations : Annotations) (node : NodeId) : Option ScopeId :=
  annotations.entries.lookup node

/-- The entries with one more in its place by node order. -/
def place (node : NodeId) (scope : ScopeId) : List (NodeId × ScopeId) → List (NodeId × ScopeId)
  | [] => [(node, scope)]
  | (held, other) :: rest =>
    if node.index < held.index then (node, scope) :: (held, other) :: rest
    else (held, other) :: place node scope rest

theorem mem_place {node : NodeId} {scope : ScopeId} {entries : List (NodeId × ScopeId)}
    {entry : NodeId × ScopeId} :
    entry ∈ place node scope entries ↔ entry = (node, scope) ∨ entry ∈ entries := by
  induction entries with
  | nil => simp [place]
  | cons head rest step =>
    obtain ⟨held, other⟩ := head
    by_cases before : node.index < held.index
    · simp [place, before]
    · simp [place, before, step]
      exact or_left_comm

theorem get?_eq_none {annotations : Annotations} {node : NodeId}
    (none : annotations.get? node = none) : ∀ entry ∈ annotations.entries, entry.1 ≠ node := by
  intro entry member same
  have := List.lookup_eq_none_iff.1 none entry member
  simp [same] at this

theorem ordered_place {node : NodeId} {scope : ScopeId} {entries : List (NodeId × ScopeId)}
    (ordered : entries.Pairwise fun left right => left.1.index < right.1.index)
    (fresh : ∀ entry ∈ entries, entry.1 ≠ node) :
    (place node scope entries).Pairwise fun left right => left.1.index < right.1.index := by
  induction entries with
  | nil => simp [place]
  | cons head rest step =>
    obtain ⟨held, other⟩ := head
    obtain ⟨below, restOrdered⟩ := List.pairwise_cons.1 ordered
    by_cases before : node.index < held.index
    · simp only [place, before, if_true, List.pairwise_cons]
      refine ⟨fun entry member => ?_, below, restOrdered⟩
      rcases List.mem_cons.1 member with same | member
      · simpa [same] using before
      · exact Nat.lt_trans before (below entry member)
    · simp only [place, before, if_false, List.pairwise_cons]
      refine ⟨fun entry member => ?_, step restOrdered fun entry member =>
        fresh entry (List.mem_cons_of_mem _ member)⟩
      rcases mem_place.1 member with same | member
      · have apart : held ≠ node := fresh (held, other) (List.mem_cons_self ..)
        have differ : held.index ≠ node.index := fun same => apart (by
          cases held; cases node; simp_all)
        subst same
        show held.index < node.index
        omega
      · exact below entry member

/-- The table with one more entry, unless the node has a scope already. -/
def attach? (annotations : Annotations) (node : NodeId) (scope : ScopeId) : Option Annotations :=
  match unbound : annotations.get? node with
  | some _ => none
  | none => some ⟨place node scope annotations.entries,
      ordered_place annotations.ordered (get?_eq_none unbound)⟩

theorem lookup_place {node other : NodeId} {scope : ScopeId} {entries : List (NodeId × ScopeId)}
    (fresh : ∀ entry ∈ entries, entry.1 ≠ node) :
    (place node scope entries).lookup other =
      if other = node then some scope else entries.lookup other := by
  induction entries with
  | nil =>
    by_cases same : other = node
    · simp [place, same]
    · simp [place, List.lookup_cons, same, beq_eq_false_iff_ne.2 same]
  | cons head rest step =>
    obtain ⟨held, kept⟩ := head
    have apart : held ≠ node := fresh (held, kept) (List.mem_cons_self ..)
    have later := step fun entry member => fresh entry (List.mem_cons_of_mem _ member)
    by_cases before : node.index < held.index
    · by_cases same : other = node
      · simp [place, before, same]
      · simp [place, before, List.lookup_cons, same, beq_eq_false_iff_ne.2 same]
    · by_cases same : other = held
      · subst same
        simp [place, before, apart]
      · simp [place, before, List.lookup_cons, beq_eq_false_iff_ne.2 same, later]

/-- Attaching a scope gives it to its node and leaves the other nodes as they are. -/
theorem get?_attach? {annotations after : Annotations} {node : NodeId} {scope : ScopeId}
    (done : annotations.attach? node scope = some after) (other : NodeId) :
    after.get? other = if other = node then some scope else annotations.get? other := by
  unfold attach? at done
  split at done
  · cases done
  · rename_i unbound
    cases done
    exact lookup_place (get?_eq_none unbound)

/-- The table as text: each node with its scope, in node order. -/
def text (annotations : Annotations) : String :=
  "\x7b" ++ ", ".intercalate (annotations.entries.map fun (node, scope) =>
    "Idx::<SyntaxNode>(" ++ toString node.index ++ "): ScopeId(" ++ toString scope.index ++ ")") ++
    "\x7d"

end Annotations

/-- What the pass finds out about a story: its scopes, and which nodes they belong to. -/
structure Resolution where
  scopes : Forest
  annotations : Annotations
  deriving DecidableEq

namespace Resolution

/-- Nothing is known yet. -/
def empty : Resolution := ⟨.empty, .empty⟩

/-- The scope that belongs to a node. -/
def scopeOf? (resolution : Resolution) (node : NodeId) : Option ScopeId :=
  resolution.annotations.get? node

/-- The symbol bound to a name as seen from the scope of a node. -/
def lookupAt (resolution : Resolution) (node : NodeId) (name : Name) :
    Except Fault (Option Symbol) :=
  match resolution.scopeOf? node with
  | none => .ok none
  | some scope => resolution.scopes.lookup scope name

/-- Whether two resolutions are alike but for the order of symbols within a scope. -/
def agrees (left right : Resolution) : Bool :=
  left.scopes.agrees right.scopes && left.annotations == right.annotations

end Resolution
end ScopeTyping
