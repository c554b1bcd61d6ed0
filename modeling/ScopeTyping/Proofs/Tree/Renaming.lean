import ScopeTyping.Diagnostic.Failure
import ScopeTyping.Tree.Basic

/-! Identifiers of a tree renamed. Only the texts of names change: kinds, spans and
children stay, so every question about the shape of the tree has the answer it had. -/
namespace ScopeTyping

/-- A node whose text is renamed if it is a name. -/
def Node.rename (f : String → String) (node : Node) : Node :=
  { node with text := if node.kind = .name then f node.text else node.text }

/-- A tree with other identifiers. -/
def Tree.rename (f : String → String) (tree : Tree) : Tree :=
  ⟨tree.nodes.map (Node.rename f), tree.root⟩

namespace Node

variable {f : String → String} {node : Node}

@[simp] theorem kind_rename : (node.rename f).kind = node.kind := rfl

@[simp] theorem children_rename : (node.rename f).children = node.children := rfl

theorem text_rename_of_name (named : node.kind = .name) : (node.rename f).text = f node.text := by
  simp [rename, named]

theorem text_rename_of_ne (other : node.kind ≠ .name) : (node.rename f).text = node.text := by
  simp [rename, other]

end Node

namespace Tree

variable {f : String → String} {tree : Tree} {id parent : NodeId} {kind : Kind}

@[simp] theorem size_rename : (tree.rename f).size = tree.size := by
  simp [Tree.rename, size]

theorem node_rename (f : String → String) (tree : Tree) (id : NodeId) :
    (tree.rename f).node id = (tree.node id).map (Node.rename f) := by
  unfold node
  rw [size_rename]
  simp only [Tree.rename, Array.getElem?_map]
  cases tree.nodes[id.index]? <;> rfl

theorem node_rename_of_ok {node : Node} (held : tree.node id = .ok node) :
    (tree.rename f).node id = .ok (node.rename f) := by
  rw [node_rename, held]
  rfl

@[simp] theorem kind_rename : (tree.rename f).kind id = tree.kind id := by
  unfold Tree.kind
  rw [node_rename]
  cases tree.node id <;> rfl

theorem ofKind_rename (ids : List NodeId) : (tree.rename f).ofKind kind ids = tree.ofKind kind ids := by
  induction ids with
  | nil => rfl
  | cons head rest step => simp only [ofKind, kind_rename, step]

@[simp] theorem childrenOfKind_rename :
    (tree.rename f).childrenOfKind id kind = tree.childrenOfKind id kind := by
  unfold childrenOfKind
  rw [node_rename]
  cases tree.node id with
  | error fault => rfl
  | ok node => exact ofKind_rename node.children

@[simp] theorem child?_rename : (tree.rename f).child? id kind = tree.child? id kind := by
  unfold child?
  rw [childrenOfKind_rename]

@[simp] theorem rename_id : tree.rename (fun text => text) = tree := by
  have same : Node.rename (fun text => text) = id := by
    funext node
    simp [Node.rename]
  simp [Tree.rename, same]

@[simp] theorem atNode_rename {cause : Cause} :
    SemanticError.atNode (tree.rename f) id cause = SemanticError.atNode tree id cause := by
  unfold SemanticError.atNode
  rw [node_rename]
  cases tree.node id <;> rfl

@[simp] theorem malformed_rename {expected : Kind} :
    SemanticError.malformed (tree.rename f) id expected =
      SemanticError.malformed tree id expected := by
  unfold SemanticError.malformed
  rw [node_rename]
  cases tree.node id <;> rfl

end Tree

/-- A cause told of a renamed tree. An unknown variable is told under its new name; what is
suggested in its place can be compared only if no text has changed. -/
def Cause.Renamed (f : String → String) : Cause → Cause → Prop
  | .unresolvedVariable name suggestions, twin =>
    ∃ others, twin = .unresolvedVariable (f name) others ∧
      ((∀ text, f text = text) → others = suggestions)
  | cause, twin => twin = cause

/-- Failures of a tree and of the renamed tree that tell the same. Faults tell nothing. -/
def Failure.Renamed (f : String → String) : Failure → Failure → Prop
  | .error told, .error twin =>
    twin.node = told.node ∧ twin.span = told.span ∧ told.cause.Renamed f twin.cause
  | _, _ => False

variable {f : String → String}

/-- Causes that do not tell of a variable are told unchanged. -/
theorem Cause.renamed_self {cause : Cause}
    (known : ∀ name suggestions, cause ≠ .unresolvedVariable name suggestions) :
    cause.Renamed f cause := by
  cases cause with
  | unresolvedVariable name suggestions => exact absurd rfl (known name suggestions)
  | _ => rfl

theorem Failure.renamed_self {told : SemanticError}
    (known : ∀ name suggestions, told.cause ≠ .unresolvedVariable name suggestions) :
    (Failure.error told).Renamed f (.error told) :=
  ⟨rfl, rfl, Cause.renamed_self known⟩

theorem Cause.eq_of_renamed {cause twin : Cause} (told : cause.Renamed (fun text => text) twin) :
    twin = cause := by
  cases cause with
  | unresolvedVariable name suggestions =>
    obtain ⟨others, same, alike⟩ := told
    rw [same, alike fun _ => rfl]
  | _ => exact told

/-- Without renaming, failures that tell the same are the same errors. -/
theorem Failure.eq_of_renamed {failure twin : Failure}
    (alike : failure.Renamed (fun text => text) twin) :
    ∃ told, failure = .error told ∧ twin = .error told := by
  cases failure with
  | fault fault => exact False.elim alike
  | error told =>
    cases twin with
    | fault fault => exact False.elim alike
    | error other =>
      obtain ⟨node, span, cause⟩ := alike
      have sameCause := Cause.eq_of_renamed cause
      obtain ⟨otherCause, otherNode, otherSpan⟩ := other
      simp only at node span sameCause
      subst node span sameCause
      exact ⟨told, rfl, rfl⟩

end ScopeTyping
