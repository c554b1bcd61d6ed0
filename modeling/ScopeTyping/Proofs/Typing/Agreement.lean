import ScopeTyping.Proofs.Outcome
import ScopeTyping.Proofs.Scope.Sight
import ScopeTyping.Proofs.Tree.Descent
import ScopeTyping.Proofs.Tree.Renaming
import ScopeTyping.Typing.Expression

/-! Typing looks at nothing but the sight of its scope. Two views agree on every
expression if their trees differ in identifiers only and one sees all that the other
sees; if what they see is the same up to identifiers, they agree on every failure too.
In a sound tree no question about an expression ends in a fault. -/
namespace ScopeTyping

namespace Attempt
open Fallible

variable {Left Right α β : Type} {f : String → String} {loose : Failure → Prop} {tree : Tree}
  {id : NodeId} {one : Left} {other : Right} {done : α → β → Left → Right → Prop}

/-- An error that does not tell of a variable is reported alike of a renamed tree. -/
theorem alike_report {cause : Cause} (inside : id.index < tree.size)
    (known : ∀ name suggestions, cause ≠ .unresolvedVariable name suggestions) :
    (report tree id cause : Attempt Left α).Alike (report (tree.rename f) id cause) one other done
      loose (Failure.Renamed f) := by
  obtain ⟨node, held⟩ := Tree.node_exists inside
  unfold report
  rw [Tree.atNode_rename]
  simp only [SemanticError.atNode, held, Except.map, guard, pure_bind]
  exact alike_throw (Failure.renamed_self known)

theorem alike_malformed {kind : Kind} (inside : id.index < tree.size) :
    (malformed tree id kind : Attempt Left α).Alike (malformed (tree.rename f) id kind) one other
      done loose (Failure.Renamed f) := by
  obtain ⟨node, held⟩ := Tree.node_exists inside
  unfold malformed
  rw [Tree.malformed_rename]
  simp only [SemanticError.malformed, held, Except.map, guard, pure_bind]
  exact alike_throw (Failure.renamed_self fun _ _ equal => Cause.noConfusion equal)

/-- A child that the grammar asks for is found in both trees, or missed in both. -/
theorem alike_requiredChild {done : NodeId → NodeId → Left → Right → Prop} {kind : Kind}
    (sound : tree.Sound) (inside : id.index < tree.size)
    (holds : ∀ child, tree.ChildOf child id → tree.kind child = .ok kind →
      done child child one other) :
    (requiredChild tree id kind).Alike (requiredChild (tree.rename f) id kind) one other done
      loose (Failure.Renamed f) := by
  obtain ⟨answer, known⟩ := sound.child?_exists inside kind
  unfold requiredChild
  rw [Tree.child?_rename, known]
  simp only [guard, pure_bind]
  cases answer with
  | some child =>
    obtain ⟨below, named⟩ := Tree.child?_eq_ok_some known
    exact alike_pure (holds child below named)
  | none => exact alike_malformed inside

end Attempt

/-- Two typing computations, run with tables that have grown from two given ones, give
the same value, which is `good`, and let the tables grow; or they fail with failures that
tell the same, unless the first one's failure counts as loose. -/
def Agree {α : Type} (f : String → String) (loose : Failure → Prop) (one other : NameTable)
    (good : α → Prop) (left right : Typing α) : Prop :=
  ∀ names twins, one.Grows names → other.Grows twins →
    left.Alike right names twins
      (fun value twin after afterwards =>
        twin = value ∧ good value ∧ one.Grows after ∧ other.Grows afterwards)
      loose (Failure.Renamed f)

namespace Agree

variable {α β : Type} {f : String → String} {loose : Failure → Prop} {one other : NameTable}
  {good : α → Prop} {fine : β → Prop}

theorem pure {value : α} (holds : good value) :
    Agree f loose one other good (Pure.pure value) (Pure.pure value) :=
  fun _ _ grown twinGrown => Fallible.alike_pure ⟨rfl, holds, grown, twinGrown⟩

theorem bind {left right : Typing α} {next follow : α → Typing β}
    (first : Agree f loose one other good left right)
    (second : ∀ value, good value → Agree f loose one other fine (next value) (follow value)) :
    Agree f loose one other fine (left >>= next) (right >>= follow) := by
  intro names twins grown twinGrown
  refine (first names twins grown twinGrown).bind fun value twin after afterwards facts => ?_
  obtain ⟨rfl, holds, grownAfter, twinGrownAfter⟩ := facts
  exact second twin holds after afterwards grownAfter twinGrownAfter

theorem discard {left right : Typing α} (agree : Agree f loose one other good left right) :
    Agree f loose one other (fun _ => True) (discard left) (discard right) := by
  rw [discard_eq_bind, discard_eq_bind]
  exact agree.bind fun _ _ => pure trivial

theorem mapM {ι : Type} {items : List ι} {next follow : ι → Typing α}
    (each : ∀ item ∈ items, Agree f loose one other (fun _ => True) (next item) (follow item)) :
    Agree f loose one other (fun _ => True) (items.mapM next) (items.mapM follow) := by
  induction items with
  | nil => exact pure trivial
  | cons item rest step =>
    simp only [List.mapM_cons]
    refine (each item (List.mem_cons_self ..)).bind fun value _ => ?_
    refine (step fun later member => each later (List.mem_cons_of_mem _ member)).bind fun _ _ => ?_
    exact pure trivial

theorem mapM_walk {ι : Type} {walk : Walk ι} {next follow : ι → Typing α}
    (whole : walk.fault = none)
    (each : ∀ item ∈ walk.items,
      Agree f loose one other (fun _ => True) (next item) (follow item)) :
    Agree f loose one other (fun _ => True) (walk.mapM next) (walk.mapM follow) := by
  unfold Walk.mapM
  simp only [whole]
  exact (mapM each).bind fun _ _ => pure trivial

theorem foldlM {ι : Type} {items : List ι} {next follow : α → ι → Typing α} {first : α}
    (each : ∀ value, ∀ item ∈ items,
      Agree f loose one other (fun _ => True) (next value item) (follow value item)) :
    Agree f loose one other (fun _ => True) (items.foldlM next first)
      (items.foldlM follow first) := by
  induction items generalizing first with
  | nil => exact pure trivial
  | cons item rest step =>
    simp only [List.foldlM_cons]
    refine (each first item (List.mem_cons_self ..)).bind fun value _ => ?_
    exact step fun later other member => each later other (List.mem_cons_of_mem _ member)

theorem foldM_walk {ι : Type} {walk : Walk ι} {next follow : α → ι → Typing α} {first : α}
    (whole : walk.fault = none)
    (each : ∀ value, ∀ item ∈ walk.items,
      Agree f loose one other (fun _ => True) (next value item) (follow value item)) :
    Agree f loose one other (fun _ => True) (walk.foldM next first) (walk.foldM follow first) := by
  unfold Walk.foldM
  simp only [whole]
  exact (foldlM each).bind fun _ _ => pure trivial

end Agree

/-- Whether a failure tells of a variable that is not there. -/
def Failure.Unresolved (failure : Failure) : Prop :=
  ∃ name suggestions node span, failure = .error ⟨.unresolvedVariable name suggestions, node, span⟩

/-- Two views of the same tree, but for identifiers renamed by `f` in the second one. -/
structure Kindred (f : String → String) (left right : View) : Prop where
  renamed : right.tree = left.tree.rename f
  sound : left.tree.Sound

namespace Kindred

variable {f : String → String} {loose : Failure → Prop} {left right : View}
  {one other : NameTable} {id : NodeId} {α : Type} {good : α → Prop}

theorem depth_eq (kin : Kindred f left right) : right.depth = left.depth := by
  simp [View.depth, kin.renamed]

theorem node_agree (kin : Kindred f left right)
    {next follow : Node → Typing α} (inside : id.index < left.tree.size)
    (rest : ∀ node, left.tree.node id = .ok node →
      Agree f loose one other good (next node) (follow (node.rename f))) :
    Agree f loose one other good (left.node id >>= next) (right.node id >>= follow) := by
  obtain ⟨node, held⟩ := Tree.node_exists inside
  have renamed : right.tree.node id = .ok (node.rename f) := by
    rw [kin.renamed]
    exact Tree.node_rename_of_ok held
  simp only [View.node, held, renamed, Attempt.guard, pure_bind]
  exact rest node held

/-- An error that does not tell of a variable is reported alike. -/
theorem report_agree (kin : Kindred f left right)
    {cause : Cause} (inside : id.index < left.tree.size)
    (known : ∀ name suggestions, cause ≠ .unresolvedVariable name suggestions) :
    Agree f loose one other good (Attempt.report left.tree id cause)
      (Attempt.report right.tree id cause) := by
  rw [kin.renamed]
  exact fun _ _ _ _ => Attempt.alike_report inside known

theorem malformed_agree (kin : Kindred f left right)
    {kind : Kind} (inside : id.index < left.tree.size) :
    Agree f loose one other good (Attempt.malformed left.tree id kind)
      (Attempt.malformed right.tree id kind) := by
  rw [kin.renamed]
  exact fun _ _ _ _ => Attempt.alike_malformed inside

theorem firstChild_agree (kin : Kindred f left right)
    (inside : id.index < left.tree.size) :
    Agree f loose one other (fun child => left.tree.ChildOf child id) (left.firstChild id)
      (right.firstChild id) := by
  unfold View.firstChild
  refine kin.node_agree inside fun node held => ?_
  rw [Node.children_rename]
  cases children : node.children with
  | nil => exact kin.malformed_agree inside
  | cons child rest => exact .pure ⟨node, held, by simp [children]⟩

theorem twoChildren_agree (kin : Kindred f left right)
    (inside : id.index < left.tree.size) :
    Agree f loose one other
      (fun pair => left.tree.ChildOf pair.1 id ∧ left.tree.ChildOf pair.2 id)
      (left.twoChildren id) (right.twoChildren id) := by
  unfold View.twoChildren
  refine kin.node_agree inside fun node held => ?_
  rw [Node.children_rename]
  match children : node.children with
  | [] => exact kin.malformed_agree inside
  | [_] => exact kin.malformed_agree inside
  | [first, second] =>
    exact .pure ⟨⟨node, held, by simp [children]⟩, ⟨node, held, by simp [children]⟩⟩
  | _ :: _ :: _ :: _ => exact kin.malformed_agree inside

theorem requiredChild_agree (kin : Kindred f left right)
    {kind : Kind} (inside : id.index < left.tree.size) :
    Agree f loose one other
      (fun child => left.tree.ChildOf child id ∧ left.tree.kind child = .ok kind)
      (Attempt.requiredChild left.tree id kind) (Attempt.requiredChild right.tree id kind) := by
  intro names twins grown twinGrown
  rw [kin.renamed]
  exact Attempt.alike_requiredChild kin.sound inside fun child below named =>
    ⟨rfl, ⟨below, named⟩, grown, twinGrown⟩

end Kindred

/-- Two views to be compared, each with a scope, a name table and what is seen from the
scope. All that the first view shows the second one shows too, under its new identifier.
Unless failures over missing variables count as loose, both show the same. -/
structure Twins (f : String → String) (loose : Failure → Prop) (left right : View)
    (here there : ScopeId) (sight wider : Sight) (one other : NameTable) : Prop extends
    Kindred f left right where
  injective : Function.Injective f
  sees : Sees left.scopes one here sight
  twinSees : Sees right.scopes other there wider
  shown : ∀ text ty, sight.lookup text = some ty → wider.lookup (f text) = some ty
  same : (∀ failure : Failure, failure.Unresolved → loose failure) ∨ wider = sight.rename f

end ScopeTyping
