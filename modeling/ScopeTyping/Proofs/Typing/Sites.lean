import ScopeTyping.Proofs.Tree.Descent
import ScopeTyping.Typing.Rules

/-! The returns that the check of a function looks at. They are those that its body reaches
without passing another function or another return, and each is typed in the scope of the
nearest node around it that has one. -/
namespace ScopeTyping

namespace Walk

variable {α : Type} {pieces : List (Walk α)} {item : α}

theorem mem_items_concat (member : item ∈ (concat pieces).items) :
    ∃ piece ∈ pieces, item ∈ piece.items := by
  induction pieces with
  | nil => cases member
  | cons first rest step =>
    unfold concat append at member
    split at member
    · exact ⟨first, List.mem_cons_self .., member⟩
    · rcases List.mem_append.1 member with here | later
      · exact ⟨first, List.mem_cons_self .., here⟩
      · obtain ⟨piece, among, within⟩ := step later
        exact ⟨piece, List.mem_cons_of_mem _ among, within⟩

/-- Walks one after another reach their end only if each of them does. -/
theorem whole_of_concat (whole : (concat pieces).fault = none) :
    ∀ piece ∈ pieces, piece.fault = none ∧ ∀ item ∈ piece.items, item ∈ (concat pieces).items := by
  induction pieces with
  | nil => simp
  | cons first rest step =>
    unfold concat append at whole ⊢
    cases ended : first.fault with
    | some fault =>
      rw [ended] at whole
      cases ended.symm.trans whole
    | none =>
      rw [ended] at whole
      intro piece among
      rcases List.mem_cons.1 among with rfl | later
      · exact ⟨ended, fun item member => List.mem_append_left _ member⟩
      · obtain ⟨reached, kept⟩ := step whole piece later
        exact ⟨reached, fun item member => List.mem_append_right _ (kept item member)⟩

end Walk

namespace Tree

variable {tree : Tree} {annotations : Annotations} {id child site : NodeId} {scope inner : ScopeId}

/-- A return that a node reaches downwards without passing a function or another return. -/
inductive ReturnBelow (tree : Tree) : NodeId → NodeId → Prop where
  | here {id site : NodeId} (below : tree.ChildOf site id)
      (kind : tree.kind site = .ok .returnStatement) : ReturnBelow tree id site
  | further {id child site : NodeId} {kind : Kind} (below : tree.ChildOf child id)
      (known : tree.kind child = .ok kind) (noFunction : kind ≠ .functionBlock)
      (noReturn : kind ≠ .returnStatement) (deeper : ReturnBelow tree child site) :
      ReturnBelow tree id site

/-- What a node holds stands in the scope of the node, or else in that of the nearest node
around it that has one. -/
inductive Within (tree : Tree) (annotations : Annotations) : NodeId → ScopeId → Prop where
  | own {id : NodeId} {scope : ScopeId} (held : annotations.get? id = some scope) :
      Within tree annotations id scope
  | outer {id parent : NodeId} {scope : ScopeId} (free : annotations.get? id = none)
      (below : tree.ChildOf id parent) (around : Within tree annotations parent scope) :
      Within tree annotations id scope

theorem Within.descend (within : tree.Within annotations id scope) (below : tree.ChildOf child id) :
    tree.Within annotations child ((annotations.get? child).getD scope) := by
  cases held : annotations.get? child with
  | some inner => exact .own held
  | none => exact .outer held below within

/-- In a tree that places every node once, a node stands in one scope. -/
theorem Within.unique (once : tree.PlacesOnce) (within : tree.Within annotations id scope)
    (also : tree.Within annotations id inner) : scope = inner := by
  induction within with
  | own held =>
    cases also with
    | own other => exact Option.some.inj (held.symm.trans other)
    | outer free _ _ => cases held.symm.trans free
  | outer free below around step =>
    cases also with
    | own other => cases free.symm.trans other
    | outer _ otherBelow otherAround =>
      cases once.parent_unique below otherBelow
      exact step otherAround

theorem ReturnBelow.kind (below : tree.ReturnBelow id site) :
    tree.kind site = .ok .returnStatement := by
  induction below with
  | here _ kind => exact kind
  | further _ _ _ _ _ step => exact step

theorem ReturnBelow.under (below : tree.ReturnBelow id site) :
    Relation.TransGen tree.ChildOf site id := by
  induction below with
  | here below _ => exact .single below
  | further below _ _ _ _ step => exact step.tail below

end Tree

namespace Typing

variable {view : View} {id site : NodeId} {scope inner : ScopeId}

/-- Every return that the check looks at is one of the body's. What holds of a node and a scope
and is handed on to the children with the scope around them holds of the return too. -/
theorem mem_returnSitesWithin_descend {Stands : NodeId → ScopeId → Prop} {depth : Nat}
    (descend : ∀ id scope child, Stands id scope → view.tree.ChildOf child id →
      Stands child ((view.annotations.get? child).getD scope))
    (stands : Stands id scope)
    (member : (site, inner) ∈ (returnSitesWithin view depth id scope).items) :
    view.tree.ReturnBelow id site ∧ Stands site inner := by
  induction depth generalizing id scope with
  | zero => cases member
  | succ depth step =>
    unfold returnSitesWithin at member
    split at member
    · cases member
    · rename_i node held
      obtain ⟨piece, among, here⟩ := Walk.mem_items_concat member
      obtain ⟨child, childMember, rfl⟩ := List.mem_map.1 among
      have below := Tree.childOf_of_mem held childMember
      have childStands := descend id scope child stands below
      dsimp only at here
      split at here
      · cases here
      · cases here
      · rename_i known
        rw [Walk.items_whole, List.mem_singleton, Prod.mk.injEq] at here
        obtain ⟨rfl, rfl⟩ := here
        exact ⟨.here below known, childStands⟩
      · rename_i kind noFunction noReturn known
        obtain ⟨deeper, around⟩ := step childStands here
        exact ⟨.further below known noFunction noReturn deeper, around⟩

/-- Every return that the check looks at is typed in the scope around it. -/
theorem mem_returnSitesWithin {depth : Nat} (within : view.tree.Within view.annotations id scope)
    (member : (site, inner) ∈ (returnSitesWithin view depth id scope).items) :
    view.tree.ReturnBelow id site ∧ view.tree.Within view.annotations site inner :=
  mem_returnSitesWithin_descend (fun _ _ _ around below => around.descend below) within member

theorem returnBelow_of_mem {depth : Nat}
    (member : (site, inner) ∈ (returnSitesWithin view depth id scope).items) :
    view.tree.ReturnBelow id site :=
  (@mem_returnSitesWithin_descend view id site scope inner (fun _ _ => True) depth
    (fun _ _ _ _ _ => trivial) trivial member).1

/-- A check that gets to its end has looked at every return of the body. -/
theorem returnSitesWithin_complete (below : view.tree.ReturnBelow id site) {depth : Nat}
    (whole : (returnSitesWithin view depth id scope).fault = none) :
    ∃ inner, (site, inner) ∈ (returnSitesWithin view depth id scope).items := by
  induction below generalizing depth scope with
  | @here id site siteBelow kind =>
    obtain ⟨node, held, member⟩ := siteBelow
    cases depth with
    | zero => cases whole
    | succ depth =>
      simp only [returnSitesWithin, held] at whole ⊢
      obtain ⟨_, kept⟩ := Walk.whole_of_concat whole _ (List.mem_map_of_mem member)
      refine ⟨(view.annotations.get? site).getD scope, kept _ ?_⟩
      rw [kind]
      exact List.mem_singleton.2 rfl
  | @further id child site childKind childBelow known noFunction noReturn deeper step =>
    obtain ⟨node, held, member⟩ := childBelow
    cases depth with
    | zero => cases whole
    | succ depth =>
      simp only [returnSitesWithin, held] at whole ⊢
      obtain ⟨reached, kept⟩ := Walk.whole_of_concat whole _ (List.mem_map_of_mem member)
      rw [known] at reached kept
      cases childKind with
      | functionBlock => exact absurd rfl noFunction
      | returnStatement => exact absurd rfl noReturn
      | _ =>
        obtain ⟨inner, among⟩ := step reached
        exact ⟨inner, kept _ among⟩

end Typing
end ScopeTyping
