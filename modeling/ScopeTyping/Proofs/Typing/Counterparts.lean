import ScopeTyping.Proofs.Typing.Sighted
import ScopeTyping.Typing.Rules

/-! The check of a function's returns, made by two views of one function. The views number
their scopes differently, so each return has a counterpart in the other view, in the scope
that answers to its own; twins agree on every return, and so on the whole check. -/
namespace ScopeTyping

/-- Two walks that reach their end and meet items that are related one by one. -/
structure Walk.Alongside {α β : Type} (R : α → β → Prop) (walk : Walk α) (twin : Walk β) : Prop where
  whole : walk.fault = none
  twinWhole : twin.fault = none
  items : List.Forall₂ R walk.items twin.items

theorem Walk.alongside_concat {α β : Type} {R : α → β → Prop} {pieces : List (Walk α)}
    {twins : List (Walk β)} (each : List.Forall₂ (Walk.Alongside R) pieces twins) :
    Walk.Alongside R (concat pieces) (concat twins) := by
  induction each with
  | nil => exact ⟨rfl, rfl, .nil⟩
  | cons first _ step =>
    simp only [concat, append, first.whole, first.twinWhole]
    exact ⟨step.whole, step.twinWhole, List.rel_append first.items step.items⟩

namespace Agree

variable {α β : Type} {f : String → String} {loose : Failure → Prop} {one other : NameTable}
  {R : α → β → Prop}

theorem forM {items : List α} {twins : List β} {next : α → Typing Unit} {follow : β → Typing Unit}
    (related : List.Forall₂ R items twins)
    (each : ∀ item twin, R item twin →
      Agree f loose one other (fun _ => True) (next item) (follow twin)) :
    Agree f loose one other (fun _ => True) (items.forM next) (twins.forM follow) := by
  induction related with
  | nil => exact pure trivial
  | cons first _ step => exact (each _ _ first).bind fun _ _ => step

theorem forEach {walk : Walk α} {twin : Walk β} {next : α → Typing Unit} {follow : β → Typing Unit}
    (alongside : Walk.Alongside R walk twin)
    (each : ∀ item twin, R item twin →
      Agree f loose one other (fun _ => True) (next item) (follow twin)) :
    Agree f loose one other (fun _ => True) (walk.forEach next) (twin.forEach follow) := by
  unfold Walk.forEach
  simp only [alongside.whole, alongside.twinWhole]
  exact (forM alongside.items each).bind fun _ _ => pure trivial

end Agree

namespace Typing

variable {f : String → String} {left right : View} {here there : ScopeId} {id root : NodeId}
  {R : ScopeId → ScopeId → Prop}

/-- A return of one view and its counterpart: the same node, in related scopes. -/
def Counterpart (tree : Tree) (R : ScopeId → ScopeId → Prop) (site twin : NodeId × ScopeId) : Prop :=
  site.1.index < tree.size ∧ twin.1 = site.1 ∧ R site.2 twin.2

theorem related_getD {one other : Option ScopeId} (both : Option.Rel R one other)
    (related : R here there) : R (one.getD here) (other.getD there) := by
  cases both with
  | none => exact related
  | some inner => exact inner

/-- Views that attach related scopes below a node find returns that are counterparts. -/
theorem returnSitesWithin_alongside (kin : Kindred f left right)
    (attached : ∀ id, left.tree.Under id root →
      Option.Rel R (left.annotations.get? id) (right.annotations.get? id))
    {depth : Nat} (under : left.tree.Under id root) (inside : id.index < left.tree.size)
    (deep : left.tree.height id < depth) (related : R here there) :
    Walk.Alongside (Counterpart left.tree R) (returnSitesWithin left depth id here)
      (returnSitesWithin right depth id there) := by
  induction depth generalizing id here there with
  | zero => exact absurd deep (Nat.not_lt_zero _)
  | succ depth step =>
    obtain ⟨node, held⟩ := Tree.node_exists inside
    have twinHeld : right.tree.node id = .ok (node.rename f) := by
      rw [kin.renamed]
      exact Tree.node_rename_of_ok held
    simp only [returnSitesWithin, held, twinHeld, Node.children_rename]
    apply Walk.alongside_concat
    rw [List.forall₂_map_left_iff, List.forall₂_map_right_iff, List.forall₂_same]
    intro child member
    have below := Tree.childOf_of_mem held member
    have childInside := kin.sound.inside child id below
    obtain ⟨found, childHeld⟩ := Tree.node_exists childInside
    have kind := Tree.kind_of_node childHeld
    have twinKind : right.tree.kind child = .ok found.kind := by
      rw [kin.renamed, Tree.kind_rename, kind]
    have childUnder : left.tree.Under child root := .head below under
    have childRelated : R ((left.annotations.get? child).getD here)
        ((right.annotations.get? child).getD there) :=
      related_getD (attached child childUnder) related
    have lower := kin.sound.height_lt below
    simp only [kind, twinKind]
    cases found.kind with
    | functionBlock => exact ⟨rfl, rfl, .nil⟩
    | returnStatement => exact ⟨rfl, rfl, .cons ⟨childInside, rfl, childRelated⟩ .nil⟩
    | _ => exact step childUnder childInside (by omega) childRelated

theorem returnSites_alongside (kin : Kindred f left right)
    (attached : ∀ id, left.tree.Under id root →
      Option.Rel R (left.annotations.get? id) (right.annotations.get? id))
    (under : left.tree.Under id root) (inside : id.index < left.tree.size) (related : R here there) :
    Walk.Alongside (Counterpart left.tree R) (returnSites left id here)
      (returnSites right id there) := by
  unfold returnSites
  rw [kin.depth_eq]
  exact returnSitesWithin_alongside kin attached under inside
    (Nat.lt_succ_of_le (Tree.height_le left.tree id)) related

end Typing

namespace Twins
open Typing

variable {f : String → String} {loose : Failure → Prop} {left right : View} {here there : ScopeId}
  {sight wider : Sight} {one other : NameTable} {id : NodeId}

theorem returned_agree (twins : Twins f loose left right here there sight wider one other)
    (inside : id.index < left.tree.size) :
    Agree f loose one other (fun _ => True) (returned left (id, here)) (returned right (id, there)) := by
  obtain ⟨answer, known⟩ := twins.sound.child?_exists inside .baseExpression
  unfold returned
  rw [twins.renamed, Tree.child?_rename, known]
  simp only [Attempt.guard, pure_bind]
  cases answer with
  | none => exact .pure trivial
  | some value =>
    have below := (Tree.child?_eq_ok_some known).1
    exact twins.expression_agree (twins.sound.inside value id below)

/-- Twins agree on whether a return fits, and on the error if it does not. -/
theorem checkReturn_agree (twins : Twins f loose left right here there sight wider one other)
    (declared : Ty) (inside : id.index < left.tree.size) :
    Agree f loose one other (fun _ => True) (checkReturn left declared (id, here))
      (checkReturn right declared (id, there)) := by
  unfold checkReturn
  refine (twins.returned_agree inside).bind fun found _ => ?_
  by_cases fits : declared.accepts found = true
  · simp only [fits, if_true]
    exact .pure trivial
  · simp only [fits]
    exact twins.report_agree inside fun _ _ equal => Cause.noConfusion equal

end Twins

/-- Views whose scopes below a function answer to each other agree on its returns. -/
theorem Kindred.checkReturns_agree {f : String → String} {loose : Failure → Prop}
    {left right : View} {one other : NameTable} {R : ScopeId → ScopeId → Prop} {body root : NodeId}
    {here there : ScopeId} (kin : Kindred f left right)
    (twins : ∀ here there, R here there → ∃ sight wider,
      Twins f loose left right here there sight wider one other)
    (attached : ∀ id, left.tree.Under id root →
      Option.Rel R (left.annotations.get? id) (right.annotations.get? id))
    (under : left.tree.Under body root) (inside : body.index < left.tree.size)
    (related : R here there) (declared : Ty) :
    Agree f loose one other (fun _ => True) (Typing.checkReturns left body here declared)
      (Typing.checkReturns right body there declared) := by
  unfold Typing.checkReturns
  refine Agree.forEach (Typing.returnSites_alongside kin attached under inside related) ?_
  rintro ⟨site, inner⟩ ⟨_, twinInner⟩ ⟨siteInside, rfl, siteRelated⟩
  obtain ⟨sight, wider, seen⟩ := twins inner twinInner siteRelated
  exact seen.checkReturn_agree declared siteInside

end ScopeTyping
