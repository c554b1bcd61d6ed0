import ScopeTyping.Proofs.Pass.Parallel

/-! Every handler of the pass does the same in both of two runs that mirror each other, if
visiting the nodes below does. A function needs no scope to start from: it opens its own, and
nothing that it asks looks past that scope. -/
namespace ScopeTyping

/-- Two runs at one node, given how each of them visits the nodes below it. -/
structure Abreast (f : String → String) (tree : Tree) (root : NodeId)
    (start twinStart : Snapshot) (id : NodeId) (visit twin : Resolver.Visit) : Prop extends
    Footing f tree root start twinStart where
  under : tree.Under id root
  visits : ∀ child count here there, Relation.TransGen tree.ChildOf child id →
    Paired start twinStart count here there →
    Parallel f start twinStart count (fun _ _ _ => True) (visit child here) (twin child there)

variable {f : String → String} {tree : Tree} {root id parent : NodeId}
  {start twinStart : Snapshot} {count : Nat} {here there : ScopeId} {visit twin : Resolver.Visit}

/-! ### Questions -/

namespace Footing

theorem path_parallel (footing : Footing f tree root start twinStart) (under : tree.Under id root)
    (paired : Paired start twinStart count here there) (mustExist : Bool) :
    Parallel f start twinStart count (fun symbol twin _ => twin.ty = symbol.ty)
      (tree.resolver.path id here mustExist) ((tree.rename f).resolver.path id there mustExist) := by
  refine Parallel.ask fun left right now le mirror => ?_
  obtain ⟨sight, twins⟩ := mirror.twins footing (paired.later le)
  exact twins.path_alike (footing.inside_of_under under) (.inr rfl) (.refl _) (.refl _)

theorem expression_parallel (footing : Footing f tree root start twinStart)
    (under : tree.Under id root) (paired : Paired start twinStart count here there) :
    Parallel f start twinStart count (fun ty twin _ => twin = ty)
      (tree.resolver.expression id here) ((tree.rename f).resolver.expression id there) := by
  refine Parallel.ask_agree fun left right now le mirror => ?_
  obtain ⟨sight, twins⟩ := mirror.twins footing (paired.later le)
  exact twins.expression_agree (footing.inside_of_under under)

theorem declared_parallel (footing : Footing f tree root start twinStart)
    (types : tree.kind id = .ok .types) :
    Parallel f start twinStart count (fun ty twin _ => twin = ty)
      (tree.resolver.declared id) ((tree.rename f).resolver.declared id) := by
  refine Parallel.ask_agree fun left right now le mirror => ?_
  have kin : Kindred f (left.view tree) (right.view (tree.rename f)) := ⟨rfl, footing.sound⟩
  exact kin.declared_agree types

/-- The returns of a body are looked for in scopes attached below it, which are paired. -/
theorem checkReturns_parallel (footing : Footing f tree root start twinStart)
    (under : tree.Under id root) (paired : Paired start twinStart count here there) (ty : Ty) :
    Parallel f start twinStart count (fun _ _ _ => True)
      (tree.resolver.checkReturns id here ty)
      ((tree.rename f).resolver.checkReturns id there ty) := by
  refine (Parallel.ask_agree fun left right now le mirror => ?_).weaken fun _ _ _ _ => trivial
  have kin : Kindred f (left.view tree) (right.view (tree.rename f)) := ⟨rfl, footing.sound⟩
  refine kin.checkReturns_agree (fun inner twinInner both => ?_)
    (fun id below => mirror.annotated footing below) under (footing.inside_of_under under)
    (paired.later le) ty
  obtain ⟨sight, twins⟩ := mirror.twins footing both
  exact ⟨sight, sight.rename f, twins⟩

end Footing

/-! ### Handlers -/

namespace Abreast

theorem child_under (abreast : Abreast f tree root start twinStart id visit twin) {child : NodeId}
    (below : tree.ChildOf child id) : tree.Under child root := .head below abreast.under

theorem children_parallel (abreast : Abreast f tree root start twinStart id visit twin)
    (under : tree.Under parent id) (paired : Paired start twinStart count here there) :
    Parallel f start twinStart count (fun _ _ _ => True)
      (tree.resolver.visitChildren visit parent here)
      ((tree.rename f).resolver.visitChildren twin parent there) := by
  unfold Resolver.visitChildren
  refine Parallel.node_bind abreast.toFooting (under.trans abreast.under) fun node held => ?_
  exact Parallel.forM fun child member =>
    abreast.visits child count here there (.head' ⟨node, held, member⟩ under) paired

theorem body_parallel (abreast : Abreast f tree root start twinStart id visit twin)
    (paired : Paired start twinStart count here there) :
    Parallel f start twinStart count (fun body twin _ => twin = body ∧ tree.ChildOf body id)
      (tree.resolver.visitBody visit id here) ((tree.rename f).resolver.visitBody twin id there) := by
  unfold Resolver.visitBody
  refine Parallel.requiredChild_bind abreast.toFooting abreast.under fun body below _ => ?_
  refine (abreast.children_parallel (.single below) paired).bind fun _ _ _ _ _ => ?_
  exact Parallel.pure fun _ _ => ⟨rfl, below⟩

theorem branches_parallel (abreast : Abreast f tree root start twinStart id visit twin)
    (body : NodeId) (paired : Paired start twinStart count here there) :
    Parallel f start twinStart count (fun _ _ _ => True)
      (tree.resolver.visitAfter visit id body here)
      ((tree.rename f).resolver.visitAfter twin id body there) := by
  unfold Resolver.visitAfter
  refine Parallel.node_bind abreast.toFooting abreast.under fun node held => ?_
  exact Parallel.forM fun child member => abreast.visits child count here there
    (.single ⟨node, held, Tree.mem_children_of_mem_branches member⟩) paired

/-- A construct visits its body and then the branches behind it, all in one scope. -/
theorem branching_parallel (abreast : Abreast f tree root start twinStart id visit twin)
    (paired : Paired start twinStart count here there) :
    Parallel f start twinStart count (fun _ _ _ => True)
      (tree.resolver.branching visit id here)
      ((tree.rename f).resolver.branching twin id there) := by
  apply (abreast.body_parallel paired).bind
  rintro _ body later le ⟨rfl, _⟩
  exact abreast.branches_parallel body (paired.later le)

/-- A node that opens a scope visits its children in it. -/
theorem enclose_parallel (abreast : Abreast f tree root start twinStart id visit twin)
    {outer twinOuter : Option ScopeId} (kind : ScopeKind)
    (parents : Option.Rel (Paired start twinStart count) outer twinOuter) :
    Parallel f start twinStart count (fun _ _ _ => True)
      (tree.resolver.enclose visit id outer kind)
      ((tree.rename f).resolver.enclose twin id twinOuter kind) := by
  refine (Parallel.openScope kind parents).bind fun inner twinInner opened _ paired => ?_
  refine (Parallel.record _ _).bind fun _ _ readied le _ => ?_
  have pairedReady := paired.later le
  apply (Parallel.attach abreast.toFooting abreast.under pairedReady).bind
  exact fun _ _ attached further _ => abreast.children_parallel .refl (pairedReady.later further)

theorem condition_parallel (abreast : Abreast f tree root start twinStart id visit twin)
    (paired : Paired start twinStart count here there) (header : Kind) :
    Parallel f start twinStart count (fun _ _ _ => True)
      (tree.resolver.condition header id here)
      ((tree.rename f).resolver.condition header id there) := by
  unfold Resolver.condition
  refine Parallel.requiredChild_bind abreast.toFooting abreast.under fun header below _ => ?_
  have under := abreast.child_under below
  refine Parallel.requiredChild_bind abreast.toFooting under fun condition further _ => ?_
  exact (abreast.expression_parallel (.head further under) paired).discard

theorem sides_parallel (abreast : Abreast f tree root start twinStart id visit twin)
    (paired : Paired start twinStart count here there) :
    Parallel f start twinStart count
      (fun (path, target, found) (twinPath, twinTarget, twinFound) _ => twinPath = path ∧
        tree.Under path root ∧ twinTarget.ty = target.ty ∧ twinFound = found)
      (tree.resolver.sides id here) ((tree.rename f).resolver.sides id there) := by
  have footing := abreast.toFooting
  unfold Resolver.sides
  refine Parallel.requiredChild_bind footing abreast.under fun path pathBelow _ => ?_
  have pathUnder := abreast.child_under pathBelow
  apply (footing.path_parallel pathUnder paired false).bind
  intro target twinTarget asked askedLe same
  refine Parallel.requiredChild_bind footing abreast.under fun fragment fragmentBelow _ => ?_
  have fragmentUnder := abreast.child_under fragmentBelow
  refine Parallel.requiredChild_bind footing fragmentUnder fun value valueBelow _ => ?_
  apply (footing.expression_parallel (.head valueBelow fragmentUnder) (paired.later askedLe)).bind
  rintro _ found typed typedLe rfl
  exact Parallel.pure fun _ _ => ⟨rfl, pathUnder, same, rfl⟩

/-- An assignment finds its variable missing from both runs or from neither. -/
theorem assignment_parallel (abreast : Abreast f tree root start twinStart id visit twin)
    (paired : Paired start twinStart count here there) :
    Parallel f start twinStart count (fun _ _ _ => True)
      (tree.resolver.assignment visit id here)
      ((tree.rename f).resolver.assignment twin id there) := by
  have footing := abreast.toFooting
  unfold Resolver.assignment
  apply (abreast.sides_parallel paired).bind
  rintro ⟨_, target, _⟩ ⟨path, twinTarget, found⟩ typed typedLe ⟨rfl, pathUnder, same, rfl⟩
  have pairedTyped := paired.later typedLe
  dsimp only
  rw [same]
  by_cases unknown : target.ty.isAbsent = true
  · simp only [unknown, if_true]
    refine Parallel.requiredChild_bind footing pathUnder fun head _ isName => ?_
    refine (Parallel.bindName footing isName pairedTyped _).bind fun _ _ bound boundLe _ => ?_
    exact abreast.children_parallel .refl (pairedTyped.later boundLe)
  · by_cases fits : target.ty.accepts found = true
    · simp only [unknown, fits, Bool.false_eq_true, if_false, if_true]
      exact abreast.children_parallel .refl pairedTyped
    · simp only [unknown, fits, Bool.false_eq_true, if_false]
      refine (Parallel.report footing abreast.under fun _ _ equal => ?_).bind ?_
      · exact Cause.noConfusion equal
      · exact fun _ _ _ _ never => never.elim

/-- A loop binds its variables and then visits its body. -/
theorem loopBody_parallel (abreast : Abreast f tree root start twinStart id visit twin)
    (paired : Paired start twinStart count here there) {header : NodeId}
    (under : tree.Under header root) :
    Parallel f start twinStart count (fun _ _ _ => True)
      (tree.resolver.loopBody visit id header here)
      ((tree.rename f).resolver.loopBody twin id header there) := by
  have footing := abreast.toFooting
  unfold Resolver.loopBody
  refine Parallel.requiredChild_bind footing under fun output below _ => ?_
  have inside := footing.inside_of_under (.head below under)
  have whole := footing.sound.fault_childrenOfKind inside .name
  rw [Tree.childrenOfKind_rename]
  refine (Parallel.forEach whole fun name member => ?_).bind fun _ _ bound boundLe _ => ?_
  · exact Parallel.bindName footing (Tree.mem_items_childrenOfKind member).2 paired .any
  · refine (Parallel.record _ _).bind fun _ _ readied readiedLe _ => ?_
    exact (abreast.body_parallel ((paired.later boundLe).later readiedLe)).discard

theorem foreachBlock_parallel (abreast : Abreast f tree root start twinStart id visit twin)
    (paired : Paired start twinStart count here there) :
    Parallel f start twinStart count (fun _ _ _ => True)
      (tree.resolver.foreachBlock visit id here)
      ((tree.rename f).resolver.foreachBlock twin id there) := by
  have footing := abreast.toFooting
  unfold Resolver.foreachBlock
  apply (Parallel.openScope .loop (.some paired)).bind
  intro inner twinInner opened openedLe innerPaired
  apply (Parallel.attach footing abreast.under innerPaired).bind
  intro _ _ attached attachedLe _
  have outerPaired := (paired.later openedLe).later attachedLe
  have loopPaired := innerPaired.later attachedLe
  refine Parallel.requiredChild_bind footing abreast.under fun header headerBelow _ => ?_
  have headerUnder := abreast.child_under headerBelow
  refine Parallel.child?_bind footing headerUnder fun iterable found => ?_
  dsimp only
  cases iterable with
  | none => exact abreast.loopBody_parallel loopPaired headerUnder
  | some iterable =>
    have below := (Tree.child?_eq_ok_some found).1
    apply (footing.expression_parallel (.head below headerUnder) outerPaired).discard.bind
    intro _ _ typed typedLe _
    exact abreast.loopBody_parallel (loopPaired.later typedLe) headerUnder

end Abreast

namespace Footing

theorem parameter_parallel (footing : Footing f tree root start twinStart)
    (under : tree.Under id root) (paired : Paired start twinStart count here there) :
    Parallel f start twinStart count (fun _ _ _ => True) (tree.resolver.parameter here id)
      ((tree.rename f).resolver.parameter there id) := by
  unfold Resolver.parameter
  refine Parallel.requiredChild_bind footing under fun name _ isName => ?_
  refine Parallel.requiredChild_bind footing under fun types _ isTypes => ?_
  apply (footing.declared_parallel isTypes).bind
  rintro _ ty declared le rfl
  exact Parallel.bindName footing isName (paired.later le) ty

theorem returnType_parallel (footing : Footing f tree root start twinStart)
    (under : tree.Under id root) :
    Parallel f start twinStart count (fun ty twin _ => twin = ty) (tree.resolver.returnType id)
      ((tree.rename f).resolver.returnType id) := by
  unfold Resolver.returnType
  refine Parallel.child?_bind footing under fun answer found => ?_
  cases answer with
  | none => exact Parallel.pure fun _ _ => rfl
  | some output =>
    have below := (Tree.child?_eq_ok_some found).1
    refine Parallel.requiredChild_bind footing (.head below under) fun types _ isTypes => ?_
    exact footing.declared_parallel isTypes

/-- The scope of a function and what it returns depend on nothing that was there before. -/
theorem signature_parallel (footing : Footing f tree root start twinStart)
    (under : tree.Under id root) :
    Parallel f start twinStart count
      (fun answer twin later => twin.2 = answer.2 ∧ Paired start twinStart later answer.1 twin.1)
      (tree.resolver.signature id) ((tree.rename f).resolver.signature id) := by
  have whole := footing.sound.fault_childrenOfKind (footing.inside_of_under under) .typedArgument
  unfold Resolver.signature
  refine (Parallel.openScope .function .none).bind fun scope twinScope opened _ paired => ?_
  rw [Tree.childrenOfKind_rename]
  refine (Parallel.forEach whole fun argument member => ?_).bind fun _ _ bound boundLe _ => ?_
  · exact footing.parameter_parallel (.head (Tree.mem_items_childrenOfKind member).1 under) paired
  · refine (Parallel.record _ _).bind fun _ _ readied readiedLe _ => ?_
    apply (footing.returnType_parallel under).bind
    rintro _ ty returned returnedLe rfl
    exact Parallel.pure fun last lastLe =>
      ⟨rfl, (((paired.later boundLe).later readiedLe).later returnedLe).later lastLe⟩

end Footing

namespace Abreast

/-- A function does the same wherever it stands. -/
theorem functionBlock_parallel (abreast : Abreast f tree root start twinStart id visit twin) :
    Parallel f start twinStart count (fun _ _ _ => True) (tree.resolver.functionBlock visit id)
      ((tree.rename f).resolver.functionBlock twin id) := by
  have footing := abreast.toFooting
  unfold Resolver.functionBlock
  refine Parallel.requiredChild_bind footing abreast.under fun header headerBelow _ => ?_
  apply (footing.signature_parallel (abreast.child_under headerBelow)).bind
  rintro ⟨scope, _⟩ ⟨twinScope, ty⟩ signed _ ⟨rfl, paired⟩
  refine (Parallel.attach footing abreast.under paired).bind fun _ _ attached attachedLe _ => ?_
  have pairedAttached := paired.later attachedLe
  apply (abreast.body_parallel pairedAttached).bind
  rintro _ body visited visitedLe ⟨rfl, below⟩
  have pairedVisited := pairedAttached.later visitedLe
  exact footing.checkReturns_parallel (abreast.child_under below) pairedVisited ty

/-- A node does the same in both runs, if it is a function or stands in paired scopes. -/
theorem visitWith_parallel (abreast : Abreast f tree root start twinStart id visit twin)
    (around : tree.kind id ≠ .ok .functionBlock → Paired start twinStart count here there) :
    Parallel f start twinStart count (fun _ _ _ => True) (tree.resolver.visitWith visit id here)
      ((tree.rename f).resolver.visitWith twin id there) := by
  unfold Resolver.visitWith
  refine (Parallel.record _ _).bind fun _ _ entered enteredLe _ => ?_
  refine Parallel.node_bind abreast.toFooting abreast.under fun node held => ?_
  rw [Node.kind_rename]
  have paired : node.kind ≠ .functionBlock → Paired start twinStart entered here there := by
    intro other
    refine (around fun same => ?_).later enteredLe
    exact other (Except.ok.inj ((Tree.kind_of_node held).symm.trans same))
  cases kind : node.kind with
  | functionBlock => exact abreast.functionBlock_parallel
  | start => exact abreast.enclose_parallel .root .none
  | nestedBlock => exact abreast.enclose_parallel .block (.some (paired (by simp [kind])))
  | assignment => exact abreast.assignment_parallel (paired (by simp [kind]))
  | foreachBlock => exact abreast.foreachBlock_parallel (paired (by simp [kind]))
  | whileBlock | whenBlock | elseBlock =>
    exact (abreast.body_parallel (paired (by simp [kind]))).discard
  | ifBlock =>
    have inside := paired (by simp [kind])
    refine (abreast.condition_parallel inside .ifStatement).bind fun _ _ typed typedLe _ => ?_
    exact abreast.branching_parallel (inside.later typedLe)
  | elseifBlock =>
    have inside := paired (by simp [kind])
    refine (abreast.condition_parallel inside .elseifStatement).bind fun _ _ typed typedLe _ => ?_
    exact (abreast.body_parallel (inside.later typedLe)).discard
  | tryBlock => exact abreast.branching_parallel (paired (by simp [kind]))
  | _ => exact abreast.children_parallel .refl (paired (by simp [kind]))

end Abreast

namespace Footing

/-- Visits of one node, no matter how deep they go, are alike in both runs. -/
theorem visitWithin_parallel (footing : Footing f tree root start twinStart) {depth : Nat}
    (under : tree.Under id root) (deep : tree.height id < depth)
    (around : tree.kind id ≠ .ok .functionBlock → Paired start twinStart count here there) :
    Parallel f start twinStart count (fun _ _ _ => True)
      (tree.resolver.visitWithin depth id here)
      ((tree.rename f).resolver.visitWithin depth id there) := by
  induction depth generalizing id count here there with
  | zero => exact absurd deep (Nat.not_lt_zero _)
  | succ depth step =>
    refine Abreast.visitWith_parallel ⟨footing, under, ?_⟩ around
    intro child inner outer twinOuter below paired
    have lower := footing.sound.height_lt_of_transGen below
    exact step (below.to_reflTransGen.trans under) (by omega) fun _ => paired

theorem visit_parallel (footing : Footing f tree root start twinStart) (under : tree.Under id root)
    (around : tree.kind id ≠ .ok .functionBlock → Paired start twinStart count here there) :
    Parallel f start twinStart count (fun _ _ _ => True) (tree.resolver.visit id here)
      ((tree.rename f).resolver.visit id there) := by
  unfold Resolver.visit
  have deep := Nat.lt_succ_of_le (tree.height_le id)
  rw [Tree.size_rename]
  exact footing.visitWithin_parallel under deep around

end Footing
end ScopeTyping
