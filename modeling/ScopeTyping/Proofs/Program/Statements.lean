import ScopeTyping.Proofs.Typing.Sites
import ScopeTyping.Proofs.Program.Coverage

/-! What a program says about the statements of its tree: the node of a statement holds the parts
of that statement alone, so its kind tells what its children are. A return below a function is one
of the returns of the function nearest to it (`Tree.Covers.nearest_function`). -/
namespace ScopeTyping

variable {tree : Tree} {id site : NodeId} {kind headerKind : Kind}

/-- A statement of a kind stands at a node. -/
inductive StatementAt (nodes : Array Node) (id : NodeId) : Kind → Prop where
  | assignment {target fragment value : NodeId} {head : String} {keys : List (Key Expr)} {expr : Expr}
      (shows : Shows nodes id .assignment "" [target, fragment])
      (left : ExprAt nodes (.path head keys) target)
      (right : Shows nodes fragment .assignmentFragment "" [value])
      (inner : ExprAt nodes (.wrapped expr) value) : StatementAt nodes id .assignment
  | returned {ids : List NodeId} {value : Option Expr} (shows : Shows nodes id .returnStatement "" ids)
      (inner : List.Forall₂ (ExprAt nodes) (value.map Expr.wrapped).toList ids) :
      StatementAt nodes id .returnStatement
  | shared {body : NodeId} {heads branches : List NodeId} {header : Header} {kind : Kind}
      (same : header.kind = kind) (shows : Shows nodes id kind "" (heads ++ body :: branches))
      (headed : HeaderAt nodes header heads) : StatementAt nodes id kind
  | opening {header body : NodeId} {slots : List NodeId} {opening : Opening} {kind : Kind}
      (headed : opening.headed? = some kind) (shows : Shows nodes id kind "" [header, body])
      (opened : OpeningAt nodes opening header) (held : Shows nodes body .nestedBlock "" slots) :
      StatementAt nodes id kind

theorem PartAt.statement {part : Part} (stands : PartAt tree.nodes part id)
    (known : tree.kind id = .ok kind) (statement : kind.isStatement = true) :
    StatementAt tree.nodes id kind := by
  cases stands with
  | assignment shows left right inner =>
    cases shows.kind.symm.trans known
    exact .assignment shows left right inner
  | returned shows inner =>
    cases shows.kind.symm.trans known
    exact .returned shows inner
  | shared shows headed =>
    cases shows.kind.symm.trans known
    exact .shared rfl shows headed
  | opening headed shows opened held _ =>
    cases shows.kind.symm.trans known
    exact .opening headed shows opened held
  | slot shows slot _ =>
    cases shows.kind.symm.trans known
    rcases slot with rfl | rfl <;> cases statement
  | evaluated shows | block shows | catchBlock shows | finallyBlock shows =>
    cases shows.kind.symm.trans known
    cases statement

/-- A branch holds its condition in its header. -/
theorem StatementAt.condition (stands : StatementAt tree.nodes id kind)
    (branch : kind.conditionHeader? = some headerKind) : ∃ head value expr,
      tree.child? id headerKind = .ok (some head) ∧ Shows tree.nodes head headerKind "" [value] ∧
      headerKind ≠ .path ∧ ExprAt tree.nodes (.wrapped expr) value := by
  cases stands with
  | assignment | returned => cases branch
  | @shared body heads branches header _ same shows headed =>
    subst same
    cases headed with
    | silent silent =>
      cases header with
      | ifBlock | elseifBlock | whileBlock | whenBlock => cases silent
      | elseBlock | tryBlock => cases branch
    | @opener head value _ openerKind expr opener opens stands =>
      have found := shows.child? [] head (body :: branches) (by simp) opens.kind
      cases header <;> cases branch <;> cases opener
      · exact ⟨head, value, expr, found, opens, by decide, stands⟩
      · exact ⟨head, value, expr, found, opens, by decide, stands⟩
  | @opening _ _ _ opening _ headed => cases opening <;> cases headed <;> cases branch

/-- There is no return at or below an inert node. -/
theorem Inert.no_return (inert : Inert tree.nodes id) (under : tree.Under site id) :
    tree.kind site ≠ .ok .returnStatement := by
  have covers : tree.Covers (fun _ => False) id := inert.covers
  exact fun isReturn => covers site .returnStatement under isReturn rfl

/-- The returns of a function are those of its body. -/
theorem StatementAt.of_function (stands : StatementAt tree.nodes id .functionBlock)
    (below : tree.ReturnBelow id site) :
    ∃ body, tree.child? id .nestedBlock = .ok (some body) ∧ tree.ReturnBelow body site := by
  cases stands with
  | @shared _ _ _ header _ same => cases header <;> cases same
  | @opening header body slots opening _ headed shows opened held =>
    have isReturn := below.kind
    refine ⟨body, opened.body_child shows held.kind, ?_⟩
    -- Nothing in the header is a return, so the way down leads through the body.
    cases below with
    | here child =>
      rcases List.mem_pair.1 (shows.mem_of_childOf child) with rfl | rfl
      · exact absurd isReturn (opened.inert.no_return .refl)
      · cases isReturn.symm.trans held.kind
    | further child _ _ _ deeper =>
      rcases List.mem_pair.1 (shows.mem_of_childOf child) with rfl | rfl
      · exact absurd isReturn (opened.inert.no_return deeper.under.to_reflTransGen)
      · exact deeper

/-- A return holds at most its value. -/
theorem StatementAt.of_return (stands : StatementAt tree.nodes id .returnStatement) :
    ∃ (value : Option Expr) (ids : List NodeId), Shows tree.nodes id .returnStatement "" ids ∧
      List.Forall₂ (ExprAt tree.nodes) (value.map Expr.wrapped).toList ids := by
  cases stands with
  | @shared _ _ _ header _ same => cases header <;> cases same
  | @opening _ _ _ opening _ headed => cases opening <;> cases headed
  | @returned ids value shows inner => exact ⟨value, ids, shows, inner⟩

/-- Below a return there is no other one. -/
theorem StatementAt.no_return_below (stands : StatementAt tree.nodes id .returnStatement)
    (below : tree.ReturnBelow id site) : False := by
  obtain ⟨value, ids, shows, inner⟩ := stands.of_return
  obtain ⟨child, under, childBelow⟩ := Relation.TransGen.tail'_iff.1 below.under
  have inert := forall_of_forall₂ inner (fun _ _ stands => stands.inert) child
    (shows.mem_of_childOf childBelow)
  exact inert.no_return under below.kind

/-- A return is one of those of a function below a node. -/
def Tree.ReturnsFrom (tree : Tree) (top function site : NodeId) : Prop :=
  tree.Under function top ∧ tree.kind function = .ok .functionBlock ∧
    ∃ body, tree.child? function .nestedBlock = .ok (some body) ∧ tree.ReturnBelow body site

namespace Tree.Covers

variable {holds : NodeId → Prop} {top : NodeId}

theorem statement (covers : tree.Covers (fun id => holds id ∧ ∃ part, PartAt tree.nodes part id) top)
    (inside : tree.Under id top) (known : tree.kind id = .ok kind)
    (isStatement : kind.isStatement = true) : StatementAt tree.nodes id kind := by
  obtain ⟨_, _, stands⟩ := covers id kind inside known isStatement
  exact stands.statement known isStatement

theorem returnsFrom {function : NodeId}
    (covers : tree.Covers (fun id => holds id ∧ ∃ part, PartAt tree.nodes part id) top)
    (inside : tree.Under function top) (isFunction : tree.kind function = .ok .functionBlock)
    (below : tree.ReturnBelow function site) : tree.ReturnsFrom top function site :=
  ⟨inside, isFunction, (covers.statement inside isFunction rfl).of_function below⟩

/-- On the way up from a return, it is one of the returns below each node until a function is
met. -/
theorem below_or_returnsFrom {above : NodeId}
    (covers : tree.Covers (fun id => holds id ∧ ∃ part, PartAt tree.nodes part id) top)
    (isReturn : tree.kind site = .ok .returnStatement)
    (strictly : Relation.TransGen tree.ChildOf site above) (inside : tree.Under above top) :
    tree.ReturnBelow above site ∨ ∃ nearest, tree.ReturnsFrom top nearest site := by
  induction strictly with
  | single below => exact .inl (.here below isReturn)
  | @tail middle above _ below step =>
    have middleInside : tree.Under middle top := .head below inside
    rcases step middleInside with here | found
    · obtain ⟨_, _, node, held, _⟩ := Relation.TransGen.tail'_iff.1 here.under
      have known := Tree.kind_of_node held
      by_cases function : node.kind = .functionBlock
      · exact .inr ⟨middle, covers.returnsFrom middleInside (function ▸ known) here⟩
      by_cases returned : node.kind = .returnStatement
      · rw [returned] at known
        exact ((covers.statement middleInside known rfl).no_return_below here).elim
      exact .inl (.further below known function returned here)
    · exact .inr found

/-- A return that stands below a function is one of those of the function nearest to it. -/
theorem nearest_function {function : NodeId}
    (covers : tree.Covers (fun id => holds id ∧ ∃ part, PartAt tree.nodes part id) top)
    (isReturn : tree.kind site = .ok .returnStatement) (under : tree.Under site function)
    (isFunction : tree.kind function = .ok .functionBlock) (inside : tree.Under function top) :
    ∃ nearest, tree.ReturnsFrom top nearest site := by
  have strictly : Relation.TransGen tree.ChildOf site function := by
    rcases Relation.reflTransGen_iff_eq_or_transGen.1 under with same | strictly
    · cases isReturn.symm.trans (same ▸ isFunction)
    · exact strictly
  rcases covers.below_or_returnsFrom isReturn strictly inside with below | found
  · exact ⟨function, covers.returnsFrom inside isFunction below⟩
  · exact found

end Tree.Covers
end ScopeTyping
