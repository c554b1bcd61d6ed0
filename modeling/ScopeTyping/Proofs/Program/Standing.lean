import ScopeTyping.Proofs.Program.Syntax
import ScopeTyping.Proofs.Tree.Descent

/-! Where programs stand, and what a walk meets there. Expressions and parts come with an
induction over what stands below them; looking for a child of some kind finds the child that
the syntax put there; and nodes below which no statement stands are inert. -/
namespace ScopeTyping

variable {nodes : Array Node} {id : NodeId}

/-! ### Inductions -/

/-- Induction over an expression and what stands below it. -/
theorem ExprAt.induct {motive : ∀ expr id, ExprAt nodes expr id → Prop}
    (literal : ∀ {id kind text} (shows : Shows nodes id kind text []) (leaf : kind.isLiteral = true),
      motive (.literal kind text) id (.literal shows leaf))
    (wrapped : ∀ {id innerId expr} (shows : Shows nodes id .baseExpression "" [innerId])
      (inner : ExprAt nodes expr innerId), motive expr innerId inner →
      motive (.wrapped expr) id (.wrapped shows inner))
    (list : ∀ {id ids items} (shows : Shows nodes id .list "" ids)
      (inner : List.Forall₂ (ExprAt nodes) items ids),
      List.Forall₂ (fun expr id => ∃ stands, motive expr id stands) items ids →
      motive (.list items) id (.list shows inner))
    (map : ∀ {id ids entries} (shows : Shows nodes id .map "" ids)
      (inner : List.Forall₂ (EntryAt nodes (ExprAt nodes)) entries ids),
      List.Forall₂ (EntryAt nodes fun expr id => ∃ stands, motive expr id stands) entries ids →
      motive (.map entries) id (.map shows inner))
    (path : ∀ {id name ids head keys} (shows : Shows nodes id .path "" (name :: ids))
      (named : NameAt nodes head name) (inner : List.Forall₂ (KeyAt nodes (ExprAt nodes)) keys ids),
      List.Forall₂ (KeyAt nodes fun expr id => ∃ stands, motive expr id stands) keys ids →
      motive (.path head keys) id (.path shows named inner))
    (binary : ∀ {id leftId rightId op left right}
      (shows : Shows nodes id .binaryExpression op [leftId, rightId])
      (first : ExprAt nodes left leftId) (second : ExprAt nodes right rightId),
      motive left leftId first → motive right rightId second →
      motive (.binary op left right) id (.binary shows first second))
    (unary : ∀ {id innerId op operand} (shows : Shows nodes id .unaryExpression op [innerId])
      (inner : ExprAt nodes operand innerId), motive operand innerId inner →
      motive (.unary op operand) id (.unary shows inner))
    {expr : Expr} {id : NodeId} (stands : ExprAt nodes expr id) : motive expr id stands :=
  @ExprAt.rec nodes motive
    (fun exprs ids _ => List.Forall₂ (fun expr id => ∃ stands, motive expr id stands) exprs ids)
    (fun entries ids _ =>
      List.Forall₂ (EntryAt nodes fun expr id => ∃ stands, motive expr id stands) entries ids)
    (fun keys ids _ =>
      List.Forall₂ (KeyAt nodes fun expr id => ∃ stands, motive expr id stands) keys ids)
    (fun entry id _ => EntryAt nodes (fun expr id => ∃ stands, motive expr id stands) entry id)
    (fun key id _ => KeyAt nodes (fun expr id => ∃ stands, motive expr id stands) key id)
    literal wrapped list map path binary unary
    .nil (fun stands _ first others => .cons ⟨stands, first⟩ others)
    .nil (fun _ _ first others => .cons first others)
    .nil (fun _ _ first others => .cons first others)
    (fun shows first second left right => .mk shows ⟨first, left⟩ ⟨second, right⟩)
    (fun shows named => .field shows named)
    (fun shows inner holds => .index shows ⟨inner, holds⟩) expr id stands

/-- Induction over a written type and what stands below it. -/
theorem WrittenAt.induct {motive : ∀ written id, WrittenAt nodes written id → Prop}
    (mk : ∀ {id base ids args} (shows : Shows nodes id .types base ids)
      (inner : List.Forall₂ (WrittenAt nodes) args ids),
      List.Forall₂ (fun written id => ∃ stands, motive written id stands) args ids →
      motive (.mk base args) id (.mk shows inner))
    {written : Written} {id : NodeId} (stands : WrittenAt nodes written id) :
    motive written id stands :=
  @WrittenAt.rec nodes motive
    (fun args ids _ => List.Forall₂ (fun written id => ∃ stands, motive written id stands) args ids)
    mk .nil (fun stands _ first others => .cons ⟨stands, first⟩ others) written id stands

/-- Induction over a part of a program and what stands below it. -/
theorem PartAt.induct {motive : ∀ part id, PartAt nodes part id → Prop}
    (slot : ∀ {id innerId kind part} (shows : Shows nodes id kind "" [innerId])
      (slot : kind = .block ∨ kind = .rules) (inner : PartAt nodes part innerId),
      motive part innerId inner → motive part id (.slot shows slot inner))
    (assignment : ∀ {id target fragment innerId head keys value}
      (shows : Shows nodes id .assignment "" [target, fragment])
      (left : ExprAt nodes (.path head keys) target)
      (right : Shows nodes fragment .assignmentFragment "" [innerId])
      (inner : ExprAt nodes (.wrapped value) innerId),
      motive (.assignment head keys value) id (.assignment shows left right inner))
    (returned : ∀ {id ids value} (shows : Shows nodes id .returnStatement "" ids)
      (inner : List.Forall₂ (ExprAt nodes) (Option.map Expr.wrapped value).toList ids),
      motive (.returned value) id (.returned shows inner))
    (evaluated : ∀ {id innerId value} (shows : Shows nodes id .absoluteExpression "" [innerId])
      (inner : ExprAt nodes (.wrapped value) innerId),
      motive (.evaluated value) id (.evaluated shows inner))
    (shared : ∀ {id bodyId heads slots branchIds header body branches}
      (shows : Shows nodes id (Header.kind header) "" (heads ++ bodyId :: branchIds))
      (headed : HeaderAt nodes header heads) (branched : header.branches = false → branches = [])
      (held : Shows nodes bodyId .nestedBlock "" slots)
      (inner : List.Forall₂ (PartAt nodes) body slots)
      (others : List.Forall₂ (PartAt nodes) branches branchIds),
      List.Forall₂ (fun part id => ∃ stands, motive part id stands) body slots →
      List.Forall₂ (fun part id => ∃ stands, motive part id stands) branches branchIds →
      motive (.shared header body branches) id (.shared shows headed branched held inner others))
    (block : ∀ {id slots body} (shows : Shows nodes id .nestedBlock "" slots)
      (inner : List.Forall₂ (PartAt nodes) body slots),
      List.Forall₂ (fun part id => ∃ stands, motive part id stands) body slots →
      motive (.scoped .block body) id (.block shows inner))
    (catchBlock : ∀ {id header bodyId ids binding body}
      (shows : Shows nodes id .catchBlock "" [header, bodyId])
      (caught : Shows nodes header .catchStatement "" ids)
      (named : List.Forall₂ (NameAt nodes) (Option.toList binding) ids)
      (inner : PartAt nodes (.scoped .block body) bodyId), motive (.scoped .block body) bodyId inner →
      motive (.scoped (.catchBlock binding) body) id (.catchBlock shows caught named inner))
    (finallyBlock : ∀ {id bodyId body} (shows : Shows nodes id .finallyBlock "" [bodyId])
      (inner : PartAt nodes (.scoped .block body) bodyId), motive (.scoped .block body) bodyId inner →
      motive (.scoped .finallyBlock body) id (.finallyBlock shows inner))
    (opening : ∀ {id header bodyId slots kind opening body}
      (headed : Opening.headed? opening = some kind) (shows : Shows nodes id kind "" [header, bodyId])
      (opened : OpeningAt nodes opening header) (held : Shows nodes bodyId .nestedBlock "" slots)
      (inner : List.Forall₂ (PartAt nodes) body slots),
      List.Forall₂ (fun part id => ∃ stands, motive part id stands) body slots →
      motive (.scoped opening body) id (.opening headed shows opened held inner))
    {part : Part} {id : NodeId} (stands : PartAt nodes part id) : motive part id stands :=
  @PartAt.rec nodes motive
    (fun parts ids _ => List.Forall₂ (fun part id => ∃ stands, motive part id stands) parts ids)
    slot assignment returned evaluated shared block catchBlock finallyBlock opening .nil
    (fun stands _ first others => .cons ⟨stands, first⟩ others) part id stands

/-- What follows of an expression follows of the step of a path that it is in. -/
theorem KeyAt.imp {stands other : Expr → NodeId → Prop} {key : Key Expr}
    (held : KeyAt nodes stands key id) (follows : ∀ expr id, stands expr id → other expr id) :
    KeyAt nodes other key id := by
  cases held with
  | field shows named => exact .field shows named
  | index shows inner => exact .index shows (follows _ _ inner)

/-- What follows of expressions follows of the entry of a map that they are in. -/
theorem EntryAt.imp {stands other : Expr → NodeId → Prop} {entry : Expr × Expr}
    (held : EntryAt nodes stands entry id) (follows : ∀ expr id, stands expr id → other expr id) :
    EntryAt nodes other entry id := by
  cases held with
  | mk shows first second => exact .mk shows (follows _ _ first) (follows _ _ second)

/-- What is so of every node at which some item stands is so of all nodes of a list of them. -/
theorem forall_of_forall₂ {α : Type} {stands : α → NodeId → Prop} {holds : NodeId → Prop}
    {items : List α} {ids : List NodeId} (inner : List.Forall₂ stands items ids)
    (each : ∀ item id, stands item id → holds id) : ∀ id ∈ ids, holds id := by
  intro id member
  obtain ⟨index, inside, rfl⟩ := List.getElem_of_mem member
  exact each _ _ (inner.get (inner.length_eq ▸ inside) inside)

/-- What is so of all nodes of a list is so of each at which an item stands. -/
theorem forall₂_and_right {α : Type} {stands : α → NodeId → Prop} {holds : NodeId → Prop}
    {items : List α} {ids : List NodeId} (inner : List.Forall₂ stands items ids)
    (each : ∀ id ∈ ids, holds id) :
    List.Forall₂ (fun item id => stands item id ∧ holds id) items ids := by
  induction inner with
  | nil => exact .nil
  | cons first _ step =>
    obtain ⟨here, others⟩ := List.forall_mem_cons.1 each
    exact .cons ⟨first, here⟩ (step others)

/-! ### Looking around -/

section Trees
variable {tree : Tree} {own : Kind} {text : String} {children before wanted after : List NodeId}
  {child : NodeId}

theorem Shows.node (shows : Shows tree.nodes id own text children) :
    ∃ span, tree.node id = .ok ⟨own, span, text, children⟩ := by
  obtain ⟨span, held⟩ := shows
  exact ⟨span, Tree.node_eq_ok_iff.2 held⟩

theorem Shows.kind (shows : Shows tree.nodes id own text children) : tree.kind id = .ok own := by
  obtain ⟨_, held⟩ := shows.node
  exact Tree.kind_of_node held

theorem Shows.mem_of_childOf (shows : Shows tree.nodes id own text children) {child : NodeId}
    (below : tree.ChildOf child id) : child ∈ children := by
  obtain ⟨_, there⟩ := shows.node
  obtain ⟨node, held, member⟩ := below
  cases held.symm.trans there
  exact member

/-- What stands at or below a node is the node or stands at or below one of its children. -/
theorem Shows.under_cases (shows : Shows tree.nodes id own text children) {below : NodeId}
    (under : tree.Under below id) : below = id ∨ ∃ child ∈ children, tree.Under below child := by
  rcases Relation.ReflTransGen.cases_tail under with same | ⟨child, path, childBelow⟩
  · exact .inl same.symm
  · exact .inr ⟨child, shows.mem_of_childOf childBelow, path⟩

theorem Shows.childOf (shows : Shows tree.nodes id own text children) (member : child ∈ children) :
    tree.ChildOf child id := by
  obtain ⟨_, held⟩ := shows.node
  exact Tree.childOf_of_mem held member

/-- A walk that reaches a node has less far to go from its children. -/
theorem Shows.lower (shows : Shows tree.nodes id own text children) (sound : tree.Sound)
    {depth : Nat} (deep : tree.height id < depth + 1) :
    ∀ child ∈ children, tree.height child < depth := by
  intro child member
  have shorter := sound.height_lt (shows.childOf member)
  omega

variable {kind : Kind}

/-- A node of which it is known that it is of another kind. -/
def Tree.OtherKind (tree : Tree) (kind : Kind) (id : NodeId) : Prop :=
  ∃ other, tree.kind id = .ok other ∧ other ≠ kind

theorem Shows.otherKind (shows : Shows tree.nodes id own text children) (apart : own ≠ kind) :
    tree.OtherKind kind id := ⟨own, shows.kind, apart⟩

theorem Tree.ofKind_append_of_other (after : List NodeId)
    (others : ∀ id ∈ before, tree.OtherKind kind id) :
    tree.ofKind kind (before ++ after) = tree.ofKind kind after := by
  induction before with
  | nil => rfl
  | cons head rest step =>
    obtain ⟨other, known, apart⟩ := others head (List.mem_cons_self ..)
    have later := step fun id member => others id (List.mem_cons_of_mem _ member)
    rw [List.cons_append, Tree.ofKind, known]
    simpa only [if_neg apart] using later

theorem Tree.ofKind_append_of_kind (wantedKind : ∀ id ∈ wanted, tree.kind id = .ok kind)
    (others : ∀ id ∈ after, tree.OtherKind kind id) :
    tree.ofKind kind (wanted ++ after) = .whole wanted := by
  induction wanted with
  | nil =>
    have none := Tree.ofKind_append_of_other [] others
    simpa [Tree.ofKind] using none
  | cons head rest step =>
    have known := wantedKind head (List.mem_cons_self ..)
    have later := step fun id member => wantedKind id (List.mem_cons_of_mem _ member)
    rw [List.cons_append, Tree.ofKind, known]
    simp only [if_true, later]
    rfl

/-- Children of one kind that stand side by side are the ones that are met. -/
theorem Shows.childrenOfKind (before wanted after : List NodeId)
    (shows : Shows tree.nodes id own text (before ++ (wanted ++ after)))
    (early : ∀ id ∈ before, tree.OtherKind kind id)
    (wantedKind : ∀ id ∈ wanted, tree.kind id = .ok kind)
    (late : ∀ id ∈ after, tree.OtherKind kind id) :
    tree.childrenOfKind id kind = .whole wanted := by
  obtain ⟨_, held⟩ := shows.node
  simp only [Tree.childrenOfKind, held]
  rw [Tree.ofKind_append_of_other _ early, Tree.ofKind_append_of_kind wantedKind late]

/-- The first child of a kind is the one behind those of other kinds. -/
theorem Shows.child? (before : List NodeId) (child : NodeId) (after : List NodeId)
    (shows : Shows tree.nodes id own text (before ++ child :: after))
    (early : ∀ id ∈ before, tree.OtherKind kind id) (here : tree.kind child = .ok kind) :
    tree.child? id kind = .ok (some child) := by
  obtain ⟨_, held⟩ := shows.node
  simp only [Tree.child?, Tree.childrenOfKind, held]
  rw [Tree.ofKind_append_of_other _ early, Tree.ofKind, here]
  simp

theorem Shows.child?_none (kind : Kind) (shows : Shows tree.nodes id own text children)
    (others : ∀ id ∈ children, tree.OtherKind kind id) : tree.child? id kind = .ok none := by
  obtain ⟨_, held⟩ := shows.node
  have none := Tree.ofKind_append_of_other [] others
  rw [List.append_nil] at none
  simp only [Tree.child?, Tree.childrenOfKind, held, none]
  rfl

end Trees

/-! ### Nodes below which no statement stands -/

/-- Kinds that the pass has no rule of its own for, but for returns. -/
def Kind.isPassive : Kind → Bool
  | .start | .nestedBlock | .assignment | .returnStatement | .ifBlock | .elseifBlock | .elseBlock
  | .whileBlock | .whenBlock | .foreachBlock | .tryBlock | .functionBlock => false
  | _ => true

/-- Neither a node nor what stands below it is of a kind that the pass has a rule for. -/
inductive Inert (nodes : Array Node) : NodeId → Prop where
  | mk {id : NodeId} {kind : Kind} {text : String} {children : List NodeId}
      (shows : Shows nodes id kind text children) (passive : kind.isPassive = true)
      (inner : ∀ child ∈ children, Inert nodes child) : Inert nodes id

theorem NameAt.inert {text : String} (stands : NameAt nodes text id) : Inert nodes id :=
  .mk stands rfl (by simp)

theorem WrittenAt.inert {written : Written} (stands : WrittenAt nodes written id) :
    Inert nodes id := by
  induction stands using WrittenAt.induct with
  | mk shows _ inert => exact .mk shows rfl (forall_of_forall₂ inert fun _ _ ⟨_, holds⟩ => holds)

theorem ExprAt.inert {expr : Expr} (stands : ExprAt nodes expr id) : Inert nodes id := by
  induction stands using ExprAt.induct with
  | @literal id kind text shows leaf =>
    refine .mk shows ?_ (by simp)
    cases kind <;> first | rfl | cases leaf
  | wrapped shows _ inert => exact .mk shows rfl (by simpa using inert)
  | list shows _ inert =>
    exact .mk shows rfl (forall_of_forall₂ inert fun _ _ ⟨_, holds⟩ => holds)
  | map shows _ inert =>
    refine .mk shows rfl (forall_of_forall₂ inert ?_)
    rintro _ id ⟨shows, ⟨_, first⟩, ⟨_, second⟩⟩
    exact .mk shows rfl (by simpa using ⟨first, second⟩)
  | path shows named _ inert =>
    refine .mk shows rfl fun child member => ?_
    rcases List.mem_cons.1 member with rfl | key
    · exact named.inert
    · refine forall_of_forall₂ inert ?_ child key
      rintro _ id (⟨shows, named⟩ | ⟨shows, _, holds⟩)
      · exact .mk shows rfl (by simpa using named.inert)
      · exact .mk shows rfl (by simpa using holds)
  | binary shows _ _ first second => exact .mk shows rfl (by simpa using ⟨first, second⟩)
  | unary shows _ inert => exact .mk shows rfl (by simpa using inert)

theorem HeaderAt.inert {header : Header} {heads : List NodeId} (stands : HeaderAt nodes header heads) :
    ∀ head ∈ heads, Inert nodes head := by
  cases stands with
  | silent => simp
  | opener opener shows inner =>
    refine List.forall_mem_singleton.2 (.mk shows ?_ (by simpa using inner.inert))
    cases header <;> cases opener <;> rfl

theorem ParameterAt.inert {param : String × Written} (stands : ParameterAt nodes param id) :
    Inert nodes id := by
  cases stands with
  | mk shows named typed => exact .mk shows rfl (by simpa using ⟨named.inert, typed.inert⟩)

theorem OutputAt.inert {written : Written} (stands : OutputAt nodes written id) :
    Inert nodes id := by
  cases stands with
  | mk shows typed => exact .mk shows rfl (by simpa using typed.inert)

theorem OpeningAt.inert {opening : Opening} (stands : OpeningAt nodes opening id) :
    Inert nodes id := by
  cases stands with
  | foreachBlock shows inner outputs named =>
    have names := forall_of_forall₂ named fun _ _ => NameAt.inert
    exact .mk shows rfl (by simpa using ⟨inner.inert, .mk outputs rfl names⟩)
  | functionBlock shows named parameters returns =>
    refine .mk shows rfl (List.forall_mem_cons.2 ⟨named.inert, List.forall_mem_append.2 ⟨?_, ?_⟩⟩)
    · exact forall_of_forall₂ parameters fun _ _ => ParameterAt.inert
    · exact forall_of_forall₂ returns fun _ _ => OutputAt.inert

section Bodies
variable {tree : Tree} {kind : Kind} {text : String}

theorem Inert.otherKind (inert : Inert tree.nodes id) (active : kind.isPassive = false) :
    tree.OtherKind kind id := by
  cases inert with
  | mk shows passive _ =>
    refine shows.otherKind ?_
    rintro rfl
    cases active.symm.trans passive

theorem HeaderAt.body_not_mem {header : Header} {heads : List NodeId} {body : NodeId}
    (stands : HeaderAt tree.nodes header heads) (isBody : tree.kind body = .ok .nestedBlock) :
    body ∉ heads := by
  intro member
  have other : tree.OtherKind .nestedBlock body := (stands.inert body member).otherKind rfl
  obtain ⟨_, known, apart⟩ := other
  cases isBody.symm.trans known
  exact apart rfl

/-- The body of a construct comes behind its header. -/
theorem HeaderAt.body_child {header : Header} {heads branches : List NodeId} {body : NodeId}
    (stands : HeaderAt tree.nodes header heads)
    (shows : Shows tree.nodes id kind text (heads ++ body :: branches))
    (isBody : tree.kind body = .ok .nestedBlock) : tree.child? id .nestedBlock = .ok (some body) :=
  Shows.child? heads body branches shows (fun head member => (stands.inert head member).otherKind rfl)
    isBody

theorem OpeningAt.body_child {opening : Opening} {header body : NodeId}
    (stands : OpeningAt tree.nodes opening header)
    (shows : Shows tree.nodes id kind text [header, body])
    (isBody : tree.kind body = .ok .nestedBlock) : tree.child? id .nestedBlock = .ok (some body) :=
  Shows.child? [header] body [] shows (by simpa using stands.inert.otherKind rfl) isBody

end Bodies

end ScopeTyping
