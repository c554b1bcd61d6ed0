import ScopeTyping.Proofs.Outcome
import ScopeTyping.Proofs.Tree.Handover
import ScopeTyping.Proofs.Typing.Sighted
import ScopeTyping.Proofs.Typing.Sites
import ScopeTyping.Typing.Rules

/-! What an error says of the node it is told of. Every cause makes a statement about a node
and its children that can be checked without running anything (`Cause.Justified`), and typing
tells an error only of a node of which the statement holds. -/
namespace ScopeTyping

/-- Kinds of node that have a type. -/
def Kind.isExpression : Kind → Bool
  | .baseExpression | .expression | .number | .string | .boolean | .time | .regexp | .void | .list
  | .map | .path | .binaryExpression | .unaryExpression => true
  | _ => false

/-- A node lacks what its place in the tree asks of it: a child of some kind, an operand, one
or both of the operands that stand side by side, or to be the story that a tree is. -/
inductive Tree.Lacks (tree : Tree) (id : NodeId) (node : Node) : Kind → Prop where
  | child {kind : Kind} (missing : tree.child? id kind = .ok none) : Lacks tree id node kind
  | operand (bare : node.children = []) : Lacks tree id node .baseExpression
  | operands (asked : node.kind = .binaryExpression ∨ node.kind = .mapItem)
      (other : node.children.length ≠ 2) : Lacks tree id node .baseExpression
  | story (outermost : id = tree.root) (other : node.kind ≠ .start) : Lacks tree id node .start

/-- What a cause says of the node that it is told of. -/
def Cause.Justified (tree : Tree) (id : NodeId) (node : Node) : Cause → Prop
  | .typeAssignmentDifferent target source =>
    node.kind = .assignment ∧ target.accepts source = false
  | .returnTypeMismatch expected found =>
    node.kind = .returnStatement ∧ expected.accepts found = false
  | .unresolvedVariable name suggestions =>
    node.kind = .name ∧ node.text = name ∧ name ∉ suggestions
  | .typeOperationIncompatible symbol left right =>
    node.kind = .binaryExpression ∧ ∃ op, BinaryOp.ofSymbol? node.text = some op ∧
      op.symbol = symbol ∧ op.resultType left right = none
  | .typeUnaryIncompatible symbol operand =>
    node.kind = .unaryExpression ∧ ∃ op, UnaryOp.ofSymbol? node.text = some op ∧
      op.symbol = symbol ∧ op.resultType operand = none
  | .operatorUnknown symbol => node.text = symbol ∧
    ((node.kind = .binaryExpression ∧ BinaryOp.ofSymbol? symbol = none) ∨
      (node.kind = .unaryExpression ∧ UnaryOp.ofSymbol? symbol = none))
  | .typeIndexIncompatible ty => node.kind = .pathFragment ∧
    ty ≠ .any ∧ ty ≠ .object ∧ (∀ key value, ty ≠ .map key value) ∧
    ∀ element, ty = .list element →
      ∃ key, node.children.head? = some key ∧ tree.kind key = .ok .name
  | .typeNameUnknown name => node.kind = .types ∧ ∃ args,
    args.length = (tree.childrenOfKind id .types).items.length ∧
    Ty.ofSignature? node.text args = none ∧ name = Typing.unknownTypeName node.text args.length
  | .notAnExpression kind => node.kind = kind ∧ kind.isExpression = false
  | .malformedTree parent expected => node.kind = parent ∧ tree.Lacks id node expected
  | .scopeAlreadyAttached kind =>
    node.kind = kind ∧ kind.opensScope = true ∧ tree.Shared id

/-- An error of a tree tells of a node that the root reaches, at the place of the node, and
what it tells is so. -/
def SemanticError.Justified (tree : Tree) (told : SemanticError) : Prop :=
  ∃ node, tree.node told.node = .ok node ∧ tree.Under told.node tree.root ∧
    told.span = node.span ∧ told.cause.Justified tree told.node node

/-- A failure that tells an error tells a justified one. -/
def Failure.Justified (tree : Tree) : Failure → Prop
  | .error told => told.Justified tree
  | .fault _ => True

/-- A computation gives values that are good, and tells only errors that are justified. -/
def Attempt.Blames {State α : Type} (tree : Tree) (good : α → Prop) (attempt : Attempt State α) :
    Prop :=
  ∀ state, attempt.Ensures state (fun value _ => good value)
    (fun failure _ => failure.Justified tree)

namespace Attempt

variable {State α β ι : Type} {tree : Tree} {id : NodeId} {node : Node} {state : State}
  {done : α → State → Prop} {good : α → Prop} {fine : β → Prop} {attempt : Attempt State α}

/-- A report is justified if its cause is. -/
theorem ensures_report {cause : Cause} (held : tree.node id = .ok node)
    (under : tree.Under id tree.root) (justified : cause.Justified tree id node) :
    (report tree id cause : Attempt State α).Ensures state done
      (fun failure after => failure.Justified tree ∧ after = state) := by
  unfold report SemanticError.atNode
  rw [held]
  exact ⟨⟨node, held, under, rfl, justified⟩, rfl⟩

theorem ensures_malformed {expected : Kind} (held : tree.node id = .ok node)
    (under : tree.Under id tree.root) (lacks : tree.Lacks id node expected) :
    (malformed tree id expected : Attempt State α).Ensures state done
      (fun failure after => failure.Justified tree ∧ after = state) := by
  unfold malformed SemanticError.malformed
  rw [held]
  exact ⟨⟨node, held, under, rfl, rfl, lacks⟩, rfl⟩

/-- A child that the grammar asks for is found, or its absence is told of the parent. -/
theorem ensures_requiredChild {kind : Kind} (under : tree.Under id tree.root) :
    (requiredChild tree id kind : Attempt State NodeId).Ensures state
      (fun child after => tree.child? id kind = .ok (some child) ∧ after = state)
      (fun failure after => failure.Justified tree ∧ after = state) := by
  unfold requiredChild
  refine ensures_guard_bind (fun answer known => ?_) fun _ => ⟨trivial, rfl⟩
  cases answer with
  | some child => exact ensures_pure ⟨known, rfl⟩
  | none =>
    obtain ⟨node, held⟩ : ∃ node, tree.node id = .ok node := by
      cases held : tree.node id with
      | ok node => exact ⟨node, rfl⟩
      | error fault =>
        simp [Tree.child?, Tree.childrenOfKind, held, Walk.stopped, Walk.first?,
          Walk.findSome?] at known
    exact ensures_malformed held under (.child known)

namespace Blames

theorem pure {value : α} (holds : good value) :
    Blames tree good (Pure.pure value : Attempt State α) := fun _ => holds

theorem bind {next : α → Attempt State β} (first : Blames tree good attempt)
    (second : ∀ value, good value → Blames tree fine (next value)) :
    Blames tree fine (attempt >>= next) :=
  fun state => (first state).bind fun value after holds => second value holds after

theorem discard (blames : Blames tree good attempt) :
    Blames tree (fun _ => True) (discard attempt) := by
  rw [discard_eq_bind]
  exact blames.bind fun _ _ => pure trivial

theorem guard (answer : Except Fault α) :
    Blames tree (fun value => answer = .ok value) (Attempt.guard answer : Attempt State α) := by
  cases answer with
  | ok value => exact pure rfl
  | error fault => exact fun _ => trivial

theorem report {cause : Cause} (held : tree.node id = .ok node) (under : tree.Under id tree.root)
    (justified : cause.Justified tree id node) :
    Blames tree good (Attempt.report tree id cause : Attempt State α) :=
  fun _ => (ensures_report held under justified).weaken (fun _ _ holds => holds)
    fun _ _ facts => facts.1

theorem malformed {expected : Kind} (held : tree.node id = .ok node)
    (under : tree.Under id tree.root) (lacks : tree.Lacks id node expected) :
    Blames tree good (Attempt.malformed tree id expected : Attempt State α) :=
  fun _ => (ensures_malformed held under lacks).weaken (fun _ _ holds => holds)
    fun _ _ facts => facts.1

theorem mapM {items : List ι} {next : ι → Attempt State β}
    (each : ∀ item ∈ items, Blames tree fine (next item)) :
    Blames tree (fun values => values.length = items.length ∧ ∀ value ∈ values, fine value)
      (items.mapM next) := by
  intro state
  refine Ensures.weaken (ensures_mapM trivial fun item member before (_ : True) => ?_)
    (fun _ _ facts => facts.2) fun _ _ told => told
  exact (each item member before).weaken (fun _ _ holds => ⟨trivial, holds⟩) fun _ _ told => told

theorem mapM_walk {walk : Walk ι} {next : ι → Attempt State β}
    (each : ∀ item ∈ walk.items, Blames tree fine (next item)) :
    Blames tree (fun values => values.length = walk.items.length ∧ ∀ value ∈ values, fine value)
      (walk.mapM next) := by
  intro state
  refine Ensures.weaken (ensures_mapM_walk trivial (fun _ _ _ => trivial)
    fun item member before (_ : True) => ?_) (fun _ _ facts => facts.2) fun _ _ told => told
  exact (each item member before).weaken (fun _ _ holds => ⟨trivial, holds⟩) fun _ _ told => told

theorem requiredChild {kind : Kind} (under : tree.Under id tree.root) :
    Blames tree (fun child => tree.child? id kind = .ok (some child))
      (Attempt.requiredChild tree id kind : Attempt State NodeId) :=
  fun _ => (ensures_requiredChild under).weaken (fun _ _ facts => facts.1) fun _ _ facts => facts.1

end Blames
end Attempt

/-! ### Suggestions -/

/-- Only candidates are suggested. -/
theorem mem_of_mem_suggestions {target text : String} {candidates : List String}
    (member : text ∈ suggestions target candidates) : text ∈ candidates := by
  obtain ⟨distance, _, near⟩ := List.mem_flatMap.1 (List.mem_of_mem_take member)
  exact List.mem_eraseDups.1 (List.mem_of_mem_filter near)

/-- A name that a scope does not see is not among those visible from it. -/
theorem Forest.not_mem_visibleNames {forest : Forest} {scope : ScopeId} {name : Name}
    {visible : List Name} (unseen : forest.lookup scope name = .ok none)
    (listed : forest.visibleNames scope = .ok visible) : name ∉ visible := by
  obtain ⟨answer, looked, found⟩ := lookup_of_visibleNames listed name
  cases unseen.symm.trans looked
  exact fun member => Bool.false_ne_true (found.2 member)

/-! ### What typing tells -/

open Attempt (Blames)

variable {view : View} {scope : ScopeId} {typeOf : NodeId → Typing Ty} {id : NodeId} {node : Node}

namespace View

theorem node_blames : Blames view.tree (fun node => view.tree.node id = .ok node) (view.node id) :=
  .guard _

theorem firstChild_blames (under : view.tree.Under id view.tree.root)
    (held : view.tree.node id = .ok node) :
    Blames view.tree (fun child => node.children.head? = some child ∧ view.tree.ChildOf child id)
      (view.firstChild id) := by
  unfold firstChild
  refine node_blames.bind fun found there => ?_
  cases held.symm.trans there
  cases children : node.children with
  | nil => exact .malformed held under (.operand children)
  | cons child rest => exact .pure ⟨rfl, Tree.childOf_of_mem held (by simp [children])⟩

theorem twoChildren_blames (under : view.tree.Under id view.tree.root)
    (held : view.tree.node id = .ok node)
    (asked : node.kind = .binaryExpression ∨ node.kind = .mapItem) :
    Blames view.tree (fun pair => view.tree.ChildOf pair.1 id ∧ view.tree.ChildOf pair.2 id)
      (view.twoChildren id) := by
  unfold twoChildren
  refine node_blames.bind fun found there => ?_
  cases held.symm.trans there
  split
  · rename_i first second children
    exact .pure ⟨Tree.childOf_of_mem held (by simp [children]),
      Tree.childOf_of_mem held (by simp [children])⟩
  · rename_i other
    refine .malformed held under (.operands asked fun two => ?_)
    obtain ⟨first, second, children⟩ := List.length_eq_two.1 two
    exact other first second children

end View

/-- What has no part of a kind cannot be looked into that way. -/
theorem Ty.part?_eq_none {base : Ty} {isField : Bool} (none : base.part? isField = none) :
    base ≠ .any ∧ base ≠ .object ∧ (∀ key value, base ≠ .map key value) ∧
      ∀ element, base = .list element → isField = true := by
  cases base <;> cases isField <;> simp_all [Ty.part?]

namespace Typing

variable {α : Type}

/-- An unknown variable is told with names that are bound, so its own is not among them. -/
theorem unresolved_blames {names : NameTable} {name : Name} {done : α → NameTable → Prop}
    (held : view.tree.node id = .ok node) (under : view.tree.Under id view.tree.root)
    (isName : node.kind = .name) (known : names.text? name = some node.text)
    (unseen : view.scopes.lookup scope name = .ok none) :
    (unresolved view scope name id : Typing α).Ensures names done
      (fun failure _ => failure.Justified view.tree) := by
  unfold unresolved
  refine Attempt.ensures_guard_bind (fun visible listed => ?_) fun _ => trivial
  have text : (textOf name).Ensures names (fun text after => text = node.text ∧ names = after)
      (fun failure _ => failure.Justified view.tree) := by
    unfold Attempt.Ensures
    rw [outcome_textOf known]
    exact ⟨rfl, rfl⟩
  refine text.bind ?_
  rintro _ _ ⟨rfl, rfl⟩
  have texts : ∀ other ∈ visible, ∀ before, names = before → (textOf other).Ensures before
      (fun text after => names = after ∧ ∃ other ∈ visible, names.text? other = some text)
      (fun failure _ => failure.Justified view.tree) := by
    rintro other member _ rfl
    show (Attempt.guard (names.text other) : Typing String).Ensures names _ _
    unfold NameTable.text
    cases same : names.text? other with
    | some text => exact ⟨rfl, other, member, same⟩
    | none => trivial
  refine (Attempt.ensures_mapM rfl texts).bind fun candidates after facts => ?_
  have apart : node.text ∉ suggestions node.text candidates := by
    intro member
    obtain ⟨other, among, same⟩ := facts.2.2 node.text (mem_of_mem_suggestions member)
    cases NameTable.name_unique known same
    exact Forest.not_mem_visibleNames unseen listed among
  refine Attempt.Ensures.weaken (Attempt.ensures_report held under ?_) (fun _ _ holds => holds)
    fun _ _ facts => facts.1
  exact ⟨isName, rfl, apart⟩

theorem fragment_blames (under : view.tree.Under id view.tree.root)
    (kind : view.tree.kind id = .ok .pathFragment)
    (parts : ∀ part, view.tree.Under part view.tree.root →
      Blames view.tree (fun _ => True) (typeOf part)) (base : Ty) :
    Blames view.tree (fun _ => True) (fragment view typeOf base id) := by
  obtain ⟨node, held, isFragment⟩ := Tree.node_of_kind kind
  unfold fragment
  refine (View.firstChild_blames under held).bind fun key ⟨first, below⟩ => ?_
  refine View.node_blames.bind fun keyNode keyHeld => ?_
  have refused : ∀ isField, base.part? isField = none →
      (isField = true → keyNode.kind = .name) →
      Blames view.tree (fun _ : Ty => True)
        (Attempt.report view.tree id (.typeIndexIncompatible base) : Typing Ty) := by
    intro isField none field
    obtain ⟨notAny, notObject, notMap, ofList⟩ := Ty.part?_eq_none none
    refine .report held under ⟨isFragment, notAny, notObject, notMap, fun element same => ?_⟩
    exact ⟨key, first, field (ofList element same) ▸ Tree.kind_of_node keyHeld⟩
  by_cases field : keyNode.kind = .name
  · simp only [field, decide_true, if_true]
    cases part : base.part? true with
    | none => exact refused true part fun _ => field
    | some part => exact .pure trivial
  · simp only [field, decide_false, if_false]
    refine (parts key (.head below under)).discard.bind fun _ _ => ?_
    cases part : base.part? false with
    | none => exact refused false part fun impossible => by cases impossible
    | some part => exact .pure trivial

theorem pathWith_blames (under : view.tree.Under id view.tree.root)
    (parts : ∀ part, view.tree.Under part view.tree.root →
      Blames view.tree (fun _ => True) (typeOf part)) (mustExist : Bool) :
    Blames view.tree (fun _ => True) (pathWith view scope typeOf id mustExist) := by
  intro names
  unfold pathWith
  refine (Blames.requiredChild under names).bind fun head between required => ?_
  obtain ⟨below, headKind⟩ := Tree.child?_eq_ok_some required
  have headUnder : view.tree.Under head view.tree.root := .head below under
  obtain ⟨node, held, isName⟩ := Tree.node_of_kind headKind
  refine Attempt.ensures_guard_bind (fun found there => ?_) fun _ => trivial
  cases held.symm.trans there
  have named : (intern node.text).Ensures between
      (fun name after => after.text? name = some node.text)
      (fun failure _ => failure.Justified view.tree) := NameTable.text?_intern between node.text
  refine named.bind fun name after known => ?_
  refine Attempt.ensures_guard_bind (fun bound looked => ?_) fun _ => trivial
  cases bound with
  | some symbol =>
    have fragments : Blames view.tree (fun _ => True)
        ((view.tree.childrenOfKind id .pathFragment).foldM (fragment view typeOf) symbol.ty) := by
      refine fun before => (Attempt.ensures_foldM_walk trivial trivial (fun _ _ _ => trivial)
        fun part member base before _ (_ : True) => ?_).weaken (fun _ _ facts => facts.2)
          fun _ _ told => told
      obtain ⟨partBelow, partKind⟩ := Tree.mem_items_childrenOfKind member
      exact (fragment_blames (.head partBelow under) partKind parts base before).weaken
        (fun _ _ _ => ⟨trivial, trivial⟩) fun _ _ told => told
    exact (fragments after).bind fun ty _ _ => Attempt.ensures_pure trivial
  | none =>
    have fails : (unresolved view scope name head : Typing Symbol).Ensures after (fun _ _ => True)
        (fun failure _ => failure.Justified view.tree) :=
      unresolved_blames held headUnder isName known looked
    dsimp only
    split
    · exact fails
    · refine Attempt.ensures_guard_bind (fun part first => ?_) fun _ => trivial
      cases part with
      | none => exact Attempt.ensures_pure trivial
      | some part => exact fails

theorem entry_blames (under : view.tree.Under id view.tree.root)
    (kind : view.tree.kind id = .ok .mapItem)
    (parts : ∀ part, view.tree.Under part view.tree.root →
      Blames view.tree (fun _ => True) (typeOf part)) :
    Blames view.tree (fun _ => True) (entry view typeOf id) := by
  obtain ⟨node, held, isItem⟩ := Tree.node_of_kind kind
  unfold entry
  refine (View.twoChildren_blames under held (.inr isItem)).bind fun pair ⟨key, value⟩ => ?_
  refine (parts pair.1 (.head key under)).bind fun _ _ => ?_
  exact (parts pair.2 (.head value under)).bind fun _ _ => .pure trivial

theorem binary_blames (under : view.tree.Under id view.tree.root)
    (held : view.tree.node id = .ok node) (kind : node.kind = .binaryExpression)
    (parts : ∀ part, view.tree.Under part view.tree.root →
      Blames view.tree (fun _ => True) (typeOf part)) :
    Blames view.tree (fun _ => True) (binary view typeOf id node.text) := by
  unfold binary
  cases parsed : BinaryOp.ofSymbol? node.text with
  | none => exact .report held under ⟨rfl, .inl ⟨kind, parsed⟩⟩
  | some op =>
    refine (View.twoChildren_blames under held (.inl kind)).bind fun pair ⟨first, second⟩ => ?_
    refine (parts pair.1 (.head first under)).bind fun left _ => ?_
    refine (parts pair.2 (.head second under)).bind fun right _ => ?_
    cases result : op.resultType left right with
    | none => exact .report held under ⟨kind, op, parsed, rfl, result⟩
    | some ty => exact .pure trivial

theorem unary_blames (under : view.tree.Under id view.tree.root)
    (held : view.tree.node id = .ok node) (kind : node.kind = .unaryExpression)
    (parts : ∀ part, view.tree.Under part view.tree.root →
      Blames view.tree (fun _ => True) (typeOf part)) :
    Blames view.tree (fun _ => True) (unary view typeOf id node.text) := by
  unfold unary
  cases parsed : UnaryOp.ofSymbol? node.text with
  | none => exact .report held under ⟨rfl, .inr ⟨kind, parsed⟩⟩
  | some op =>
    refine (View.firstChild_blames under held).bind fun child ⟨_, below⟩ => ?_
    refine (parts child (.head below under)).bind fun operand _ => ?_
    cases result : op.resultType operand with
    | none => exact .report held under ⟨kind, op, parsed, rfl, result⟩
    | some ty => exact .pure trivial

/-- Typing an expression tells justified errors if typing its parts does. -/
theorem expressionWith_blames (under : view.tree.Under id view.tree.root)
    (parts : ∀ part, view.tree.Under part view.tree.root →
      Blames view.tree (fun _ => True) (typeOf part)) :
    Blames view.tree (fun _ => True) (expressionWith view scope typeOf id) := by
  unfold expressionWith
  refine View.node_blames.bind fun node held => ?_
  cases kind : node.kind with
  | baseExpression | expression =>
    refine (View.firstChild_blames under held).bind fun child ⟨_, below⟩ => ?_
    exact parts child (.head below under)
  | number | string | boolean | time | regexp | void => exact .pure trivial
  | list =>
    have each : ∀ item ∈ node.children, Blames view.tree (fun _ => True) (typeOf item) :=
      fun item member => parts item (.head (Tree.childOf_of_mem held member) under)
    exact (Blames.mapM each).bind fun _ _ => .pure trivial
  | map =>
    have each : ∀ item ∈ (view.tree.childrenOfKind id .mapItem).items,
        Blames view.tree (fun _ => True) (entry view typeOf item) := by
      intro item member
      obtain ⟨below, isItem⟩ := Tree.mem_items_childrenOfKind member
      exact entry_blames (.head below under) isItem parts
    exact (Blames.mapM_walk each).bind fun _ _ => .pure trivial
  | path => exact (pathWith_blames under parts true).bind fun _ _ => .pure trivial
  | binaryExpression => exact binary_blames under held kind parts
  | unaryExpression => exact unary_blames under held kind parts
  | _ => exact .report held under ⟨kind, rfl⟩

theorem expression_blames (under : view.tree.Under id view.tree.root) :
    Blames view.tree (fun _ => True) (expression view scope id) := by
  have within : ∀ depth part, view.tree.Under part view.tree.root →
      Blames view.tree (fun _ => True) (expressionWithin view scope depth part) := by
    intro depth
    induction depth with
    | zero => exact fun _ _ _ => trivial
    | succ depth step => exact fun part below => expressionWith_blames below step
  exact within view.depth id under

theorem path_blames (under : view.tree.Under id view.tree.root) (mustExist : Bool) :
    Blames view.tree (fun _ => True) (path view scope id mustExist) :=
  pathWith_blames under (fun _ below => expression_blames below) mustExist

theorem declared_blames (under : view.tree.Under id view.tree.root)
    (kind : view.tree.kind id = .ok .types) :
    Blames view.tree (fun _ => True) (declared view id) := by
  have within : ∀ depth part, view.tree.Under part view.tree.root →
      view.tree.kind part = .ok .types →
      Blames view.tree (fun _ => True) (declaredWithin view depth part) := by
    intro depth
    induction depth with
    | zero => exact fun _ _ _ _ => trivial
    | succ depth step =>
      intro part below isTypes
      obtain ⟨node, held, isTypes⟩ := Tree.node_of_kind isTypes
      have each : ∀ arg ∈ (view.tree.childrenOfKind part .types).items,
          Blames view.tree (fun _ => True) (declaredWithin view depth arg) := by
        intro arg member
        obtain ⟨argBelow, argKind⟩ := Tree.mem_items_childrenOfKind member
        exact step arg (.head argBelow below) argKind
      show Blames _ _ (declaredWith view (declaredWithin view depth) part)
      unfold declaredWith
      refine (Blames.mapM_walk each).bind fun args ⟨arity, _⟩ => ?_
      refine View.node_blames.bind fun found there => ?_
      cases held.symm.trans there
      dsimp only
      cases known : Ty.ofSignature? node.text args with
      | none => exact .report held below ⟨isTypes, args, arity, known, rfl⟩
      | some ty => exact .pure trivial
  exact within view.depth id under kind

/-- The check of a function tells of returns below its body, or of what they give back. -/
theorem checkReturns_blames (under : view.tree.Under id view.tree.root) (declared : Ty) :
    Blames view.tree (fun _ => True) (checkReturns view id scope declared) := by
  intro names
  refine (Attempt.ensures_forEach trivial (fun _ _ _ => trivial)
    fun site member before (_ : True) => ?_).weaken (fun _ _ _ => trivial) fun _ _ told => told
  have below := returnBelow_of_mem member
  have siteUnder : view.tree.Under site.1 view.tree.root := below.under.to_reflTransGen.trans under
  obtain ⟨node, held, isReturn⟩ := Tree.node_of_kind below.kind
  have returns : Blames view.tree (fun _ => True) (returned view site) := by
    unfold returned
    refine (Blames.guard _).bind fun answer known => ?_
    cases answer with
    | none => exact .pure trivial
    | some value =>
      exact expression_blames (.head (Tree.child?_eq_ok_some known).1 siteUnder)
  refine (returns.bind fun found _ => ?_ : Blames _ _ (checkReturn view declared site)) before
  split
  · exact .pure trivial
  · rename_i refused
    exact .report held siteUnder ⟨isReturn, by simpa using refused⟩

end Typing
end ScopeTyping
