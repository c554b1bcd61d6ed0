import ScopeTyping.Proofs.Program.Following
import ScopeTyping.Proofs.Program.Standing

/-! Typing agrees with the reading of types. What an expression or a written type means depends
on its syntax and on the scopes alone, not on where in the tree it stands. -/
namespace ScopeTyping

theorem ExprAt.otherKind {tree : Tree} {expr : Expr} {id : NodeId}
    (stands : ExprAt tree.nodes expr id) : tree.OtherKind .name id := by
  cases stands with
  | @literal _ kind _ shows leaf =>
    refine shows.otherKind fun same => ?_
    rw [same] at leaf
    cases leaf
  | wrapped shows | list shows | map shows | path shows | binary shows | unary shows =>
    exact shows.otherKind (by decide)

theorem ExprAt.kind_wrapped {tree : Tree} {expr : Expr} {id : NodeId}
    (stands : ExprAt tree.nodes (.wrapped expr) id) : tree.kind id = .ok .baseExpression := by
  cases stands with
  | wrapped shows _ => exact shows.kind

theorem WrittenAt.kind {tree : Tree} {written : Written} {id : NodeId}
    (stands : WrittenAt tree.nodes written id) : tree.kind id = .ok .types := by
  cases stands with
  | mk shows => exact shows.kind

namespace Typing

variable {view : View} {scope : ScopeId} {typeOf : NodeId → Typing Ty} {id : NodeId}

theorem unresolved_agrees {α : Type} {node : Node} (held : view.tree.node id = .ok node)
    (name : Name) : Agrees (unresolved view scope name id : Typing α)
      (TypeReading.unresolved view.scopes scope name) := by
  unfold unresolved TypeReading.unresolved
  refine (Agrees.guard _).bind fun visible => (Agrees.textOf name).bind fun text => ?_
  exact (Agrees.mapM (List.forall₂_same.2 fun other _ => .textOf other)).bind
    fun candidates => .report held

/-- The first child of a node is there. -/
theorem firstChild_eq {kind : Kind} {text : String} {child : NodeId} {rest : List NodeId}
    (shows : Shows view.tree.nodes id kind text (child :: rest)) :
    view.firstChild id = pure child := by
  obtain ⟨_, held⟩ := shows.node
  simp only [View.firstChild, View.node, held, Attempt.guard, pure_bind]

theorem twoChildren_eq {kind : Kind} {text : String} {left right : NodeId}
    (shows : Shows view.tree.nodes id kind text [left, right]) :
    view.twoChildren id = pure (left, right) := by
  obtain ⟨_, held⟩ := shows.node
  simp only [View.twoChildren, View.node, held, Attempt.guard, pure_bind]

/-- A part of a value is what it is read to be. -/
theorem part_agrees {node : Node} (held : view.tree.node id = .ok node) (isField : Bool) (base : Ty) :
    Agrees (match base.part? isField with
      | some part => pure part
      | none => Attempt.report view.tree id (.typeIndexIncompatible base))
      (TypeReading.part isField base) := by
  unfold TypeReading.part
  cases base.part? isField with
  | some part => exact .pure part
  | none => exact .report held

/-- A step of a path reaches what its reading reaches. -/
theorem fragment_agrees {key : Key Expr} (stands : KeyAt view.tree.nodes (fun expr id =>
      view.tree.OtherKind .name id ∧ Agrees (typeOf id) (expr.type view.scopes scope)) key id)
    (base : Ty) : Agrees (fragment view typeOf base id) (key.reach view.scopes scope base) := by
  unfold fragment
  cases stands with
  | field shows named =>
    obtain ⟨_, held⟩ := shows.node
    obtain ⟨_, there⟩ := named.node
    simp only [firstChild_eq shows, View.node, there, Attempt.guard, pure_bind, decide_true, if_true]
    exact part_agrees held true base
  | index shows inner =>
    obtain ⟨⟨kind, known, apart⟩, agrees⟩ := inner
    obtain ⟨_, held⟩ := shows.node
    obtain ⟨node, there, rfl⟩ := Tree.node_of_kind known
    simp only [firstChild_eq shows, View.node, there, Attempt.guard, pure_bind, apart, decide_false,
      if_false]
    exact agrees.discard.bind fun _ => part_agrees held false base

theorem fragments_agree {keys : List (Key Expr)} {ids : List NodeId}
    (inner : List.Forall₂ (KeyAt view.tree.nodes fun expr id =>
      view.tree.OtherKind .name id ∧ Agrees (typeOf id) (expr.type view.scopes scope)) keys ids)
    (base : Ty) :
    Agrees (ids.foldlM (fragment view typeOf) base) (Expr.follow view.scopes scope base keys) := by
  induction inner generalizing base with
  | nil => exact .pure base
  | cons first _ step =>
    rw [List.foldlM_cons, Expr.follow_cons]
    exact (fragment_agrees first base).bind step

/-- The symbol of a path, given that its steps reach what they are read to reach. -/
theorem pathWith_agrees {head : String} {keys : List (Key Expr)} {ids : List NodeId} {name : NodeId}
    (shows : Shows view.tree.nodes id .path "" (name :: ids)) (named : NameAt view.tree.nodes head name)
    (inner : List.Forall₂ (KeyAt view.tree.nodes fun expr id =>
      view.tree.OtherKind .name id ∧ Agrees (typeOf id) (expr.type view.scopes scope)) keys ids)
    (mustExist : Bool) : Agrees (pathWith view scope typeOf id mustExist)
      (TypeReading.symbol view.scopes scope head (fun ty => Expr.follow view.scopes scope ty keys)
        fun name => if mustExist = false ∧ keys.isEmpty then pure ⟨name, .absent⟩
          else TypeReading.unresolved view.scopes scope name) := by
  obtain ⟨_, held⟩ := named.node
  have fragmentKind : ∀ id ∈ ids, view.tree.kind id = .ok .pathFragment := by
    refine forall_of_forall₂ inner ?_
    rintro _ id (⟨shows, _⟩ | ⟨shows, _⟩) <;> exact shows.kind
  have headChild := shows.child? [] name ids (by simp) named.kind
  have fragments := Shows.childrenOfKind [name] ids [] (by simpa using shows)
    (by simpa using named.otherKind (by decide)) fragmentKind (by simp)
  unfold pathWith TypeReading.symbol Attempt.requiredChild
  simp only [headChild, fragments, View.node, held, Attempt.guard, pure_bind]
  refine (Agrees.intern head).bind fun found => (Agrees.guard _).bind fun symbol => ?_
  cases symbol with
  | some symbol =>
    refine Agrees.bind ?_ fun ty => .pure _
    have followed := fragments_agree inner symbol.ty
    simpa [Walk.foldM, Walk.whole] using followed
  | none =>
    cases mustExist with
    | true => simpa using unresolved_agrees held found
    | false =>
      cases inner with
      | nil => exact .pure _
      | cons first others => simpa [Walk.first?, Walk.findSome?] using unresolved_agrees held found

/-- The types of the items of a list. -/
theorem items_agree {items : List Expr} {ids : List NodeId}
    (inner : List.Forall₂ (fun expr id => Agrees (typeOf id) (expr.type view.scopes scope)) items ids) :
    Agrees (ids.mapM typeOf) (Expr.types view.scopes scope items) := by
  induction inner with
  | nil => exact .pure []
  | cons first _ step =>
    rw [List.mapM_cons]
    exact first.bind fun ty => step.bind fun types => .pure (ty :: types)

/-- The types of the entries of a map. -/
theorem entries_agree {entries : List (Expr × Expr)} {ids : List NodeId}
    (inner : List.Forall₂ (EntryAt view.tree.nodes fun expr id =>
      Agrees (typeOf id) (expr.type view.scopes scope)) entries ids) :
    Agrees (ids.mapM (entry view typeOf)) (Expr.entryTypes view.scopes scope entries) := by
  induction inner with
  | nil => exact .pure []
  | cons first _ step =>
    obtain ⟨shows, left, right⟩ := first
    rw [List.mapM_cons]
    unfold entry
    simp only [twoChildren_eq shows, pure_bind, bind_assoc, Expr.entryTypes]
    exact left.bind fun key => right.bind fun value => step.bind fun types =>
      .pure ((key, value) :: types)

theorem binary_agrees {op : String} {leftId rightId : NodeId} {left right : TypeReading Ty}
    (shows : Shows view.tree.nodes id .binaryExpression op [leftId, rightId])
    (first : Agrees (typeOf leftId) left) (second : Agrees (typeOf rightId) right) :
    Agrees (binary view typeOf id op) (TypeReading.binary op left right) := by
  obtain ⟨_, held⟩ := shows.node
  unfold binary TypeReading.binary
  cases BinaryOp.ofSymbol? op with
  | none => exact .report held
  | some known =>
    simp only [twoChildren_eq shows, pure_bind]
    refine first.bind fun one => second.bind fun other => ?_
    cases known.resultType one other with
    | some ty => exact .pure ty
    | none => exact .report held

theorem unary_agrees {op : String} {innerId : NodeId} {operand : TypeReading Ty}
    (shows : Shows view.tree.nodes id .unaryExpression op [innerId])
    (inner : Agrees (typeOf innerId) operand) :
    Agrees (unary view typeOf id op) (TypeReading.unary op operand) := by
  obtain ⟨_, held⟩ := shows.node
  unfold unary TypeReading.unary
  cases UnaryOp.ofSymbol? op with
  | none => exact .report held
  | some known =>
    simp only [firstChild_eq shows, pure_bind]
    refine inner.bind fun ty => ?_
    cases known.resultType ty with
    | some ty => exact .pure ty
    | none => exact .report held

theorem literal_agrees {kind : Kind} {text : String} (shows : Shows view.tree.nodes id kind text [])
    (leaf : kind.isLiteral = true) :
    Agrees (expressionWith view scope typeOf id) (pure (kind.literalType text)) := by
  obtain ⟨_, held⟩ := shows.node
  simp only [expressionWith, View.node, held, Attempt.guard, pure_bind]
  cases kind <;> first | exact .pure _ | cases leaf

/-- A step of a path that is not too far down is typed as it is read. -/
theorem keyAt_of_lower (sound : view.tree.Sound) {depth : Nat} (key : Key Expr) (id : NodeId)
    (step : KeyAt view.tree.nodes (fun expr id => ∃ _ : ExprAt view.tree.nodes expr id,
      ∀ {depth : Nat}, view.tree.height id < depth →
        Agrees (expressionWithin view scope depth id) (expr.type view.scopes scope)) key id ∧
      view.tree.height id < depth) :
    KeyAt view.tree.nodes (fun expr id => view.tree.OtherKind .name id ∧
      Agrees (expressionWithin view scope depth id) (expr.type view.scopes scope)) key id := by
  obtain ⟨⟨inside, named⟩ | ⟨inside, stands, agrees⟩, shorter⟩ := step
  · exact .field inside named
  · have below := inside.lower sound (Nat.lt_succ_of_lt shorter)
    exact .index inside ⟨stands.otherKind, agrees (below _ (by simp))⟩

/-- An expression has to be looked at with one level less for the children of its node. -/
theorem Agrees.within {kind : Kind} {text : String} {children : List NodeId}
    {reading : TypeReading Ty} (sound : view.tree.Sound)
    (shows : Shows view.tree.nodes id kind text children)
    (step : ∀ depth, (∀ child ∈ children, view.tree.height child < depth) →
      Agrees (expressionWith view scope (expressionWithin view scope depth) id) reading)
    {depth : Nat} (deep : view.tree.height id < depth) :
    Agrees (expressionWithin view scope depth id) reading := by
  cases depth with
  | zero => exact absurd deep (Nat.not_lt_zero _)
  | succ depth => exact step depth (shows.lower sound deep)

/-- An expression has the type that it is read to have, in whatever tree it stands. -/
theorem expressionWithin_agrees (sound : view.tree.Sound) {expr : Expr}
    (stands : ExprAt view.tree.nodes expr id) {depth : Nat} (deep : view.tree.height id < depth) :
    Agrees (expressionWithin view scope depth id) (expr.type view.scopes scope) := by
  induction stands using ExprAt.induct generalizing depth with
  | literal shows leaf =>
    refine .within sound shows (fun depth _ => ?_) deep
    rw [Expr.type]
    exact literal_agrees shows leaf
  | wrapped shows _ step =>
    refine .within sound shows (fun depth lower => ?_) deep
    obtain ⟨_, held⟩ := shows.node
    simp only [expressionWith, View.node, held, Attempt.guard, pure_bind, firstChild_eq shows,
      Expr.type]
    exact step (lower _ (by simp))
  | list shows _ step =>
    refine .within sound shows (fun depth lower => ?_) deep
    obtain ⟨_, held⟩ := shows.node
    simp only [expressionWith, View.node, held, Attempt.guard, pure_bind, Expr.type]
    have items := forall₂_and_right step lower
    exact (items_agree (items.imp fun _ _ ⟨⟨_, agrees⟩, lower⟩ => agrees lower)).bind
      fun types => .pure _
  | @map id ids entries shows _ step =>
    refine .within sound shows (fun depth lower => ?_) deep
    obtain ⟨_, held⟩ := shows.node
    have parts : view.tree.childrenOfKind id .mapItem = .whole ids :=
      Shows.childrenOfKind [] ids [] (by simpa using shows) (by simp)
        (forall_of_forall₂ step fun _ _ ⟨shows, _, _⟩ => shows.kind) (by simp)
    simp only [expressionWith, View.node, held, Attempt.guard, pure_bind, parts, Walk.mapM,
      Walk.whole, bind_pure, Expr.type]
    refine (entries_agree ?_).bind fun types => .pure _
    refine (forall₂_and_right step lower).imp ?_
    rintro _ child ⟨⟨inside, ⟨_, left⟩, ⟨_, right⟩⟩, shorter⟩
    have below := inside.lower sound (Nat.lt_succ_of_lt shorter)
    exact .mk inside (left (below _ (by simp))) (right (below _ (by simp)))
  | path shows named _ step =>
    refine .within sound shows (fun depth lower => ?_) deep
    obtain ⟨_, held⟩ := shows.node
    simp only [expressionWith, View.node, held, Attempt.guard, pure_bind, Expr.type]
    refine Agrees.bind ?_ fun symbol => .pure symbol.ty
    have steps := (forall₂_and_right step fun id member => lower id (by simp [member])).imp
      (keyAt_of_lower sound)
    exact (pathWith_agrees shows named steps true).congr (by simp)
  | binary shows _ _ first second =>
    refine .within sound shows (fun depth lower => ?_) deep
    obtain ⟨_, held⟩ := shows.node
    simp only [expressionWith, View.node, held, Attempt.guard, pure_bind, Expr.type]
    exact binary_agrees shows (first (lower _ (by simp))) (second (lower _ (by simp)))
  | unary shows _ step =>
    refine .within sound shows (fun depth lower => ?_) deep
    obtain ⟨_, held⟩ := shows.node
    simp only [expressionWith, View.node, held, Attempt.guard, pure_bind, Expr.type]
    exact unary_agrees shows (step (lower _ (by simp)))

theorem expression_agrees (view : View) (sound : view.tree.Sound) {expr : Expr}
    (stands : ExprAt view.tree.nodes expr id) :
    Agrees (expression view scope id) (expr.type view.scopes scope) :=
  expressionWithin_agrees sound stands (Nat.lt_succ_of_le (view.tree.height_le id))

/-- A path denotes the symbol that it is read to denote. -/
theorem path_agrees (view : View) (sound : view.tree.Sound) {head : String} {keys : List (Key Expr)}
    (stands : ExprAt view.tree.nodes (.path head keys) id) (mustExist : Bool) :
    Agrees (path view scope id mustExist)
      (TypeReading.symbol view.scopes scope head (fun ty => Expr.follow view.scopes scope ty keys)
        fun name => if mustExist = false ∧ keys.isEmpty then pure ⟨name, .absent⟩
          else TypeReading.unresolved view.scopes scope name) := by
  cases stands with
  | @path _ _ ids _ _ shows named inner =>
    have steps : List.Forall₂ (KeyAt view.tree.nodes fun expr id => view.tree.OtherKind .name id ∧
        Agrees (expression view scope id) (expr.type view.scopes scope)) keys ids := by
      refine inner.imp ?_
      rintro _ child (⟨inside, named⟩ | ⟨inside, stands⟩)
      · exact .field inside named
      · exact .index inside ⟨stands.otherKind, expression_agrees view sound stands⟩
    exact pathWith_agrees shows named steps mustExist

/-- The target of an assignment denotes the symbol that it is read to denote. -/
theorem target_agrees (view : View) (sound : view.tree.Sound) {head : String} {keys : List (Key Expr)}
    (stands : ExprAt view.tree.nodes (.path head keys) id) :
    Agrees (path view scope id false) (Expr.target view.scopes scope head keys) :=
  (path_agrees view sound stands false).congr (by simp [Expr.target])

/-- A written type is what it is read to be. -/
theorem declaredWithin_agrees (sound : view.tree.Sound) {written : Written}
    (stands : WrittenAt view.tree.nodes written id) {depth : Nat}
    (deep : view.tree.height id < depth) :
    Agrees (declaredWithin view depth id) written.declared := by
  induction stands using WrittenAt.induct generalizing depth with
  | @mk id base ids args shows _ step =>
    cases depth with
    | zero => exact absurd deep (Nat.not_lt_zero _)
    | succ depth =>
      obtain ⟨_, held⟩ := shows.node
      have inside : view.tree.childrenOfKind id .types = .whole ids :=
        Shows.childrenOfKind [] ids [] (by simpa using shows) (by simp)
          (forall_of_forall₂ step fun _ _ ⟨stands, _⟩ => stands.kind) (by simp)
      have args : Agrees (ids.mapM (declaredWithin view depth)) (Written.allDeclared args) := by
        have inner := forall₂_and_right step (shows.lower sound deep)
        clear * - inner
        induction inner with
        | nil => exact .pure []
        | cons first _ step =>
          obtain ⟨⟨_, agrees⟩, lower⟩ := first
          rw [List.mapM_cons]
          exact (agrees lower).bind fun ty => step.bind fun types => .pure (ty :: types)
      simp only [declaredWithin, declaredWith, View.node, held, Attempt.guard, pure_bind, inside,
        Walk.mapM, Walk.whole, bind_pure, Written.declared]
      refine args.bind fun types => ?_
      cases Ty.ofSignature? base types with
      | some ty => exact .pure ty
      | none => exact .report held

theorem declared_agrees (view : View) (sound : view.tree.Sound) {written : Written}
    (stands : WrittenAt view.tree.nodes written id) :
    Agrees (declared view id) written.declared :=
  declaredWithin_agrees sound stands (Nat.lt_succ_of_le (view.tree.height_le id))

end Typing
end ScopeTyping
