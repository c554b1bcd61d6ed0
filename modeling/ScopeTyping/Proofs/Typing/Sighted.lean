import ScopeTyping.Proofs.Typing.Agreement

/-! Twins agree on paths, expressions and written types. The recursion of typing is
followed level by level: a node is agreed on once its children are. -/
namespace ScopeTyping

variable {f : String → String} {loose : Failure → Prop} {left right : View}
  {here there : ScopeId} {sight wider : Sight} {one other : NameTable} {id : NodeId}
  {α : Type} {good : α → Prop}

namespace Typing

theorem outcome_textOf {names : NameTable} {name : Name} {text : String}
    (known : names.text? name = some text) :
    (textOf name).outcome names = (.ok text, names) := by
  have answer : names.text name = .ok text := by simp [NameTable.text, known]
  show (Attempt.guard (names.text name) : Typing String).outcome names = _
  rw [answer]
  rfl

theorem outcome_mapM_textOf {names : NameTable} {visible : List Name} {texts : List String}
    (known : List.Forall₂ (fun name text => names.text? name = some text) visible texts) :
    (visible.mapM textOf).outcome names = (.ok texts, names) := by
  induction known with
  | nil => rfl
  | cons first rest step =>
    rw [List.mapM_cons, Fallible.outcome_bind, outcome_textOf first]
    simp only [Fallible.outcome_bind, step, Fallible.outcome_pure]

/-- An unknown variable is told with names chosen from those that the scope sees. -/
theorem outcome_unresolved {view : View} {scope : ScopeId} {names : NameTable} {name : Name}
    {text : String} {node : Node} {visible : List Name} {texts : List String}
    (listed : view.scopes.visibleNames scope = .ok visible)
    (spelled : List.Forall₂ (fun name text => names.text? name = some text) visible texts)
    (known : names.text? name = some text) (held : view.tree.node id = .ok node) :
    (unresolved view scope name id : Typing α).outcome names =
      (.error (.error ⟨.unresolvedVariable text (suggestions text texts), id, node.span⟩),
        names) := by
  unfold unresolved
  rw [listed]
  simp only [Fallible.outcome_bind, Attempt.outcome_guard, Except.mapError, outcome_textOf known,
    outcome_mapM_textOf spelled, Attempt.report, SemanticError.atNode, held, Except.map,
    Fallible.outcome_throw]

theorem alike_intern {names twins : NameTable} (text : String) (grown : one.Grows names)
    (twinGrown : other.Grows twins) :
    (intern text).Alike (intern (f text)) names twins
      (fun name twin after afterwards => after.text? name = some text ∧
        afterwards.text? twin = some (f text) ∧ one.Grows after ∧ other.Grows afterwards)
      loose (Failure.Renamed f) :=
  ⟨NameTable.text?_intern names text, NameTable.text?_intern twins (f text),
    grown.trans (NameTable.grows_intern names text),
    twinGrown.trans (NameTable.grows_intern twins (f text))⟩

end Typing

namespace Twins
open Typing

/-- Two views agree on a variable that neither of them shows. -/
theorem unresolved_alike (twins : Twins f loose left right here there sight wider one other)
    {names twinNames : NameTable} {name twin : Name} {text : String} {head : NodeId}
    {done : α → α → NameTable → NameTable → Prop} {twinRun : Typing α}
    (grown : one.Grows names) (twinGrown : other.Grows twinNames)
    (known : names.text? name = some text) (twinKnown : twinNames.text? twin = some (f text))
    (inside : head.index < left.tree.size)
    (run : wider = sight.rename f → twinRun = unresolved right there twin head) :
    (unresolved left here name head).Alike twinRun names twinNames done loose
      (Failure.Renamed f) := by
  obtain ⟨node, held⟩ := Tree.node_exists inside
  obtain ⟨visible, listed, spelled⟩ := (twins.sees.grow grown).visibleNames
  have ends := outcome_unresolved (α := α) listed spelled known held
  rcases twins.same with free | same
  · exact Fallible.alike_of_loose (free _ ⟨_, _, _, _, rfl⟩) ends
  · have twinHeld : right.tree.node head = .ok (node.rename f) := by
      rw [twins.renamed]
      exact Tree.node_rename_of_ok held
    obtain ⟨twinVisible, twinListed, twinSpelled⟩ := (twins.twinSees.grow twinGrown).visibleNames
    have twinEnds := outcome_unresolved (α := α) twinListed twinSpelled twinKnown twinHeld
    rw [run same]
    unfold Fallible.Alike
    rw [ends, twinEnds]
    refine .inr ⟨rfl, rfl, _, rfl, fun unchanged => ?_⟩
    have kept : f = fun text => text := funext unchanged
    subst kept
    rw [same, Sight.texts_rename, List.map_id']

/-- A fragment leads both views to the same type, if both agree on what its index is. -/
theorem fragment_agree (twins : Twins f loose left right here there sight wider one other)
    {typeOf twinTypeOf : NodeId → Typing Ty} (base : Ty) (inside : id.index < left.tree.size)
    (keys : ∀ key, left.tree.ChildOf key id →
      Agree f loose one other (fun _ => True) (typeOf key) (twinTypeOf key)) :
    Agree f loose one other (fun _ => True) (fragment left typeOf base id)
      (fragment right twinTypeOf base id) := by
  unfold fragment
  refine (twins.firstChild_agree inside).bind fun key below => ?_
  refine twins.node_agree (twins.sound.inside key id below) fun node held => ?_
  rw [Node.kind_rename]
  by_cases field : node.kind = .name
  · simp only [field, decide_true, if_true]
    cases base.part? true with
    | some part => exact .pure trivial
    | none => exact twins.report_agree inside fun _ _ equal => Cause.noConfusion equal
  · simp only [field, decide_false, if_false]
    refine (keys key below).discard.bind fun _ _ => ?_
    cases base.part? false with
    | some part => exact .pure trivial
    | none => exact twins.report_agree inside fun _ _ equal => Cause.noConfusion equal

/-- Following all fragments of a path leads both views to the same type. -/
theorem fragments_agree (twins : Twins f loose left right here there sight wider one other)
    {typeOf twinTypeOf : NodeId → Typing Ty} (base : Ty) (inside : id.index < left.tree.size)
    (keys : ∀ part key, left.tree.ChildOf part id → left.tree.ChildOf key part →
      Agree f loose one other (fun _ => True) (typeOf key) (twinTypeOf key)) :
    Agree f loose one other (fun _ => True)
      ((left.tree.childrenOfKind id .pathFragment).foldM (fragment left typeOf) base)
      ((left.tree.childrenOfKind id .pathFragment).foldM (fragment right twinTypeOf) base) := by
  have whole := twins.sound.fault_childrenOfKind inside .pathFragment
  refine Agree.foldM_walk whole fun base part member => ?_
  have below := (Tree.mem_items_childrenOfKind member).1
  exact twins.fragment_agree base (twins.sound.inside part id below) fun key keyBelow =>
    keys part key below keyBelow

/-- What one view finds the other one finds with the same type; if both show the same, what
one view misses the other one misses too. -/
theorem lookups (twins : Twins f loose left right here there sight wider one other)
    {names twinNames : NameTable} {name twin : Name} {text : String} (grown : one.Grows names)
    (twinGrown : other.Grows twinNames) (known : names.text? name = some text)
    (twinKnown : twinNames.text? twin = some (f text)) : ∃ answer twinAnswer,
      left.scopes.lookup here name = .ok answer ∧ right.scopes.lookup there twin = .ok twinAnswer ∧
      (∀ symbol, answer = some symbol →
        ∃ twinSymbol, twinAnswer = some twinSymbol ∧ twinSymbol.ty = symbol.ty) ∧
      (answer = none → wider = sight.rename f → twinAnswer = none) := by
  obtain ⟨answer, found, typed⟩ := (twins.sees.grow grown).lookup known
  obtain ⟨twinAnswer, twinFound, twinTyped⟩ := (twins.twinSees.grow twinGrown).lookup twinKnown
  refine ⟨answer, twinAnswer, found, twinFound, ?_, ?_⟩
  · rintro symbol rfl
    have shown : sight.lookup text = some symbol.ty := typed.symm
    rw [twins.shown _ _ shown] at twinTyped
    exact Option.map_eq_some_iff.1 twinTyped
  · rintro rfl same
    have hidden : sight.lookup text = none := typed.symm
    rw [same, Sight.lookup_rename twins.injective, hidden, Option.map_eq_none_iff] at twinTyped
    exact twinTyped

/-- Two views that show the same path lead to the same type. A path that need not be there
asks more: only if the views show the same is it missing from both. -/
theorem pathWith_alike (twins : Twins f loose left right here there sight wider one other)
    {typeOf twinTypeOf : NodeId → Typing Ty} (inside : id.index < left.tree.size)
    (keys : ∀ part key, left.tree.ChildOf part id → left.tree.ChildOf key part →
      Agree f loose one other (fun _ => True) (typeOf key) (twinTypeOf key))
    {mustExist : Bool} (sure : mustExist = true ∨ wider = sight.rename f)
    {names twinNames : NameTable} (grown : one.Grows names) (twinGrown : other.Grows twinNames) :
    (pathWith left here typeOf id mustExist).Alike (pathWith right there twinTypeOf id mustExist)
      names twinNames
      (fun symbol twin after afterwards =>
        twin.ty = symbol.ty ∧ one.Grows after ∧ other.Grows afterwards)
      loose (Failure.Renamed f) := by
  unfold pathWith
  apply (twins.requiredChild_agree inside names twinNames grown twinGrown).bind
  rintro _ head after afterwards ⟨rfl, ⟨below, named⟩, grown, twinGrown⟩
  have headInside := twins.sound.inside head id below
  obtain ⟨node, held⟩ := Tree.node_exists headInside
  have isName : node.kind = .name := by
    simpa [Tree.kind_of_node held] using named
  have twinHeld : right.tree.node head = .ok (node.rename f) := by
    rw [twins.renamed]
    exact Tree.node_rename_of_ok held
  simp only [View.node, held, twinHeld, Attempt.guard, pure_bind, Node.text_rename_of_name isName]
  apply (alike_intern node.text grown twinGrown).bind
  rintro name twin after afterwards ⟨known, twinKnown, grown, twinGrown⟩
  obtain ⟨answer, twinAnswer, found, twinFound, seen, unseen⟩ :=
    twins.lookups grown twinGrown known twinKnown
  have twinParts : right.tree.childrenOfKind id .pathFragment =
      left.tree.childrenOfKind id .pathFragment := by
    rw [twins.renamed, Tree.childrenOfKind_rename]
  simp only [found, twinFound, pure_bind, twinParts]
  cases answer with
  | some symbol =>
    obtain ⟨twinSymbol, rfl, sameTy⟩ := seen symbol rfl
    simp only [sameTy]
    have parts := twins.fragments_agree symbol.ty inside keys
    apply (parts after afterwards grown twinGrown).bind
    rintro _ ty after afterwards ⟨rfl, -, grown, twinGrown⟩
    exact Fallible.alike_pure ⟨rfl, grown, twinGrown⟩
  | none =>
    cases mustExist with
    | true =>
      refine twins.unresolved_alike grown twinGrown known twinKnown headInside fun same => ?_
      rw [unseen rfl same]
      rfl
    | false =>
      rw [unseen rfl (sure.resolve_left Bool.false_ne_true)]
      have whole := twins.sound.fault_childrenOfKind inside .pathFragment
      obtain ⟨answer, first⟩ := Walk.first?_exists whole
      simp only [Bool.false_eq_true, if_false, first, pure_bind]
      cases answer with
      | none => exact Fallible.alike_pure ⟨rfl, grown, twinGrown⟩
      | some part =>
        exact twins.unresolved_alike grown twinGrown known twinKnown headInside fun _ => rfl

theorem entry_agree (twins : Twins f loose left right here there sight wider one other)
    {typeOf twinTypeOf : NodeId → Typing Ty} (inside : id.index < left.tree.size)
    (parts : ∀ child, left.tree.ChildOf child id →
      Agree f loose one other (fun _ => True) (typeOf child) (twinTypeOf child)) :
    Agree f loose one other (fun _ => True) (entry left typeOf id) (entry right twinTypeOf id) := by
  unfold entry
  refine (twins.twoChildren_agree inside).bind fun pair below => ?_
  refine (parts pair.1 below.1).bind fun key _ => ?_
  refine (parts pair.2 below.2).bind fun value _ => ?_
  exact .pure trivial

theorem binary_agree (twins : Twins f loose left right here there sight wider one other)
    {typeOf twinTypeOf : NodeId → Typing Ty} (symbol : String) (inside : id.index < left.tree.size)
    (parts : ∀ child, left.tree.ChildOf child id →
      Agree f loose one other (fun _ => True) (typeOf child) (twinTypeOf child)) :
    Agree f loose one other (fun _ => True) (binary left typeOf id symbol)
      (binary right twinTypeOf id symbol) := by
  unfold binary
  cases BinaryOp.ofSymbol? symbol with
  | none => exact twins.report_agree inside fun _ _ equal => Cause.noConfusion equal
  | some op =>
    refine (twins.twoChildren_agree inside).bind fun pair below => ?_
    refine (parts pair.1 below.1).bind fun first _ => ?_
    refine (parts pair.2 below.2).bind fun second _ => ?_
    cases op.resultType first second with
    | some ty => exact .pure trivial
    | none => exact twins.report_agree inside fun _ _ equal => Cause.noConfusion equal

theorem unary_agree (twins : Twins f loose left right here there sight wider one other)
    {typeOf twinTypeOf : NodeId → Typing Ty} (symbol : String) (inside : id.index < left.tree.size)
    (parts : ∀ child, left.tree.ChildOf child id →
      Agree f loose one other (fun _ => True) (typeOf child) (twinTypeOf child)) :
    Agree f loose one other (fun _ => True) (unary left typeOf id symbol)
      (unary right twinTypeOf id symbol) := by
  unfold unary
  cases UnaryOp.ofSymbol? symbol with
  | none => exact twins.report_agree inside fun _ _ equal => Cause.noConfusion equal
  | some op =>
    refine (twins.firstChild_agree inside).bind fun child below => ?_
    refine (parts child below).bind fun operand _ => ?_
    cases op.resultType operand with
    | some ty => exact .pure trivial
    | none => exact twins.report_agree inside fun _ _ equal => Cause.noConfusion equal

/-- Views that agree on the nodes up to two levels below a node agree on the node. The
second level is there for the indices of a path. -/
theorem expressionWith_agree (twins : Twins f loose left right here there sight wider one other)
    {typeOf twinTypeOf : NodeId → Typing Ty} (inside : id.index < left.tree.size)
    (parts : ∀ child, child.index < left.tree.size → left.tree.height child < left.tree.height id →
      Agree f loose one other (fun _ => True) (typeOf child) (twinTypeOf child)) :
    Agree f loose one other (fun _ => True) (expressionWith left here typeOf id)
      (expressionWith right there twinTypeOf id) := by
  have children : ∀ child, left.tree.ChildOf child id →
      Agree f loose one other (fun _ => True) (typeOf child) (twinTypeOf child) :=
    fun child below => parts child (twins.sound.inside child id below) (twins.sound.height_lt below)
  have grandchildren : ∀ part child, left.tree.ChildOf part id → left.tree.ChildOf child part →
      Agree f loose one other (fun _ => True) (typeOf child) (twinTypeOf child) :=
    fun part child below further => parts child (twins.sound.inside child part further)
      ((twins.sound.height_lt further).trans (twins.sound.height_lt below))
  unfold expressionWith
  refine twins.node_agree inside fun node held => ?_
  have kept : node.kind ≠ .name → (node.rename f).text = node.text := Node.text_rename_of_ne
  rw [Node.kind_rename, Node.children_rename]
  cases kind : node.kind with
  | baseExpression | expression =>
    exact (twins.firstChild_agree inside).bind fun child below => children child below
  | number =>
    rw [kept (by simp [kind])]
    exact .pure trivial
  | string | boolean | time | regexp | void => exact .pure trivial
  | list =>
    refine (Agree.mapM fun item member => children item ⟨node, held, member⟩).bind fun types _ => ?_
    exact .pure trivial
  | map =>
    rw [twins.renamed, Tree.childrenOfKind_rename]
    refine (Agree.mapM_walk (twins.sound.fault_childrenOfKind inside _) fun item member => ?_).bind
      fun _ _ => .pure trivial
    have below := (Tree.mem_items_childrenOfKind member).1
    exact twins.entry_agree (twins.sound.inside item id below) fun child further =>
      grandchildren item child below further
  | path =>
    intro names twinNames grown twinGrown
    apply (twins.pathWith_alike inside grandchildren (.inl rfl) grown twinGrown).bind
    rintro symbol twin after afterwards ⟨same, grown, twinGrown⟩
    exact Fallible.alike_pure ⟨same, trivial, grown, twinGrown⟩
  | binaryExpression =>
    rw [kept (by simp [kind])]
    exact twins.binary_agree node.text inside children
  | unaryExpression =>
    rw [kept (by simp [kind])]
    exact twins.unary_agree node.text inside children
  | _ => exact twins.report_agree inside fun _ _ equal => Cause.noConfusion equal

/-- Twins agree on every expression. -/
theorem expressionWithin_agree (twins : Twins f loose left right here there sight wider one other)
    {depth : Nat} (inside : id.index < left.tree.size) (deep : left.tree.height id < depth) :
    Agree f loose one other (fun _ => True) (expressionWithin left here depth id)
      (expressionWithin right there depth id) := by
  induction depth generalizing id with
  | zero => exact absurd deep (Nat.not_lt_zero _)
  | succ depth step =>
    exact twins.expressionWith_agree inside fun child childInside lower =>
      step childInside (by omega)

theorem expression_agree (twins : Twins f loose left right here there sight wider one other)
    (inside : id.index < left.tree.size) :
    Agree f loose one other (fun _ => True) (expression left here id) (expression right there id) := by
  unfold expression
  rw [twins.depth_eq]
  exact twins.expressionWithin_agree inside (Nat.lt_succ_of_le (Tree.height_le left.tree id))

theorem path_alike (twins : Twins f loose left right here there sight wider one other)
    (inside : id.index < left.tree.size) {mustExist : Bool}
    (sure : mustExist = true ∨ wider = sight.rename f) {names twinNames : NameTable}
    (grown : one.Grows names) (twinGrown : other.Grows twinNames) :
    (path left here id mustExist).Alike (path right there id mustExist) names twinNames
      (fun symbol twin after afterwards =>
        twin.ty = symbol.ty ∧ one.Grows after ∧ other.Grows afterwards)
      loose (Failure.Renamed f) :=
  twins.pathWith_alike inside
    (fun part key _ further => twins.expression_agree (twins.sound.inside key part further))
    sure grown twinGrown

end Twins

namespace Kindred
open Typing

/-- A written type is read alike wherever it is read: identifiers play no part in it. -/
theorem declaredWithin_agree (kin : Kindred f left right) {depth : Nat}
    (types : left.tree.kind id = .ok .types) (deep : left.tree.height id < depth) :
    Agree f loose one other (fun _ => True) (declaredWithin left depth id)
      (declaredWithin right depth id) := by
  induction depth generalizing id with
  | zero => exact absurd deep (Nat.not_lt_zero _)
  | succ depth step =>
    obtain ⟨node, held, kind⟩ := Tree.node_of_kind types
    have inside := Tree.lt_size_of_node held
    show Agree f loose one other (fun _ => True) (declaredWith left (declaredWithin left depth) id)
      (declaredWith right (declaredWithin right depth) id)
    unfold declaredWith
    rw [kin.renamed, Tree.childrenOfKind_rename]
    have argsAgree : Agree f loose one other (fun _ => True)
        ((left.tree.childrenOfKind id .types).mapM (declaredWithin left depth))
        ((left.tree.childrenOfKind id .types).mapM (declaredWithin right depth)) := by
      refine Agree.mapM_walk (kin.sound.fault_childrenOfKind inside _) fun arg member => ?_
      obtain ⟨below, argTypes⟩ := Tree.mem_items_childrenOfKind member
      have lower := kin.sound.height_lt below
      exact step argTypes (by omega)
    refine argsAgree.bind fun args _ => ?_
    refine kin.node_agree inside fun found there => ?_
    rw [held] at there
    cases there
    rw [Node.text_rename_of_ne (by simp [kind]), ← kin.renamed]
    dsimp only
    cases Ty.ofSignature? node.text args with
    | some ty => exact .pure trivial
    | none => exact kin.report_agree inside fun _ _ equal => Cause.noConfusion equal

theorem declared_agree (kin : Kindred f left right) (types : left.tree.kind id = .ok .types) :
    Agree f loose one other (fun _ => True) (declared left id) (declared right id) := by
  unfold declared
  rw [kin.depth_eq]
  exact kin.declaredWithin_agree types (Nat.lt_succ_of_le (Tree.height_le left.tree id))

end Kindred

/-- What a node writes down does not depend on what is known about scopes and names. -/
theorem Typing.declared_anywhere {view : View} {id : NodeId} {ty : Ty}
    {names after : NameTable} (ran : (declared view id).outcome names = (.ok ty, after))
    (sound : view.tree.Sound) (types : view.tree.kind id = .ok .types)
    (other : View) (same : other.tree = view.tree) (known : NameTable) :
    ∃ final, (declared other id).outcome known = (.ok ty, final) := by
  have kin : Kindred (fun text => text) view other := ⟨same.trans view.tree.rename_id.symm, sound⟩
  have agree : Agree (fun text => text) (fun _ => True) names known (fun _ => True)
      (declared view id) (declared other id) := kin.declared_agree types
  obtain ⟨twin, final, twinRan, rfl, _⟩ := (agree names known (.refl _) (.refl _)).ok ran
  exact ⟨final, twinRan⟩

end ScopeTyping
