import ScopeTyping.Proofs.Outcome
import ScopeTyping.Proofs.Scope.Sight
import ScopeTyping.Proofs.Tree.Descent
import ScopeTyping.Proofs.Ty.Settled
import ScopeTyping.Typing.Rules

/-! What typing yields in a forest of settled types. Every expression and every written
type has a settled type; the type that says that nothing is known comes only from a path
that need not be there and is not (`Missing`). Typing hands out names and takes none back, and what
it tells of is never what only the pass can find. -/
namespace ScopeTyping

/-- Typing can find it; the other causes are found by the pass, once types are known. -/
def Cause.ofTyping : Cause → Bool
  | .typeAssignmentDifferent .. | .scopeAlreadyAttached .. => false
  | _ => true

/-- A failure that typing can end with. -/
def Failure.OfTyping : Failure → Prop
  | .error told => told.cause.ofTyping = true
  | .fault _ => True

/-- Every symbol of the forest has a settled type. -/
def Forest.Settled (forest : Forest) : Prop :=
  ∀ id found, forest.scope id = .ok found → ∀ entry ∈ found.symbols.entries, entry.2.ty.Settled

namespace Forest

variable {forest : Forest} {id : ScopeId} {name : Name} {symbol : Symbol}

theorem mem_of_lookup {entries : List (Name × Symbol)} (found : entries.lookup name = some symbol) :
    (name, symbol) ∈ entries := by
  obtain ⟨before, after, rfl, _⟩ := List.lookup_eq_some_iff.1 found
  simp

/-- What a lookup finds stands in a scope of the forest, under the name. -/
theorem entry_of_lookup (seen : forest.lookup id name = .ok (some symbol)) :
    ∃ scope found, forest.scope scope = .ok found ∧ (name, symbol) ∈ found.symbols.entries := by
  unfold lookup Walk.findSome? at seen
  split at seen
  · rename_i other first
    cases seen
    obtain ⟨link, member, bound⟩ := List.exists_of_findSome?_eq_some first
    exact ⟨link.1, link.2, scope_of_mem_climb member, mem_of_lookup bound⟩
  · split at seen <;> cases seen

theorem Settled.lookup (settled : forest.Settled) (seen : forest.lookup id name = .ok (some symbol)) :
    symbol.ty.Settled := by
  obtain ⟨scope, found, held, member⟩ := entry_of_lookup seen
  exact settled scope found held _ member

end Forest

/-- A typing computation, run with a table, hands out names whichever way it ends; if it
ends with a value, then `done` holds of the value and the table that is left, and if it fails, then
as typing can. -/
def YieldsFrom {α : Type} (names : NameTable) (done : α → NameTable → Prop) (typing : Typing α) :
    Prop :=
  typing.Ensures names (fun value after => names.Grows after ∧ done value after)
    (fun failure after => names.Grows after ∧ failure.OfTyping)

/-- A typing computation hands out names and gives values that are `good`. -/
def Yields {α : Type} (good : α → Prop) (typing : Typing α) : Prop :=
  ∀ names, YieldsFrom names (fun value _ => good value) typing

theorem YieldsFrom.bind {α β : Type} {names : NameTable} {done : α → NameTable → Prop}
    {result : β → NameTable → Prop} {typing : Typing α} {next : α → Typing β}
    (first : YieldsFrom names done typing)
    (second : ∀ value after, done value after → YieldsFrom after result (next value)) :
    YieldsFrom names result (typing >>= next) := by
  refine Attempt.Ensures.bind first fun value after facts => ?_
  refine (second value after facts.2).weaken (fun held later ensured => ?_)
    fun failure later told => ⟨facts.1.trans told.1, told.2⟩
  exact ⟨facts.1.trans ensured.1, ensured.2⟩

theorem YieldsFrom.weaken {α : Type} {names : NameTable} {done weaker : α → NameTable → Prop}
    {typing : Typing α} (yields : YieldsFrom names done typing)
    (value : ∀ value after, done value after → weaker value after) :
    YieldsFrom names weaker typing :=
  Attempt.Ensures.weaken yields (fun held after facts => ⟨facts.1, value held after facts.2⟩)
    fun _ _ told => told

namespace Yields

variable {α β : Type} {good : α → Prop} {fine : β → Prop} {typing : Typing α}

theorem pure {value : α} (holds : good value) : Yields good (Pure.pure value) :=
  fun names => Attempt.ensures_pure ⟨.refl names, holds⟩

theorem fault (fault : Fault) : Yields good (throw (.fault fault) : Typing α) :=
  fun names => Attempt.ensures_throw ⟨.refl names, trivial⟩

theorem bind {next : α → Typing β} (first : Yields good typing)
    (second : ∀ value, good value → Yields fine (next value)) : Yields fine (typing >>= next) :=
  fun names => (first names).bind fun value after holds => second value holds after

theorem weaken {weaker : α → Prop} (yields : Yields good typing)
    (value : ∀ value, good value → weaker value) : Yields weaker typing :=
  fun names => (yields names).weaken fun held _ => value held

theorem discard (yields : Yields good typing) : Yields (fun _ => True) (discard typing) := by
  rw [discard_eq_bind]
  exact yields.bind fun _ _ => pure trivial

theorem guard (answer : Except Fault α) :
    Yields (fun value => answer = .ok value) (Attempt.guard answer) := by
  cases answer with
  | ok value => exact pure rfl
  | error unanswered => exact fault unanswered

theorem report {tree : Tree} {id : NodeId} {cause : Cause} (found : cause.ofTyping = true) :
    Yields good (Attempt.report tree id cause) := by
  intro names
  unfold Attempt.report SemanticError.atNode
  cases tree.node id with
  | ok node => exact ⟨.refl names, found⟩
  | error fault => exact ⟨.refl names, trivial⟩

theorem malformed {tree : Tree} {id : NodeId} {kind : Kind} :
    Yields good (Attempt.malformed tree id kind) := by
  intro names
  unfold Attempt.malformed SemanticError.malformed
  cases tree.node id with
  | ok node => exact ⟨.refl names, rfl⟩
  | error fault => exact ⟨.refl names, trivial⟩

/-- What a computation yields, it yields after others that have handed out names. -/
theorem grown {names before : NameTable} (yields : Yields good typing) (grown : names.Grows before) :
    typing.Ensures before (fun value after => names.Grows after ∧ good value)
      (fun failure after => names.Grows after ∧ failure.OfTyping) :=
  Attempt.Ensures.weaken (yields before) (fun _ _ facts => ⟨grown.trans facts.1, facts.2⟩)
    fun _ _ told => ⟨grown.trans told.1, told.2⟩

theorem mapM {ι : Type} {items : List ι} {next : ι → Typing α}
    (each : ∀ item ∈ items, Yields good (next item)) :
    Yields (fun values => ∀ value ∈ values, good value) (items.mapM next) := by
  intro names
  have all := Attempt.ensures_mapM (.refl names) fun item member _ => (each item member).grown
  exact all.weaken (fun _ _ facts => ⟨facts.1, facts.2.2⟩) fun _ _ told => told

theorem mapM_walk {ι : Type} {walk : Walk ι} {next : ι → Typing α}
    (each : ∀ item ∈ walk.items, Yields good (next item)) :
    Yields (fun values => ∀ value ∈ values, good value) (walk.mapM next) := by
  intro names
  have all := Attempt.ensures_mapM_walk (.refl names) (fun _ _ grown => ⟨grown, trivial⟩)
    fun item member _ => (each item member).grown
  exact all.weaken (fun _ _ facts => ⟨facts.1, facts.2.2⟩) fun _ _ told => told

theorem foldM_walk {ι : Type} {walk : Walk ι} {next : α → ι → Typing α} {first : α}
    (holds : good first) (each : ∀ value, good value → ∀ item, Yields good (next value item)) :
    Yields good (walk.foldM next first) := fun names =>
  Attempt.ensures_foldM_walk holds (.refl names) (fun _ _ grown => ⟨grown, trivial⟩)
    fun item _ value _ fine => (each value fine item).grown

theorem forEach_walk {ι : Type} {walk : Walk ι} {next : ι → Typing Unit}
    (each : ∀ item, Yields (fun _ => True) (next item)) :
    Yields (fun _ => True) (walk.forEach next) := by
  intro names
  have all := Attempt.ensures_forEach (.refl names) (fun _ _ grown => ⟨grown, trivial⟩)
    fun item (_ : item ∈ walk.items) _ grown =>
      ((each item).grown grown).weaken (fun _ _ facts => facts.1) fun _ _ told => told
  exact all.weaken (fun _ _ grown => ⟨grown, trivial⟩) fun _ _ told => told

end Yields

variable {view : View} {scope : ScopeId} {typeOf : NodeId → Typing Ty} {id : NodeId}

theorem View.node_yields : Yields (fun node => view.tree.node id = .ok node) (view.node id) :=
  Yields.guard _

theorem View.firstChild_yields : Yields (fun _ => True) (view.firstChild id) := by
  unfold View.firstChild
  refine View.node_yields.bind fun node _ => ?_
  cases node.children with
  | nil => exact .malformed
  | cons child rest => exact .pure trivial

theorem View.twoChildren_yields : Yields (fun _ => True) (view.twoChildren id) := by
  unfold View.twoChildren
  refine View.node_yields.bind fun node _ => ?_
  split
  · exact .pure trivial
  · exact .malformed

theorem Attempt.requiredChild_yields {tree : Tree} {kind : Kind} :
    Yields (fun child => tree.child? id kind = .ok (some child)) (requiredChild tree id kind) := by
  unfold requiredChild
  refine (Yields.guard _).bind fun answer known => ?_
  cases answer with
  | some child => exact .pure known
  | none => exact .malformed

/-- The parts of a settled type are settled. -/
theorem Ty.Settled.part? {base part : Ty} {isField : Bool} (settled : base.Settled)
    (known : base.part? isField = some part) : part.Settled := by
  unfold Ty.part? at known
  split at known
  · split at known <;> cases known
    exact settled
  · cases known
    exact settled.2
  · cases known
    exact True.intro
  · cases known
    exact True.intro
  · cases known

namespace Typing

theorem textOf_yields (name : Name) : Yields (fun _ => True) (textOf name) := by
  intro names
  show (Attempt.guard (names.text name) : Typing String).Ensures names _ _
  cases names.text name with
  | ok text => exact ⟨.refl names, trivial⟩
  | error fault => exact ⟨NameTable.Grows.refl names, trivial⟩

theorem unresolved_yields {α : Type} {name : Name} :
    Yields (fun _ => False) (unresolved view scope name id : Typing α) := by
  unfold unresolved
  refine (Yields.guard _).bind fun visible _ => ?_
  refine (textOf_yields name).bind fun text _ => ?_
  exact (Yields.mapM fun other _ => textOf_yields other).bind fun candidates _ => .report rfl

theorem fragment_yields {base : Ty} (settled : base.Settled)
    (keys : ∀ key, Yields Ty.Settled (typeOf key)) :
    Yields Ty.Settled (fragment view typeOf base id) := by
  unfold fragment
  refine View.firstChild_yields.bind fun key _ => ?_
  refine View.node_yields.bind fun node _ => ?_
  by_cases field : node.kind = .name
  · simp only [field, decide_true, if_true]
    cases known : base.part? true with
    | none => exact .report rfl
    | some part => exact .pure (settled.part? known)
  · simp only [field, decide_false, if_false]
    refine (keys key).discard.bind fun _ _ => ?_
    cases known : base.part? false with
    | none => exact .report rfl
    | some part => exact .pure (settled.part? known)

/-- A path whose variable is not bound and that has no fragments, so that nothing is known
of it. -/
def Missing (view : View) (scope : ScopeId) (id : NodeId) (symbol : Symbol) (names : NameTable) :
    Prop :=
  symbol.ty = .absent ∧ view.scopes.lookup scope symbol.name = .ok none ∧
    (view.tree.childrenOfKind id .pathFragment).first? = .ok none ∧
    ∃ head node, view.tree.child? id .name = .ok (some head) ∧ view.tree.node head = .ok node ∧
      names.text? symbol.name = some node.text

/-- A path leads to a settled type, or is missing if it may be. -/
theorem pathWith_yields (settled : view.scopes.Settled)
    (keys : ∀ key, Yields Ty.Settled (typeOf key)) (mustExist : Bool) (names : NameTable) :
    YieldsFrom names (fun symbol after =>
      symbol.ty.Settled ∨ (mustExist = false ∧ Missing view scope id symbol after))
      (pathWith view scope typeOf id mustExist) := by
  unfold pathWith
  refine YieldsFrom.bind (Attempt.requiredChild_yields names) fun head _ required => ?_
  refine YieldsFrom.bind (View.node_yields _) fun node before held => ?_
  have named : YieldsFrom before (fun name after => after.text? name = some node.text)
      (intern node.text) :=
    ⟨NameTable.grows_intern before node.text, NameTable.text?_intern before node.text⟩
  refine named.bind fun name after known => ?_
  cases answer : view.scopes.lookup scope name with
  | error fault => exact ⟨NameTable.Grows.refl after, trivial⟩
  | ok bound =>
    simp only [Attempt.guard, pure_bind]
    cases bound with
    | some symbol =>
      have parts : ∀ base, base.Settled → ∀ part, Yields Ty.Settled (fragment view typeOf base part) :=
        fun base holds part => fragment_yields holds keys
      refine (Yields.foldM_walk (settled.lookup answer) parts after).bind fun ty later holds => ?_
      exact Yields.pure (.inl holds) later
    | none =>
      have fails : ∀ head, YieldsFrom after (fun symbol later => symbol.ty.Settled ∨
          (mustExist = false ∧ Missing view scope id symbol later))
          (unresolved view scope name head) :=
        fun head => (unresolved_yields after).weaken fun _ _ impossible => impossible.elim
      by_cases must : mustExist = true
      · rw [if_pos must]
        exact fails head
      · rw [if_neg must]
        cases first : (view.tree.childrenOfKind id .pathFragment).first? with
        | error fault => exact ⟨NameTable.Grows.refl after, trivial⟩
        | ok part =>
          simp only [pure_bind]
          cases part with
          | some part => exact fails head
          | none =>
            exact Attempt.ensures_pure ⟨.refl after, .inr ⟨Bool.eq_false_iff.2 must, rfl, answer,
              first, head, node, required, held, known⟩⟩

theorem entry_yields (parts : ∀ part, Yields Ty.Settled (typeOf part)) :
    Yields (fun pair => pair.1.Settled ∧ pair.2.Settled) (entry view typeOf id) := by
  unfold entry
  refine View.twoChildren_yields.bind fun pair _ => ?_
  refine (parts pair.1).bind fun key keySettled => ?_
  exact (parts pair.2).bind fun value valueSettled => .pure ⟨keySettled, valueSettled⟩

theorem binary_yields {symbol : String} (parts : ∀ part, Yields Ty.Settled (typeOf part)) :
    Yields Ty.Settled (binary view typeOf id symbol) := by
  unfold binary
  cases BinaryOp.ofSymbol? symbol with
  | none => exact .report rfl
  | some op =>
    refine View.twoChildren_yields.bind fun pair _ => ?_
    refine (parts pair.1).bind fun left leftSettled => ?_
    refine (parts pair.2).bind fun right rightSettled => ?_
    cases known : op.resultType left right with
    | none => exact .report rfl
    | some ty => exact .pure (BinaryOp.settled_resultType leftSettled rightSettled known)

theorem unary_yields {symbol : String} (parts : ∀ part, Yields Ty.Settled (typeOf part)) :
    Yields Ty.Settled (unary view typeOf id symbol) := by
  unfold unary
  cases UnaryOp.ofSymbol? symbol with
  | none => exact .report rfl
  | some op =>
    refine View.firstChild_yields.bind fun child _ => ?_
    refine (parts child).bind fun operand _ => ?_
    cases known : op.resultType operand with
    | none => exact .report rfl
    | some ty => exact .pure (UnaryOp.settled_resultType known)

theorem expressionWith_yields (settled : view.scopes.Settled)
    (parts : ∀ part, Yields Ty.Settled (typeOf part)) :
    Yields Ty.Settled (expressionWith view scope typeOf id) := by
  unfold expressionWith
  refine View.node_yields.bind fun node _ => ?_
  cases node.kind with
  | baseExpression | expression => exact View.firstChild_yields.bind fun child _ => parts child
  | number =>
    dsimp only
    split
    · exact .pure True.intro
    · exact .pure True.intro
  | string | boolean | time | regexp | void => exact .pure True.intro
  | list =>
    refine (Yields.mapM fun item _ => parts item).bind fun types all => ?_
    exact .pure (Ty.settled_joinAll all)
  | map =>
    refine (Yields.mapM_walk fun item _ => entry_yields parts).bind fun entries all => ?_
    refine .pure ⟨Ty.settled_joinAll ?_, Ty.settled_joinAll ?_⟩
    · exact List.forall_mem_map.2 fun pair member => (all pair member).1
    · exact List.forall_mem_map.2 fun pair member => (all pair member).2
  | path =>
    intro names
    refine (pathWith_yields settled parts true names).bind fun symbol after leads => ?_
    exact Yields.pure (leads.resolve_right fun missing => Bool.false_ne_true missing.1.symm) after
  | binaryExpression => exact binary_yields parts
  | unaryExpression => exact unary_yields parts
  | _ => exact .report rfl

theorem expressionWithin_yields (settled : view.scopes.Settled) {depth : Nat} :
    Yields Ty.Settled (expressionWithin view scope depth id) := by
  induction depth generalizing id with
  | zero => exact .fault _
  | succ depth step => exact expressionWith_yields settled fun _ => step

/-- An expression has a settled type. -/
theorem expression_yields (settled : view.scopes.Settled) :
    Yields Ty.Settled (expression view scope id) := expressionWithin_yields settled

theorem path_yields (settled : view.scopes.Settled) (mustExist : Bool) (names : NameTable) :
    YieldsFrom names (fun symbol after =>
      symbol.ty.Settled ∨ (mustExist = false ∧ Missing view scope id symbol after))
      (path view scope id mustExist) :=
  pathWith_yields settled (fun _ => expression_yields settled) mustExist names

theorem declaredWithin_yields {depth : Nat} :
    Yields Ty.Settled (declaredWithin view depth id) := by
  induction depth generalizing id with
  | zero => exact .fault _
  | succ depth step =>
    show Yields _ (declaredWith view (declaredWithin view depth) id)
    unfold declaredWith
    refine (Yields.mapM_walk fun arg _ => step).bind fun args all => ?_
    refine View.node_yields.bind fun node _ => ?_
    dsimp only
    cases known : Ty.ofSignature? node.text args with
    | none => exact .report rfl
    | some ty => exact .pure (Ty.settled_ofSignature? all known)

/-- A written type is settled. -/
theorem declared_yields : Yields Ty.Settled (declared view id) := declaredWithin_yields

theorem returned_yields (settled : view.scopes.Settled) (site : NodeId × ScopeId) :
    Yields (fun _ => True) (returned view site) := by
  unfold returned
  refine (Yields.guard _).bind fun answer _ => ?_
  cases answer with
  | some value => exact (expression_yields settled).weaken fun _ _ => trivial
  | none => exact .pure trivial

theorem checkReturn_yields (settled : view.scopes.Settled) {site : NodeId × ScopeId} {ty : Ty} :
    Yields (fun _ => True) (checkReturn view ty site) := by
  unfold checkReturn
  refine (returned_yields settled site).bind fun found _ => ?_
  split
  · exact .pure trivial
  · exact .report rfl

theorem checkReturns_yields (settled : view.scopes.Settled) {body : NodeId} {ty : Ty} :
    Yields (fun _ => True) (checkReturns view body scope ty) :=
  .forEach_walk fun _ => checkReturn_yields settled

end Typing
end ScopeTyping
