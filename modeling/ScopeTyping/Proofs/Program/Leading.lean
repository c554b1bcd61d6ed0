import ScopeTyping.Proofs.Pass.Persistence
import ScopeTyping.Proofs.Program.Typed

/-! Typing an expression resolves every variable in it. A reading of types that comes to an end
has read all the paths at and below the node where its expression stands, so each of these leads
to a symbol, in the same scope and with names that were known by then
(`Typing.expression_leads`). What leads to a symbol at one moment of a run still does at every
later one (`Chronicle.leads_persists`). -/
namespace ScopeTyping

/-! ### Paths that lead to symbols -/

/-- A path leads to a symbol, once some of the names handed out since `start` are known. -/
def Leads (view : View) (scope : ScopeId) (start : NameTable) (path : NodeId) : Prop :=
  ∃ known symbol after, start.Grows known ∧
    (Typing.path view scope path true).outcome known = (.ok symbol, after)

/-- Every path at or below a node leads to a symbol. -/
def LeadsAll (view : View) (scope : ScopeId) (start : NameTable) (id : NodeId) : Prop :=
  ∀ path, view.tree.Under path id → view.tree.kind path = .ok .path → Leads view scope start path

variable {view : View} {scope : ScopeId} {start : NameTable} {id : NodeId} {kind : Kind}
  {text : String} {children : List NodeId}

/-- The paths at and below a node are the node itself, if it is one, and those at and below its
children. -/
theorem LeadsAll.node (shows : Shows view.tree.nodes id kind text children)
    (here : kind = .path → Leads view scope start id)
    (each : ∀ child ∈ children, LeadsAll view scope start child) : LeadsAll view scope start id := by
  intro path under isPath
  rcases shows.under_cases under with rfl | ⟨child, member, further⟩
  · cases shows.kind.symm.trans isPath
    exact here rfl
  · exact each child member path further isPath

theorem LeadsAll.name {name : String} (named : NameAt view.tree.nodes name id) :
    LeadsAll view scope start id := .node named (by simp) (by simp)

/-! ### Readings that vouch -/

/-- A reading that comes to an end vouches for something, and keeps the names known before. -/
def Vouches {α : Type} (start : NameTable) (reading : TypeReading α) (holds : Prop) : Prop :=
  ∀ names value after, start.Grows names → reading.outcome names = (.ok value, after) →
    start.Grows after ∧ holds

namespace Vouches

variable {α β : Type} {reading : TypeReading α} {holds other : Prop}

theorem pure (value : α) : Vouches start (Pure.pure value) True := by
  intro names found after grown ran
  cases ran
  exact ⟨grown, trivial⟩

/-- A reading that never ends vouches for anything. -/
theorem throw (refusal : Refusal) : Vouches start (throw refusal : TypeReading α) holds := by
  intro names found after grown ran
  cases ran

theorem bind {next : α → TypeReading β} (first : Vouches start reading holds)
    (second : ∀ value, Vouches start (next value) other) :
    Vouches start (reading >>= next) (holds ∧ other) := by
  intro names found after grown ran
  rw [Fallible.outcome_bind] at ran
  cases here : reading.outcome names with
  | mk outcome between =>
    rw [here] at ran
    cases outcome with
    | error refusal => cases ran
    | ok value =>
      obtain ⟨grownBetween, holds⟩ := first names value between grown here
      obtain ⟨grownAfter, others⟩ := second value between found after grownBetween ran
      exact ⟨grownAfter, holds, others⟩

theorem weaken {weaker : Prop} (vouches : Vouches start reading holds) (follows : holds → weaker) :
    Vouches start reading weaker := by
  intro names found after grown ran
  obtain ⟨grownAfter, holds⟩ := vouches names found after grown ran
  exact ⟨grownAfter, follows holds⟩

/-- What follows a reading vouches for, though the reading itself may vouch for nothing. -/
theorem after {next : α → TypeReading β} (first : Vouches start reading True)
    (second : ∀ value, Vouches start (next value) other) :
    Vouches start (reading >>= next) other := (first.bind second).weaken And.right

/-- A reading vouches for what it does before its answer is put together. -/
theorem before {next : α → TypeReading β} (first : Vouches start reading holds)
    (second : ∀ value, Vouches start (next value) True) :
    Vouches start (reading >>= next) holds := (first.bind second).weaken And.left

theorem intern (text : String) : Vouches start (TypeReading.intern text) True := by
  intro names found after grown ran
  cases ran
  exact ⟨grown.trans (names.grows_intern text), trivial⟩

theorem guard (answer : Except Fault α) : Vouches start (Reading.guard answer) True := by
  cases answer with
  | ok value => exact pure value
  | error fault => exact throw _

theorem textOf (name : Name) : Vouches start (TypeReading.textOf name) True := by
  intro names
  exact guard (names.text name) names

theorem part (isField : Bool) (base : Ty) : Vouches start (TypeReading.part isField base) True := by
  unfold TypeReading.part
  cases base.part? isField with
  | some part => exact pure part
  | none => exact throw _

theorem mapM {ι : Type} {items : List ι} {each : ι → TypeReading α}
    (vouches : ∀ item, Vouches start (each item) True) : Vouches start (items.mapM each) True := by
  induction items with
  | nil => exact pure []
  | cons item rest step =>
    rw [List.mapM_cons]
    exact (vouches item).after fun value => step.after fun values => pure (value :: values)

/-- A name that no scope binds is never read to an end. -/
theorem unresolved {scopes : Forest} {name : Name} :
    Vouches start (TypeReading.unresolved scopes scope name : TypeReading α) holds :=
  (guard _).after fun _ => (textOf name).after fun _ => (mapM textOf).after fun _ => throw _

end Vouches

/-! ### Expressions -/

/-- Reading the type of an expression vouches for the paths at and below a node. -/
def VouchesAt (view : View) (scope : ScopeId) (start : NameTable) (expr : Expr) (id : NodeId) :
    Prop := Vouches start (expr.type view.scopes scope) (LeadsAll view scope start id)

namespace Vouches

variable {α : Type} {holds other : Prop}

/-- A step of a path vouches for the paths in it. -/
theorem key {key : Key Expr} (base : Ty)
    (stands : KeyAt view.tree.nodes (VouchesAt view scope start) key id) :
    Vouches start (key.reach view.scopes scope base) (LeadsAll view scope start id) := by
  cases stands with
  | field shows named =>
    have leads : LeadsAll view scope start id := .node shows (by simp) (by simpa using .name named)
    exact (part true base).weaken fun _ => leads
  | index shows inner =>
    simp only [Key.reach, TypeReading.item, discard_eq_bind, bind_assoc, pure_bind]
    refine (inner.before fun _ => part false base).weaken fun leads => ?_
    exact .node shows (by simp) (by simpa using leads)

theorem keys {keys : List (Key Expr)} {ids : List NodeId} (base : Ty)
    (inner : List.Forall₂ (KeyAt view.tree.nodes (VouchesAt view scope start)) keys ids) :
    Vouches start (Expr.follow view.scopes scope base keys)
      (∀ id ∈ ids, LeadsAll view scope start id) := by
  induction inner generalizing base with
  | nil => exact (pure base).weaken (by simp)
  | cons first _ step =>
    rw [Expr.follow_cons]
    exact ((key base first).bind step).weaken List.forall_mem_cons.2

/-- The symbol of a path vouches for what is read from the variable on. -/
theorem symbol {scopes : Forest} {head : String} {follow : Ty → TypeReading Ty}
    {unbound : Name → TypeReading Symbol} (follows : ∀ base, Vouches start (follow base) holds)
    (without : ∀ name, Vouches start (unbound name) holds) :
    Vouches start (TypeReading.symbol scopes scope head follow unbound) holds := by
  refine (intern head).after fun name => (guard _).after fun found => ?_
  cases found with
  | some symbol => exact (follows symbol.ty).before fun _ => .pure _
  | none => exact without name

theorem types {items : List Expr} {ids : List NodeId}
    (inner : List.Forall₂ (VouchesAt view scope start) items ids) :
    Vouches start (Expr.types view.scopes scope items)
      (∀ id ∈ ids, LeadsAll view scope start id) := by
  induction inner with
  | nil => exact (pure []).weaken (by simp)
  | cons first _ step =>
    have both := first.bind fun ty => step.before fun types => pure (ty :: types)
    exact both.weaken List.forall_mem_cons.2

theorem entryTypes {entries : List (Expr × Expr)} {ids : List NodeId}
    (inner : List.Forall₂ (EntryAt view.tree.nodes (VouchesAt view scope start)) entries ids) :
    Vouches start (Expr.entryTypes view.scopes scope entries)
      (∀ id ∈ ids, LeadsAll view scope start id) := by
  induction inner with
  | nil => exact (pure []).weaken (by simp)
  | cons first _ step =>
    obtain ⟨shows, left, right⟩ := first
    have all := left.bind fun key => right.bind fun value => step.before fun types =>
      pure ((key, value) :: types)
    refine all.weaken ?_
    rintro ⟨key, value, others⟩
    exact List.forall_mem_cons.2 ⟨.node shows (by simp) (by simpa using ⟨key, value⟩), others⟩

theorem binary {op : String} {left right : TypeReading Ty}
    (first : Vouches start left holds) (second : Vouches start right other) :
    Vouches start (TypeReading.binary op left right) (holds ∧ other) := by
  unfold TypeReading.binary
  cases BinaryOp.ofSymbol? op with
  | none => exact throw _
  | some known =>
    refine first.bind fun one => second.before fun two => ?_
    cases known.resultType one two with
    | some ty => exact pure ty
    | none => exact throw _

theorem unary {op : String} {operand : TypeReading Ty} (inner : Vouches start operand holds) :
    Vouches start (TypeReading.unary op operand) holds := by
  unfold TypeReading.unary
  cases UnaryOp.ofSymbol? op with
  | none => exact throw _
  | some known =>
    refine inner.before fun ty => ?_
    cases known.resultType ty with
    | some ty => exact pure ty
    | none => exact throw _

end Vouches

namespace Typing

/-- A reading comes to an end when typing does. -/
theorem Agrees.outcome_ok_iff {α : Type} {typing : Typing α} {reading : TypeReading α}
    (agrees : Agrees typing reading) {names after : NameTable} {value : α} :
    typing.outcome names = (.ok value, after) ↔ reading.outcome names = (.ok value, after) := by
  rcases (agrees names).strict_cases with ⟨found, twin, now, since, ran, twinRan, rfl, rfl⟩ |
    ⟨failure, refusal, _, _, ran, twinRan, _⟩
  · rw [ran, twinRan]
    simp
  · rw [ran, twinRan]
    simp

/-- A path whose type was read leads to the symbol that it was read from. -/
theorem leads_of_type (sound : view.tree.Sound) {head : String} {keys : List (Key Expr)}
    (stands : ExprAt view.tree.nodes (.path head keys) id) {names after : NameTable} {ty : Ty}
    (grown : start.Grows names)
    (ran : ((Expr.path head keys).type view.scopes scope).outcome names = (.ok ty, after)) :
    Leads view scope start id := by
  rw [Expr.type, Fallible.outcome_bind] at ran
  have agrees : Agrees (path view scope id true) (TypeReading.symbol view.scopes scope head
      (fun ty => Expr.follow view.scopes scope ty keys) (TypeReading.unresolved view.scopes scope)) :=
    (path_agrees view sound stands true).congr (by simp)
  cases read : (TypeReading.symbol view.scopes scope head
      (fun ty => Expr.follow view.scopes scope ty keys)
      (TypeReading.unresolved view.scopes scope)).outcome names with
  | mk outcome between =>
    rw [read] at ran
    cases outcome with
    | error refusal => cases ran
    | ok symbol => exact ⟨names, symbol, between, grown, agrees.outcome_ok_iff.2 read⟩

/-- Reading the type of an expression vouches for all the paths in it. -/
theorem type_vouches (sound : view.tree.Sound) {expr : Expr}
    (stands : ExprAt view.tree.nodes expr id) : VouchesAt view scope start expr id := by
  induction stands using ExprAt.induct with
  | @literal id kind text shows leaf =>
    refine (Vouches.pure _).weaken fun _ => .node shows ?_ (by simp)
    rintro rfl
    cases leaf
  | wrapped shows _ step =>
    exact step.weaken fun leads => .node shows (by simp) (by simpa using leads)
  | list shows _ steps =>
    have inner := Vouches.types (steps.imp fun _ _ ⟨_, vouches⟩ => vouches)
    exact (inner.before fun _ => .pure _).weaken (.node shows (by simp))
  | map shows _ steps =>
    have inner := Vouches.entryTypes (steps.imp fun _ _ entry =>
      entry.imp fun _ _ ⟨_, vouches⟩ => vouches)
    exact (inner.before fun _ => .pure _).weaken (.node shows (by simp))
  | @path id name ids head keys shows named inner steps =>
    have vouches : Vouches start ((Expr.path head keys).type view.scopes scope)
        (∀ id ∈ ids, LeadsAll view scope start id) :=
      (Vouches.symbol (fun base => .keys base (steps.imp fun _ _ key =>
        key.imp fun _ _ ⟨_, vouches⟩ => vouches)) fun _ => .unresolved).before fun _ => .pure _
    -- The steps are vouched for as they are read; that the path leads somewhere takes the whole
    -- reading.
    intro names ty after grown ran
    obtain ⟨grownAfter, leads⟩ := vouches names ty after grown ran
    refine ⟨grownAfter, .node shows (fun _ => ?_) (List.forall_mem_cons.2 ⟨.name named, leads⟩)⟩
    exact leads_of_type sound (.path shows named inner) grown ran
  | binary shows _ _ first second =>
    exact (Vouches.binary first second).weaken fun leads => .node shows (by simp) (by simpa using leads)
  | unary shows _ step =>
    exact (Vouches.unary step).weaken fun leads => .node shows (by simp) (by simpa using leads)

/-- Every path in an expression that was typed leads to a symbol. -/
theorem expression_leads (sound : view.tree.Sound) {expr : Expr}
    (stands : ExprAt view.tree.nodes expr id) {names after : NameTable} {ty : Ty}
    (grown : start.Grows names)
    (typed : (expression view scope id).outcome names = (.ok ty, after)) :
    LeadsAll view scope start id := by
  have read := (expression_agrees view sound stands).outcome_ok_iff.1 typed
  exact (type_vouches sound stands names ty after grown read).2

/-- Every path in an index of a target leads to a symbol, even if the target need not exist. -/
theorem target_leads (sound : view.tree.Sound) {head : String} {keys : List (Key Expr)}
    {name : NodeId} {ids : List NodeId} (shows : Shows view.tree.nodes id .path "" (name :: ids))
    (named : NameAt view.tree.nodes head name)
    (inner : List.Forall₂ (KeyAt view.tree.nodes (ExprAt view.tree.nodes)) keys ids)
    {names after : NameTable} {symbol : Symbol} (grown : start.Grows names)
    (led : (path view scope id false).outcome names = (.ok symbol, after)) :
    ∀ child ∈ ids, LeadsAll view scope start child := by
  have steps : List.Forall₂ (KeyAt view.tree.nodes (VouchesAt view scope start)) keys ids :=
    inner.imp fun _ _ key => key.imp fun _ _ stands => type_vouches sound stands
  have vouches : Vouches start (Expr.target view.scopes scope head keys)
      (∀ child ∈ ids, LeadsAll view scope start child) := by
    refine Vouches.symbol (fun base => .keys base steps) fun found => ?_
    cases inner with
    | nil => exact (Vouches.pure _).weaken (by simp)
    | cons _ _ => exact .unresolved
  have read := (target_agrees view sound (.path shows named inner)).outcome_ok_iff.1 led
  exact (vouches names symbol after grown read).2

end Typing

/-! ### Moments of a run -/

/-- A path that leads to a symbol at one moment of a run still leads to one later. -/
theorem Chronicle.leads_persists {tree : Tree} {names : NameTable} {earlier later : List Moment}
    (chronicle : Chronicle tree.resolver names later) (grown : earlier <:+ later)
    (ready : Ready earlier scope) (sound : tree.Sound) (inside : id.index < tree.size)
    (leads : Leads ((latest names earlier).view tree) scope (latest names earlier).names id) :
    ∃ symbol after, (Typing.path ((latest names later).view tree) scope id true).outcome
      (latest names later).names = (.ok symbol, after) := by
  obtain ⟨known, symbol, after, since, led⟩ := leads
  obtain ⟨target, final, ran, _⟩ := chronicle.path_persists grown ready sound inside since led
  exact ⟨target, final, ran⟩

end ScopeTyping
