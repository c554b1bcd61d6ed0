import ScopeTyping.Proofs.Pass.Course
import ScopeTyping.Proofs.Scope.Keeping

/-! What a visit that succeeds leaves alone. It binds names in the scope that it was given and
in scopes that it opens, and nowhere else; and a node that opens a scope binds nothing in the
one that it was given. Scopes keep their places, and nodes keep the scopes that they have. -/
namespace ScopeTyping

/-- The kind of the scope that a kind of node opens. -/
def Kind.scopeKind? : Kind → Option ScopeKind
  | .start => some .root
  | .nestedBlock => some .block
  | .foreachBlock => some .loop
  | .functionBlock => some .function
  | _ => none

/-- What is around a scope of a kind that was opened where another one was in force. -/
def ScopeKind.around : ScopeKind → ScopeId → Option ScopeId
  | .block, scope | .loop, scope => some scope
  | .root, _ | .function, _ => none

/-- The nodes whose kinds open a scope. -/
def Tree.OpensScope (tree : Tree) (id : NodeId) : Prop :=
  ∃ kind, tree.kind id = .ok kind ∧ kind.opensScope = true

variable {resolver : Resolver} {id : NodeId} {scope inner : ScopeId} {kind : Kind}
  {touched wider : ScopeId → Prop}

/-! ### What changes from one moment to another -/

/-- Scopes are kept, but for the tables of some, and so are the scopes of nodes. -/
structure Framed (touched : ScopeId → Prop) (before after : Snapshot) : Prop where
  scopes : before.scopes.KeptBut touched after.scopes
  annotations : ∀ id scope, before.annotations.get? id = some scope →
    after.annotations.get? id = some scope

/-- No scope was opened and none attached, and names were bound in some scopes only. -/
structure Refills (touched : ScopeId → Prop) (before after : Snapshot) : Prop where
  size : after.scopes.size = before.scopes.size
  annotations : after.annotations = before.annotations
  scopes : before.scopes.KeptBut touched after.scopes

/-- One scope was opened and attached to a node, and names were bound in it. -/
structure Furnishes (id : NodeId) (parent : Option ScopeId) (kind : ScopeKind)
    (before after : Snapshot) : Prop where
  size : after.scopes.size = before.scopes.size + 1
  attached : before.annotations.attach? id ⟨before.scopes.size⟩ = some after.annotations
  scopes : (before.scopes.create parent kind).2.KeptBut (· = ⟨before.scopes.size⟩) after.scopes

section Snapshots
variable {before between after : Snapshot}

theorem Framed.trans (first : Framed touched before between) (second : Framed touched between after) :
    Framed touched before after :=
  ⟨first.scopes.trans second.scopes,
    fun id scope held => second.annotations id scope (first.annotations id scope held)⟩

theorem Framed.narrow (framed : Framed wider before after)
    (only : ∀ id, id.index < before.scopes.size → wider id → touched id) :
    Framed touched before after :=
  ⟨framed.scopes.narrow only, framed.annotations⟩

theorem Refills.refl (touched : ScopeId → Prop) (here : Snapshot) : Refills touched here here :=
  ⟨rfl, rfl, .refl _ _⟩

theorem Refills.trans (first : Refills touched before between)
    (second : Refills touched between after) : Refills touched before after :=
  ⟨second.size.trans first.size, second.annotations.trans first.annotations,
    first.scopes.trans second.scopes⟩

theorem Refills.framed (refills : Refills touched before after) : Framed touched before after :=
  ⟨refills.scopes, fun _ _ held => by rw [refills.annotations]; exact held⟩

/-- The scope that was opened is there, where it was opened and of its kind. -/
theorem Furnishes.scope_exists {parent : Option ScopeId} {kind : ScopeKind}
    (furnishes : Furnishes id parent kind before after) :
    ∃ found, after.scopes.scope ⟨before.scopes.size⟩ = .ok found ∧ found.kind = kind ∧
      found.parent = parent := by
  obtain ⟨found, held, sameParent, sameKind, _⟩ :=
    furnishes.scopes _ _ (Forest.scope_create before.scopes parent kind)
  exact ⟨found, held, sameKind, sameParent⟩

theorem Furnishes.get?_self {parent : Option ScopeId} {kind : ScopeKind}
    (furnishes : Furnishes id parent kind before after) :
    after.annotations.get? id = some ⟨before.scopes.size⟩ := by
  rw [Annotations.get?_attach? furnishes.attached, if_pos rfl]

theorem Annotations.free_of_attach? {annotations after : Annotations}
    (done : annotations.attach? id scope = some after) : annotations.get? id = none := by
  unfold attach? at done
  split at done
  · cases done
  · assumption

theorem Furnishes.framed {parent : Option ScopeId} {kind : ScopeKind}
    (furnishes : Furnishes id parent kind before after) :
    Framed (· = ⟨before.scopes.size⟩) before after := by
  refine ⟨(Forest.KeptBut.create _ parent kind).trans furnishes.scopes, fun other scope held => ?_⟩
  rw [Annotations.get?_attach? furnishes.attached, if_neg]
  · exact held
  · rintro rfl
    cases held.symm.trans (Annotations.free_of_attach? furnishes.attached)

end Snapshots

/-! ### What single steps change -/

section Steps
variable {before between after : Progress}

theorem Progress.Asks.refills {call : Call} {answer : Answer}
    (asks : before.Asks resolver call answer after) : Refills touched before.known after.known := by
  cases asks with
  | done given => exact ⟨rfl, rfl, .refl _ _⟩

theorem Progress.readying_refills (before : Progress) (scope : ScopeId) :
    Refills touched before.known (before.readying scope).known := .refl _ _

theorem Progress.Binds.refills {tree : Tree} {ty : Ty} (binds : before.Binds tree scope id ty after) :
    Refills (· = scope) before.known after.known := by
  cases binds with
  | done held inserted => exact ⟨Forest.size_insert inserted, rfl, .insert inserted⟩

theorem Resolver.BindsParameter.refills
    (binds : resolver.BindsParameter scope id before after) :
    Refills (· = scope) before.known after.known := by
  cases binds with
  | done _ _ asks binds => exact asks.refills.trans binds.refills

theorem Along.refills {α : Type} {step : α → Progress → Progress → Prop} {items : List α}
    (along : Along step items before after)
    (each : ∀ item here later, step item here later → Refills touched here.known later.known) :
    Refills touched before.known after.known := by
  induction along with
  | done => exact .refl _ _
  | next first _ others => exact (each _ _ _ first).trans others

/-- A scope is opened, and names are bound in it before it is attached and after. -/
theorem furnishes_of_attaches {bound attached : Progress} {parent : Option ScopeId}
    {kind : ScopeKind}
    (header : Refills (· = before.next) (before.opening parent kind).known bound.known)
    (attaches : bound.Attaches id before.next attached)
    (rest : Refills (· = before.next) attached.known after.known) :
    Furnishes id parent kind before.known after.known := by
  cases attaches with
  | done done =>
    have opened : (before.opening parent kind).known.scopes.size = before.known.scopes.size + 1 :=
      Forest.size_create _ _ _
    exact {
      size := (rest.size.trans header.size).trans opened
      attached := by
        rw [rest.annotations]
        rw [header.annotations] at done
        exact done
      scopes := header.scopes.trans rest.scopes }

theorem Resolver.Weighs.refills {path : NodeId} {target ty : Ty}
    (weighs : resolver.Weighs id scope path target ty before after) :
    Refills touched before.known after.known := by
  obtain ⟨_, _, _, _, _, asks, typed⟩ := weighs.typed
  exact asks.refills.trans typed.refills

/-- A node that opens no scope hands on the one that it was given, in which alone it binds. -/
theorem Resolver.Enters.shares (enters : resolver.Enters id scope before kind inner after)
    (shares : kind.opensScope = false) :
    inner = scope ∧ Refills (· = scope) before.known after.known := by
  cases enters with
  | straight _ => exact ⟨rfl, .refl _ _⟩
  | condition _ _ _ asks => exact ⟨rfl, asks.refills⟩
  | accepted weighs _ _ => exact ⟨rfl, weighs.refills⟩
  | introduced weighs _ _ binds => exact ⟨rfl, weighs.refills.trans binds.refills⟩
  | story _ | block _ | loop _ _ _ _ _ _ | function _ _ _ _ _ => cases shares

/-- A node that opens a scope hands on the next one, which is its own from then on. -/
theorem Resolver.Enters.opens (enters : resolver.Enters id scope before kind inner after)
    (opens : kind.opensScope = true) : inner = before.next ∧ ∃ opened, kind.scopeKind? = some opened ∧
      Furnishes id (opened.around scope) opened before.known after.known := by
  cases enters with
  | straight straight => cases (Kind.straight_of_opensScope opens).symm.trans straight
  | condition branch _ _ _ => cases (Kind.conditionHeader?_of_opensScope opens).symm.trans branch
  | accepted _ _ _ | introduced _ _ _ _ => cases opens
  | story attaches =>
    exact ⟨rfl, .root, rfl,
      furnishes_of_attaches (Progress.readying_refills _ _) attaches (.refl _ _)⟩
  | block attaches =>
    exact ⟨rfl, .block, rfl,
      furnishes_of_attaches (Progress.readying_refills _ _) attaches (.refl _ _)⟩
  | @loop header output attached asked bound attaches _ typed _ _ loopNames =>
    have loopVariables : Refills (· = before.next) asked.known bound.known :=
      loopNames.refills fun _ _ _ binds => binds.refills
    have header : Refills (· = before.next) attached.known asked.known := by
      rcases typed with ⟨_, rfl⟩ | ⟨_, _, _, asks⟩
      · exact .refl _ _
      · exact asks.refills
    exact ⟨rfl, .loop, rfl, furnishes_of_attaches (.refl _ _) attaches (header.trans loopVariables)⟩
  | @function header bound read after _ _ parameters declares attaches =>
    have signature : Refills (· = before.next) (before.opening none .function).known bound.known :=
      parameters.refills fun _ _ _ binds => binds.refills
    have returns : Refills (· = before.next) bound.known read.known := by
      rcases declares with ⟨_, rfl⟩ | ⟨_, _, _, _, _, asks⟩
      · exact .refl _ _
      · exact asks.refills
    exact ⟨rfl, .function, rfl,
      furnishes_of_attaches (signature.trans returns) attaches (.refl _ _)⟩

theorem Resolver.Leaves.refills (leaves : resolver.Leaves id inner before kind after) :
    Refills touched before.known after.known := by
  cases leaves with
  | silent _ => exact .refl _ _
  | checked _ asks => exact asks.refills

end Steps

/-! ### What a visit changes -/

/-- The scopes, of those that are there, in whose tables a task may bind names. -/
def Task.Touches (tree : Tree) : Task → ScopeId → Prop
  | .node id scope, other => other = scope ∧ ¬ tree.OpensScope id
  | .nodes _ scope, other => other = scope

theorem Course.framed {task : Task} {before after : Progress}
    (course : Course resolver task before after) :
    Framed (task.Touches resolver.tree) before.known after.known := by
  induction course with
  | done => exact (Refills.refl _ _).framed
  | @next id rest scope before between after _ _ first others =>
    have visit : Framed (· = scope) before.known between.known := first.narrow fun _ _ => And.left
    exact visit.trans others
  | @node id scope inner kind ids before entered swept after known enters all _ leaves below =>
    by_cases opens : kind.opensScope = true
    · -- All that is bound is bound in the new scope, which was not there before.
      obtain ⟨rfl, opened, _, furnishes⟩ := enters.opens opens
      have inside : Framed (· = before.next) before.known after.known :=
        (furnishes.framed.trans below).trans leaves.refills.framed
      refine inside.narrow fun other old new => ?_
      subst new
      exact absurd old (Nat.lt_irrefl _)
    · obtain ⟨rfl, refills⟩ := enters.shares (Bool.eq_false_iff.2 opens)
      have whole : Framed (· = inner) before.known after.known :=
        (refills.framed.trans below).trans leaves.refills.framed
      refine whole.narrow fun other _ here => ⟨here, ?_⟩
      rintro ⟨_, also, opensAlso⟩
      cases known.symm.trans also
      exact opens opensAlso

/-- A visit that succeeds, by whatever rules and from whatever state, keeps every scope with its
kind and the scope around it, and changes no table but that of the scope it was given. If the
node opens a scope, that one stays as it was too, and every scope shows what it showed. Nodes
keep their scopes. -/
theorem Resolver.visit_framed (resolver : Resolver) {id : NodeId} {scope : ScopeId}
    {before after : Progress} (ran : (resolver.visit id scope).outcome before = (.ok (), after)) :
    (∀ other found, before.known.scopes.scope other = .ok found →
      ∃ kept, after.known.scopes.scope other = .ok kept ∧ kept.parent = found.parent ∧
        kept.kind = found.kind ∧ (other ≠ scope → kept = found)) ∧
    (∀ kind, resolver.tree.kind id = .ok kind → kind.opensScope = true →
      (∀ other found, before.known.scopes.scope other = .ok found →
        after.known.scopes.scope other = .ok found) ∧
      ∀ other name answer, before.known.scopes.lookup other name = .ok answer →
        after.known.scopes.lookup other name = .ok answer) ∧
    ∀ node inner, before.known.annotations.get? node = some inner →
      after.known.annotations.get? node = some inner := by
  have framed : Framed (fun other => other = scope ∧ ¬ resolver.tree.OpensScope id) before.known
      after.known := (visit_takesCourse id scope before after ran).framed
  refine ⟨(framed.narrow fun _ _ => And.left).scopes, fun kind known opens => ?_,
    framed.annotations⟩
  have closed : Framed (fun _ => False) before.known after.known :=
    framed.narrow fun _ _ touched => touched.2 ⟨kind, known, opens⟩
  exact ⟨fun other found held => closed.scopes.untouched not_false held,
    fun other name answer seen => closed.scopes.lookup seen⟩

/-- A run inside a story that has bound `y` to a text. -/
def Progress.midway : Progress where
  known := {
    names := (NameTable.empty.intern "y").2
    scopes := ⟨[⟨none, .root, .ofList [(⟨0⟩, ⟨⟨0⟩, .string⟩)]⟩]⟩
    annotations := .empty }
  journal := []

/-- The function of the sample story binds a `y` of its own; in the story `y` stays a text. -/
theorem Tree.sample_framed : ∃ after,
    ((⟨Tree.sample, .standard⟩ : Resolver).visit ⟨19⟩ ⟨0⟩).outcome .midway = (.ok (), after) ∧
    (∀ other found, Progress.midway.known.scopes.scope other = .ok found →
      after.known.scopes.scope other = .ok found) ∧
    after.known.scopes.lookup ⟨0⟩ ⟨0⟩ = .ok (some ⟨⟨0⟩, .string⟩) := by
  obtain ⟨_, after, ran⟩ : ∃ done after, ((⟨Tree.sample, .standard⟩ : Resolver).visit ⟨19⟩
      ⟨0⟩).outcome .midway = (.ok done, after) := Fallible.outcome_of_isOk (by decide +kernel)
  obtain ⟨_, closed, _⟩ := Resolver.visit_framed ⟨Tree.sample, .standard⟩ ran
  obtain ⟨same, shown⟩ := closed .functionBlock rfl rfl
  exact ⟨after, ran, same, shown _ _ _ (by decide +kernel)⟩

end ScopeTyping
