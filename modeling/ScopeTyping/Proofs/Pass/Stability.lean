import ScopeTyping.Proofs.Pass.Handlers
import ScopeTyping.Proofs.Pass.Standard

/-! Stability of resolution. What a scope shows once its header is bound it shows to the end
of the run: an assignment binds only names that are not visible, a header binds names only
in a scope from which nothing has been looked up yet, and no scope is opened inside one
whose header is not bound. -/
namespace ScopeTyping

/-- A scope has grown from another one: nothing in its table has moved, and nothing has
changed but the types of parameters that were bound again. -/
structure Scope.Outgrows (rebound : Symbol → Prop) (found kept : Scope) : Prop where
  parent : kept.parent = found.parent
  kind : kept.kind = found.kind
  symbols : ∀ (place : Nat) (entry : Name × Symbol), found.symbols.entries[place]? = some entry →
    ∃ other : Name × Symbol, kept.symbols.entries[place]? = some other ∧
      (other = entry ∨ (found.kind = .function ∧ other.1 = entry.1 ∧ rebound other.2))

namespace Scope.Outgrows

variable {rebound more : Symbol → Prop} {found kept last : Scope}

theorem refl (found : Scope) : found.Outgrows rebound found :=
  ⟨rfl, rfl, fun _ entry held => ⟨entry, held, .inl rfl⟩⟩

theorem trans {again : Symbol → Prop} (first : found.Outgrows rebound kept)
    (second : kept.Outgrows again last) (before : ∀ symbol, rebound symbol → more symbol)
    (later : ∀ symbol, again symbol → more symbol) : found.Outgrows more last := by
  refine ⟨second.parent.trans first.parent, second.kind.trans first.kind, ?_⟩
  intro place entry held
  obtain ⟨other, there, change⟩ := first.symbols place entry held
  obtain ⟨final, atEnd, changeLater⟩ := second.symbols place other there
  refine ⟨final, atEnd, ?_⟩
  rcases changeLater with rfl | ⟨function, sameKey, bound⟩
  · rcases change with rfl | ⟨function, sameKey, bound⟩
    · exact .inl rfl
    · exact .inr ⟨function, sameKey, before _ bound⟩
  · rw [first.kind] at function
    rcases change with rfl | ⟨_, firstKey, _⟩
    · exact .inr ⟨function, sameKey, later _ bound⟩
    · exact .inr ⟨function, sameKey.trans firstKey, later _ bound⟩

/-- Without parameters that were bound again, the old table begins the new one. -/
theorem segment (outgrows : found.Outgrows rebound kept)
    (none : found.kind = .function → ∀ symbol, ¬ rebound symbol) :
    found.symbols.entries <+: kept.symbols.entries := by
  rw [List.prefix_iff_getElem?]
  intro place inside
  obtain ⟨other, there, change⟩ := outgrows.symbols place _ (List.getElem?_eq_getElem inside)
  rcases change with rfl | ⟨function, _, bound⟩
  · exact there
  · exact absurd bound (none function _)

end Scope.Outgrows

section Steps
variable {tree : Tree} {past : List Moment} {now after : Snapshot} {event : Event}
  {scope : ScopeId} {found : Scope} {names : NameTable}

/-- The scopes around a scope are ready, since it was opened inside them. -/
theorem Consistent.ready_of_mem {id : ScopeId} {chain : List (ScopeId × Scope)}
    (consistent : Consistent past now) (linked : Forest.Chain now.scopes id chain) :
    ∀ link ∈ chain, link.1 = id ∨ Ready past link.1 := by
  induction linked with
  | outermost held alone =>
    intro link member
    exact .inl (congrArg Prod.fst (List.mem_singleton.1 member))
  | inside held around before outer step =>
    intro link member
    rcases List.mem_cons.1 member with rfl | further
    · exact .inl rfl
    · right
      rcases step link further with same | ready
      · exact same ▸ consistent.around _ _ _ held around
      · exact ready

/-- A step leaves what a scope shows, unless it binds the scope's own header. -/
theorem Step.lookup_kept (step : Step tree.resolver past now event after)
    (consistent : Consistent past now) (lawful : Lawful names now)
    (header : ∀ symbol, event = .bound scope symbol → Ready past scope) {name : Name}
    {seen : Symbol} (before : now.scopes.lookup scope name = .ok (some seen)) :
    after.scopes.lookup scope name = .ok (some seen) := by
  have inside := Forest.lt_size_of_lookup before
  obtain ⟨chain, linked⟩ := consistent.nested.chain_exists inside
  cases step with
  | opened kind ready =>
    rw [← before, linked.lookup_eq]
    exact (linked.create _ kind).lookup_eq name
  | @bound target id ty node replaced scopes binder held done =>
    by_cases ready : Ready past target
    · have fresh := binder.fresh_of_ready ready lawful.settled held
      exact Forest.lookup_insert_of_fresh consistent.nested fresh done inside before
    · have off : ∀ link ∈ chain, link.1 ≠ target := by
        rintro link member rfl
        rcases consistent.ready_of_mem linked link member with same | known
        · subst same
          exact ready (header _ rfl)
        · exact ready known
      rw [← before]
      exact linked.lookup_insert_of_not_mem off done name
  | visited _ _ | attached _ _ _ _ | ready _ | answered _ | refused _ => exact before

/-- A step lets each scope grow. The type of a symbol changes only if the header of a
function binds a parameter once more. -/
theorem Step.outgrows (step : Step tree.resolver past now event after)
    (consistent : Consistent past now) (lawful : Lawful names now)
    (held : now.scopes.scope scope = .ok found) :
    ∃ kept, after.scopes.scope scope = .ok kept ∧
      found.Outgrows (fun symbol => event = .bound scope symbol ∧ ¬ Ready past scope) kept := by
  cases step with
  | opened kind ready => exact ⟨found, Forest.scope_create_of_ok held _ kind, .refl found⟩
  | @bound target id ty node replaced scopes binder nodeHeld done =>
    refine ⟨_, (Forest.scope_insert done).trans (congrArg (Except.map _) held), ?_⟩
    by_cases here : scope = target
    · subst here
      simp only [if_true]
      refine ⟨rfl, rfl, fun place entry there => ?_⟩
      rcases SymbolTable.getElem?_put there with same | ⟨sameKey, replacing⟩
      · exact ⟨entry, same, .inl rfl⟩
      · refine ⟨_, replacing, ?_⟩
        have member := List.mem_of_getElem? there
        by_cases ready : Ready past scope
        · have fresh := binder.fresh_of_ready ready lawful.settled nodeHeld
          have unbound := Forest.find?_of_lookup_none held fresh
          have apart := List.lookup_eq_none_iff.1 unbound entry member
          simp [sameKey] at apart
        · cases binder with
          | loopVariable there loop pending =>
            left
            rw [held, Except.ok.injEq] at there
            subst there
            have any := consistent.untracked scope found held loop pending entry member
            have key := consistent.keyed scope found held entry member
            obtain ⟨entryKey, entrySymbol⟩ := entry
            obtain ⟨entryName, entryTy⟩ := entrySymbol
            simp only at sameKey any key
            subst any key sameKey
            rfl
          | parameter there function pending declared =>
            rw [held, Except.ok.injEq] at there
            subst there
            exact .inr ⟨function, sameKey.symm, rfl, pending⟩
          | assigned known _ _ _ _ => exact absurd known ready
    · simp only [here, if_false]
      exact .refl found
  | visited _ _ | attached _ _ _ _ | ready _ | answered _ | refused _ => exact ⟨found, held, .refl found⟩

end Steps

/-- A loop variable or a parameter of a scope is bound between two moments of a run. -/
def HeaderBinding (earlier later : List Moment) (scope : ScopeId) (symbol : Symbol) : Prop :=
  ∃ past known, (⟨.bound scope symbol, known⟩ :: past) <:+ later ∧ earlier <:+ past ∧
    ¬ Ready past scope

/-- What is known at one moment of a run is still known at a later one. A type that was
known can change only if it is that of a parameter which is bound again. -/
structure Stable (names : NameTable) (earlier later : List Moment) : Prop where
  scopes : ∀ id found, (latest names earlier).scopes.scope id = .ok found →
    ∃ kept, (latest names later).scopes.scope id = .ok kept ∧
      found.Outgrows (HeaderBinding earlier later id) kept
  lookups : ∀ id, (∀ symbol, ¬ HeaderBinding earlier later id symbol) → ∀ name symbol,
    (latest names earlier).scopes.lookup id name = .ok (some symbol) →
      (latest names later).scopes.lookup id name = .ok (some symbol)

section Runs
variable {tree : Tree} {names : NameTable} {earlier later : List Moment} {moment : Moment}
  {scope : ScopeId} {symbol : Symbol}

theorem HeaderBinding.more (bound : HeaderBinding earlier later scope symbol) :
    HeaderBinding earlier (moment :: later) scope symbol := by
  obtain ⟨past, known, among, after, pending⟩ := bound
  exact ⟨past, known, among.trans (List.suffix_cons _ _), after, pending⟩

/-- The header of a scope that is ready binds nothing more. -/
theorem not_headerBinding_of_ready (ready : Ready earlier scope) :
    ¬ HeaderBinding earlier later scope symbol := by
  rintro ⟨past, known, among, after, pending⟩
  exact pending (ready.later after)

theorem Stable.step (stable : Stable names earlier later) (grown : earlier <:+ later)
    (chronicle : Chronicle tree.resolver names (moment :: later)) :
    Stable names earlier (moment :: later) := by
  have before : Chronicle tree.resolver names later := chronicle.before
  have step := chronicle.step_of_cons
  have header : ∀ {scope symbol}, moment.event = .bound scope symbol → ¬ Ready later scope →
      HeaderBinding earlier (moment :: later) scope symbol := by
    intro scope symbol same pending
    obtain ⟨event, known⟩ := moment
    subst same
    exact ⟨later, known, List.suffix_refl _, grown, pending⟩
  constructor
  · intro id found held
    obtain ⟨kept, there, outgrows⟩ := stable.scopes id found held
    obtain ⟨last, atEnd, grows⟩ := step.outgrows before.consistent before.lawful there
    exact ⟨last, atEnd, outgrows.trans grows (fun _ bound => bound.more)
      fun _ bound => header bound.1 bound.2⟩
  · intro id none name symbol seen
    have still := stable.lookups id (fun symbol bound => none symbol bound.more) name symbol seen
    refine step.lookup_kept before.consistent before.lawful (fun other same => ?_) still
    by_contra pending
    exact none other (header same pending)

/-- Between two moments of a run everything stays. -/
theorem Chronicle.stable (chronicle : Chronicle tree.resolver names later)
    (grown : earlier <:+ later) : Stable names earlier later := by
  obtain ⟨newer, rfl⟩ := grown
  induction newer with
  | nil => exact ⟨fun id found held => ⟨found, held, .refl found⟩, fun _ _ _ _ seen => seen⟩
  | cons moment rest step =>
    have before : Chronicle tree.resolver names (rest ++ earlier) :=
      chronicle.before
    exact (step before).step (List.suffix_append _ _) chronicle

end Runs

/-- The journal of the first so many moments of a run, the newest first. -/
def Run.upTo (run : Run) (count : Nat) : List Moment := (run.journal.take count).reverse

theorem Run.upTo_suffix (run : Run) (count : Nat) : run.upTo count <:+ run.history :=
  List.reverse_suffix.2 (List.take_prefix count run.journal)

theorem Run.upTo_add_suffix (run : Run) (count more : Nat) :
    run.upTo count <:+ run.upTo (count + more) :=
  List.reverse_suffix.2 (List.take_prefix_take_left (Nat.le_add_right count more))

/-- Resolution is stable during a run, be it one that succeeds or one that fails. Scopes keep
their places, kinds and parents. Tables keep what they hold, in order; only a parameter that
is repeated changes the type of its earlier occurrence. Whatever a scope shows once its
header is bound it shows for good. -/
theorem Tree.resolve_stable (tree : Tree) (names : NameTable) (count more : Nat) :
    Stable names ((tree.resolve names).upTo count) ((tree.resolve names).upTo (count + more)) := by
  have whole : Chronicle tree.resolver names (tree.resolve names).history :=
    Resolver.chronicle_run
  obtain ⟨newer, same⟩ := (tree.resolve names).upTo_suffix (count + more)
  rw [← same] at whole
  exact whole.of_append.stable ((tree.resolve names).upTo_add_suffix count more)

end ScopeTyping
