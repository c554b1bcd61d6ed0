import ScopeTyping.Proofs.Scope.Listing

/-! What a history of changes makes of a forest. Whatever scopes were opened and whatever symbols
were bound in them, the forest is one of nested environments: each table holds what was bound in
its scope last, and a lookup takes the nearest of these bindings (`grown_environments`). The
invariant is `Recounts`; a change keeps it (`Recounts.step`), and so does a history of them. -/
namespace ScopeTyping

/-- The table is what one gets from putting symbols in one after another. -/
structure SymbolTable.Holds (table : SymbolTable) (symbols : List Symbol) : Prop where
  keys : table.keys = (symbols.map Symbol.name).eraseDups
  find? : ∀ name, table.find? name = symbols.reverse.find? fun symbol => symbol.name = name

theorem SymbolTable.Holds.nil : SymbolTable.empty.Holds [] := ⟨rfl, fun _ => rfl⟩

theorem SymbolTable.Holds.insert {table : SymbolTable} {symbols : List Symbol}
    (holds : table.Holds symbols) (symbol : Symbol) :
    (table.insert symbol.name symbol).Holds (symbols ++ [symbol]) := by
  constructor
  · rw [keys_insert, List.map_append, List.map_singleton, eraseDups_concat, holds.keys]
    simp only [List.mem_eraseDups]
  · intro name
    rw [find?_insert, List.reverse_append, List.reverse_singleton, List.singleton_append,
      List.find?_cons, holds.find?]
    by_cases same : symbol.name = name
    · simp [same]
    · simp [same, Ne.symm same]

namespace Forest

/-- A change of a forest. -/
inductive Change where
  | createRoot (kind : ScopeKind)
  | createChild (parent : ScopeId) (kind : ScopeKind)
  | insert (scope : ScopeId) (symbol : Symbol)
  deriving DecidableEq

/-- The forest after a change. The scope that is changed or opened in has to be there. -/
def apply (forest : Forest) : Change → Except Fault Forest
  | .createRoot kind => .ok (forest.createRoot kind).2
  | .createChild parent kind => (forest.scope parent).map fun _ => (forest.createChild parent kind).2
  | .insert scope symbol => (forest.insert scope symbol).map Prod.snd

/-- The forest after a history of changes, the oldest first. -/
def grown (changes : List Change) : Except Fault Forest := changes.foldlM apply .empty

/-- The symbol that a change binds in a scope. -/
def Change.binds? (scope : ScopeId) : Change → Option Symbol
  | .insert id symbol => if id = scope then some symbol else none
  | _ => none

/-- The symbols that were bound in a scope, the oldest first. -/
def inserted (changes : List Change) (scope : ScopeId) : List Symbol :=
  changes.filterMap (Change.binds? scope)

/-- The symbol that was bound to a name in a scope most recently. -/
def latest? (changes : List Change) (scope : ScopeId) (name : Name) : Option Symbol :=
  (inserted changes scope).reverse.find? fun symbol => symbol.name = name

variable {forest after : Forest} {changes earlier : List Change} {change : Change}
  {id scope : ScopeId} {symbol : Symbol} {replaced : Option Symbol} {around : List ScopeId}

/-! ### From change to change -/

/-- A forest is what a history made of it. -/
structure Recounts (forest : Forest) (changes : List Change) : Prop where
  nested : forest.Nested
  tables : ∀ scope, (forest.tableIn scope).Holds (inserted changes scope)

theorem Recounts.nil : Forest.empty.Recounts [] := ⟨.empty, fun _ => .nil⟩

theorem inserted_concat (changes : List Change) (change : Change) (scope : ScopeId) :
    inserted (changes ++ [change]) scope =
      inserted changes scope ++ (change.binds? scope).toList := by
  cases bound : change.binds? scope <;> simp [inserted, bound]

/-- Opening a scope binds nothing, wherever one looks. -/
theorem Recounts.create (recounts : forest.Recounts changes) {parent : Option ScopeId}
    (kind : ScopeKind) (there : ∀ around, parent = some around → around.index < forest.size)
    (silent : ∀ scope, change.binds? scope = none) :
    (forest.create parent kind).2.Recounts (changes ++ [change]) := by
  constructor
  · exact recounts.nested.create kind there
  · intro scope
    rw [tableIn_create, inserted_concat, silent scope, Option.toList_none, List.append_nil]
    exact recounts.tables scope

theorem Recounts.insert (recounts : forest.Recounts changes)
    (done : forest.insert id symbol = .ok (replaced, after)) :
    after.Recounts (changes ++ [.insert id symbol]) := by
  constructor
  · exact recounts.nested.insert done
  · intro scope
    rw [tableIn_insert done, inserted_concat]
    by_cases same : scope = id
    · simpa [Change.binds?, same] using (recounts.tables id).insert symbol
    · simpa [Change.binds?, same, Ne.symm same] using recounts.tables scope

/-- A change keeps to the history. -/
theorem Recounts.step (recounts : forest.Recounts changes)
    (changed : forest.apply change = .ok after) : after.Recounts (changes ++ [change]) := by
  cases change with
  | createRoot kind =>
    cases changed
    apply recounts.create kind
    · intro around inside
      cases inside
    · intro scope
      rfl
  | createChild parent kind =>
    cases held : forest.scope parent with
    | error fault => simp [apply, held, Except.map] at changed
    | ok found =>
      simp only [apply, held, Except.map, Except.ok.injEq] at changed
      subst changed
      apply recounts.create kind
      · intro around inside
        cases inside
        exact lt_size_of_scope held
      · intro scope
        rfl
  | insert scope symbol =>
    cases done : forest.insert scope symbol with
    | error fault => simp [apply, done, Except.map] at changed
    | ok answer =>
      simp only [apply, done, Except.map, Except.ok.injEq] at changed
      subst changed
      exact recounts.insert done

/-- A history keeps to itself, whatever history it goes on from. -/
theorem Recounts.run (recounts : forest.Recounts earlier)
    (ran : changes.foldlM apply forest = .ok after) : after.Recounts (earlier ++ changes) := by
  induction changes generalizing forest earlier with
  | nil =>
    cases ran
    rwa [List.append_nil]
  | cons change rest step =>
    rw [List.foldlM_cons] at ran
    cases changed : forest.apply change with
    | error fault =>
      rw [changed] at ran
      cases ran
    | ok between =>
      rw [changed] at ran
      have later := step (recounts.step changed) ran
      rwa [List.append_assoc, List.singleton_append] at later

theorem recounts_of_grown (reached : grown changes = .ok forest) : forest.Recounts changes :=
  Recounts.nil.run reached

/-! ### Ways outwards -/

theorem lt_size_of_ancestors (climbed : forest.ancestors id = .ok around) :
    id.index < forest.size := by
  cases held : forest.scope id with
  | ok found => exact lt_size_of_scope held
  | error fault =>
    simp [ancestors, lineage, climb, held, Walk.stopped, Walk.toExcept, Except.map] at climbed

theorem Chain.ancestors_eq {chain : List (ScopeId × Scope)} (linked : Chain forest id chain) :
    forest.ancestors id = .ok (chain.map Prod.fst) := by
  unfold ancestors
  rw [linked.lineage_eq]
  rfl

/-- A way outwards starts where it says, and numbers fall on it. -/
theorem Chain.descends {chain : List (ScopeId × Scope)} (linked : Chain forest id chain) :
    (chain.map Prod.fst).head? = some id ∧
      (chain.map Prod.fst).Pairwise fun inner outer => outer.index < inner.index := by
  induction linked with
  | outermost held alone => simp
  | @inside id parent found rest held parented before outer step =>
    constructor
    · rfl
    · apply List.pairwise_cons.2
      constructor
      · intro further member
        obtain ⟨link, among, rfl⟩ := List.mem_map.1 member
        exact Nat.lt_of_le_of_lt (outer.scope_of_mem among).2 before
      · exact step.2

/-- Binding a symbol leaves the ways outwards as they are. -/
theorem Nested.ancestors_insert (nested : forest.Nested)
    (done : forest.insert scope symbol = .ok (replaced, after))
    (climbed : forest.ancestors id = .ok around) : after.ancestors id = .ok around := by
  obtain ⟨chain, linked⟩ := nested.chain_exists (lt_size_of_ancestors climbed)
  rw [linked.ancestors_eq] at climbed
  rw [(linked.insert done).ancestors_eq, List.map_map, ← climbed]
  rfl

/-- Every scope on a way outwards is there to be looked into. -/
theorem Nested.lookupLocal_eq (nested : forest.Nested)
    (climbed : forest.ancestors id = .ok around) (member : scope ∈ around) (name : Name) :
    forest.lookupLocal scope name = .ok ((forest.tableIn scope).find? name) := by
  obtain ⟨chain, linked⟩ := nested.chain_exists (lt_size_of_ancestors climbed)
  rw [linked.ancestors_eq] at climbed
  cases climbed
  obtain ⟨link, among, rfl⟩ := List.mem_map.1 member
  have held := (linked.scope_of_mem among).1
  unfold lookupLocal
  rw [tableIn_of_scope held, held]
  rfl

/-! ### One more binding -/

/-- On a way outwards no scope before a given one binds a name. -/
def Uncovered (forest : Forest) (around : List ScopeId) (scope : ScopeId) (name : Name) : Prop :=
  scope ∈ around ∧
    ∀ before ∈ around.takeWhile (· ≠ scope), forest.lookupLocal before name = .ok none

section Answers
variable {own new : ScopeId → Option Symbol}
  (elsewhere : ∀ other, other ≠ scope → new other = own other)
include elsewhere

/-- The first answer comes from the one scope that answers anew, if none before it answers. -/
theorem findSome?_of_uncovered (here : new scope = some symbol) (member : scope ∈ around)
    (silent : ∀ before ∈ around.takeWhile (· ≠ scope), own before = none) :
    around.findSome? new = some symbol := by
  induction around with
  | nil => cases member
  | cons inner outer step =>
    by_cases same : inner = scope
    · rw [List.findSome?_cons, same, here]
    · rw [List.takeWhile_cons_of_pos (by simpa using same)] at silent
      obtain ⟨first, others⟩ := List.forall_mem_cons.1 silent
      rw [List.findSome?_cons, elsewhere inner same, first]
      apply step
      · exact (List.mem_cons.1 member).resolve_left (Ne.symm same)
      · exact others

/-- Otherwise the first answer is the one that it was. -/
theorem findSome?_of_covered
    (covered : ¬(scope ∈ around ∧ ∀ before ∈ around.takeWhile (· ≠ scope), own before = none)) :
    around.findSome? new = around.findSome? own := by
  induction around with
  | nil => rfl
  | cons inner outer step =>
    by_cases same : inner = scope
    · apply absurd _ covered
      simp [same]
    · rw [List.findSome?_cons, List.findSome?_cons, elsewhere inner same]
      cases first : own inner with
      | some found => rfl
      | none =>
        apply step
        rintro ⟨member, others⟩
        apply covered
        rw [List.takeWhile_cons_of_pos (by simpa using same)]
        exact ⟨List.mem_cons_of_mem _ member, List.forall_mem_cons.2 ⟨first, others⟩⟩

end Answers

/-- A binding is seen where nothing covers it, and changes no other lookup. -/
theorem Nested.lookup_insert (nested : forest.Nested)
    (done : forest.insert scope symbol = .ok (replaced, after))
    (climbed : forest.ancestors id = .ok around) :
    (forest.Uncovered around scope symbol.name →
      after.lookup id symbol.name = .ok (some symbol)) ∧
    ∀ name, ¬(name = symbol.name ∧ forest.Uncovered around scope name) →
      after.lookup id name = forest.lookup id name := by
  have own : ∀ before ∈ around.takeWhile (· ≠ scope), ∀ name,
      forest.lookupLocal before name = .ok none ↔ (forest.tableIn before).find? name = none := by
    intro before member name
    rw [nested.lookupLocal_eq climbed ((List.takeWhile_prefix _).subset member), Except.ok.injEq]
  have here : (after.tableIn scope).find? symbol.name = some symbol := by
    rw [tableIn_insert done, if_pos rfl, SymbolTable.find?_insert, if_pos rfl]
  have elsewhere : ∀ name other, other ≠ scope →
      (after.tableIn other).find? name = (forest.tableIn other).find? name := by
    intro name other apart
    rw [tableIn_insert done, if_neg apart]
  have climbedAfter := nested.ancestors_insert done climbed
  constructor
  · rintro ⟨member, silent⟩
    rw [lookup_of_ancestors climbedAfter]
    apply congrArg Except.ok
    apply findSome?_of_uncovered (elsewhere symbol.name) here member
    intro before among
    exact (own before among symbol.name).1 (silent before among)
  · intro name apart
    rw [lookup_of_ancestors climbedAfter, lookup_of_ancestors climbed]
    apply congrArg Except.ok
    by_cases same : name = symbol.name
    · subst same
      apply findSome?_of_covered (elsewhere symbol.name)
      rintro ⟨member, silent⟩
      exact apart ⟨rfl, member, fun before among => (own before among _).2 (silent before among)⟩
    · have unchanged : ∀ other,
          (after.tableIn other).find? name = (forest.tableIn other).find? name := by
        intro other
        by_cases there : other = scope
        · rw [tableIn_insert done, if_pos there, SymbolTable.find?_insert, if_neg same]
        · exact elsewhere name other there
      simp only [unchanged]

/-! ### Environments -/

/-- A forest is one of nested environments, whose history tells what each name stands for. -/
structure Environments (forest : Forest) (changes : List Change) : Prop where
  /-- The way outwards comes to an end, and numbers fall on it. -/
  climbs : ∀ id, id.index < forest.size → ∃ around, forest.ancestors id = .ok around ∧
    around.head? = some id ∧ around.Pairwise fun inner outer => outer.index < inner.index
  /-- The visible names are those that are found, and the nearest scope decides what is found:
  what was bound there last. -/
  finds : ∀ id around, forest.ancestors id = .ok around → ∃ visible,
    forest.visibleNames id = .ok visible ∧ ∀ name, ∃ answer, forest.lookup id name = .ok answer ∧
      (answer.isSome = true ↔ name ∈ visible) ∧
      answer = around.findSome? fun scope => latest? changes scope name
  /-- A table lists every name that was bound in its scope once, where it was bound first. -/
  lists : ∀ id found, forest.scope id = .ok found → found.symbols.keys.Nodup ∧
    found.symbols.keys = ((inserted changes id).map Symbol.name).eraseDups
  /-- A further binding answers with the symbol that it replaces, is seen where nothing covers
  it, and changes nothing else. -/
  binds : ∀ scope symbol, scope.index < forest.size → ∃ replaced after,
    forest.insert scope symbol = .ok (replaced, after) ∧
    forest.lookupLocal scope symbol.name = .ok replaced ∧
    ∀ id around, forest.ancestors id = .ok around →
      (forest.Uncovered around scope symbol.name →
        after.lookup id symbol.name = .ok (some symbol)) ∧
      ∀ name, ¬(name = symbol.name ∧ forest.Uncovered around scope name) →
        after.lookup id name = forest.lookup id name

/-- Whatever history a forest has, it behaves as nested environments do. -/
theorem grown_environments (reached : grown changes = .ok forest) :
    forest.Environments changes := by
  have recounts := recounts_of_grown reached
  constructor
  case climbs =>
    intro id inside
    obtain ⟨chain, linked⟩ := recounts.nested.chain_exists inside
    exact ⟨chain.map Prod.fst, linked.ancestors_eq, linked.descends⟩
  case finds =>
    intro id around climbed
    have listed := visibleNames_of_ancestors climbed
    refine ⟨_, listed, fun name => ?_⟩
    obtain ⟨answer, looked, found⟩ := lookup_of_visibleNames listed name
    refine ⟨answer, looked, found, ?_⟩
    rw [lookup_of_ancestors climbed, Except.ok.injEq] at looked
    rw [← looked]
    congr 1
    exact funext fun scope => (recounts.tables scope).find? name
  case lists =>
    intro id found held
    constructor
    · exact found.symbols.distinct
    · rw [← tableIn_of_scope held]
      exact (recounts.tables id).keys
  case binds =>
    intro scope symbol inside
    obtain ⟨found, held⟩ := scope_exists inside
    obtain ⟨replaced, after, done⟩ := insert_exists held symbol
    refine ⟨replaced, after, done, ?_, fun id around climbed => ?_⟩
    · simp only [Forest.insert, held, Except.map, Except.ok.injEq, Prod.mk.injEq] at done
      simp [lookupLocal, held, Except.map, done.1]
    · exact recounts.nested.lookup_insert done climbed

/-- A story with a block in it. The block binds a name that the story binds too, and the story
binds its first name once more. -/
def diary : List Change :=
  [.createRoot .root, .insert ⟨0⟩ ⟨⟨0⟩, .int⟩, .createChild ⟨0⟩ .block,
    .insert ⟨1⟩ ⟨⟨1⟩, .string⟩, .insert ⟨0⟩ ⟨⟨1⟩, .boolean⟩, .insert ⟨0⟩ ⟨⟨0⟩, .string⟩]

theorem diary_environments : ∃ forest, grown diary = .ok forest ∧ forest.Environments diary :=
  ⟨_, rfl, grown_environments rfl⟩

end Forest
end ScopeTyping
