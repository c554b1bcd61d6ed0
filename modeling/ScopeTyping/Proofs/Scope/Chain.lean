import ScopeTyping.Scope.Forest

/-! Chains of scopes. A chain leads from a scope outwards to one that sees nothing around
it. Lookups and visible names are read off the chain (`Chain.lookup_eq`); opening a scope
leaves chains as they are, and binding a symbol changes one link (`Chain.insert`). -/
namespace ScopeTyping

/-- What stands in a table after a symbol was put in: the symbol, or what stood there. -/
theorem SymbolTable.mem_put {key : Name} {symbol : Symbol} {entries : List (Name × Symbol)}
    {entry : Name × Symbol} (member : entry ∈ put key symbol entries) :
    entry = (key, symbol) ∨ entry ∈ entries := by
  induction entries with
  | nil => exact .inl (List.mem_singleton.1 member)
  | cons head rest step =>
    obtain ⟨held, old⟩ := head
    by_cases same : held = key
    · simp only [put, same, if_true, List.mem_cons] at member
      rcases member with rfl | later
      · exact .inl rfl
      · exact .inr (List.mem_cons_of_mem _ later)
    · simp only [put, same, if_false, List.mem_cons] at member
      rcases member with rfl | later
      · exact .inr (List.mem_cons_self ..)
      · exact (step later).imp id (List.mem_cons_of_mem _)

/-- A symbol under a new key is put in last. -/
theorem SymbolTable.put_of_not_mem {key : Name} {symbol : Symbol} {entries : List (Name × Symbol)}
    (fresh : key ∉ entries.map Prod.fst) : put key symbol entries = entries ++ [(key, symbol)] := by
  induction entries with
  | nil => rfl
  | cons entry rest step =>
    obtain ⟨held, old⟩ := entry
    simp only [List.map_cons, List.mem_cons, not_or] at fresh
    simp [put, Ne.symm fresh.1, step fresh.2]

/-- A table holds something under its keys and under nothing else. -/
theorem SymbolTable.find?_isSome_iff (table : SymbolTable) (name : Name) :
    (table.find? name).isSome = true ↔ name ∈ table.keys := by
  obtain ⟨entries, distinct⟩ := table
  induction entries with
  | nil => simp [find?, keys]
  | cons entry rest step =>
    obtain ⟨held, symbol⟩ := entry
    have later : (rest.lookup name).isSome = true ↔ name ∈ rest.map Prod.fst :=
      step (List.nodup_cons.1 distinct).2
    by_cases same : name = held
    · simp [find?, keys, same]
    · have miss : (name == held) = false := beq_eq_false_iff_ne.2 same
      simp only [find?, keys, List.lookup_cons, miss, List.map_cons, List.mem_cons, same,
        false_or, later]

/-- Putting a symbol in moves no entry, and changes none but that of its key. -/
theorem SymbolTable.getElem?_put {key : Name} {symbol : Symbol} {entries : List (Name × Symbol)}
    {place : Nat} {entry : Name × Symbol} (held : entries[place]? = some entry) :
    (put key symbol entries)[place]? = some entry ∨
      (entry.1 = key ∧ (put key symbol entries)[place]? = some (key, symbol)) := by
  induction entries generalizing place with
  | nil => cases held
  | cons head rest step =>
    obtain ⟨first, old⟩ := head
    by_cases same : first = key
    · subst same
      cases place with
      | zero =>
        cases held
        exact .inr ⟨rfl, by simp [put]⟩
      | succ place => exact .inl (by simpa [put] using held)
    · cases place with
      | zero => exact .inl (by simpa [put, same] using held)
      | succ place => simpa [put, same] using step (by simpa using held)

namespace Forest

variable {forest after : Forest} {id scope : ScopeId} {found : Scope} {symbol : Symbol}
  {replaced : Option Symbol}

/-- The scopes from one outwards. Numbers fall on the way, since a scope is opened inside
one that is there already. -/
inductive Chain (forest : Forest) : ScopeId → List (ScopeId × Scope) → Prop where
  | outermost {id : ScopeId} {found : Scope} (held : forest.scope id = .ok found)
      (alone : found.parent = none) : Chain forest id [(id, found)]
  | inside {id parent : ScopeId} {found : Scope} {rest : List (ScopeId × Scope)}
      (held : forest.scope id = .ok found) (around : found.parent = some parent)
      (before : parent.index < id.index) (outer : Chain forest parent rest) :
      Chain forest id ((id, found) :: rest)

/-- Every scope stands behind the scope around it. -/
def Nested (forest : Forest) : Prop :=
  ∀ id found parent, forest.scope id = .ok found → found.parent = some parent →
    parent.index < id.index

theorem lt_size_of_scope (held : forest.scope id = .ok found) : id.index < forest.size :=
  (List.getElem?_eq_some_iff.1 (scope_eq_ok_iff.1 held)).1

theorem scope_exists (inside : id.index < forest.size) : ∃ found, forest.scope id = .ok found :=
  ⟨_, scope_eq_ok_iff.2 (List.getElem?_eq_getElem inside)⟩

namespace Chain

variable {chain : List (ScopeId × Scope)}

theorem held (linked : Chain forest id chain) : ∃ found, forest.scope id = .ok found := by
  cases linked with
  | outermost held _ => exact ⟨_, held⟩
  | inside held _ _ _ => exact ⟨_, held⟩

/-- Every link of a chain is a scope of the forest, no further in than where it starts. -/
theorem scope_of_mem (linked : Chain forest id chain) {link : ScopeId × Scope}
    (member : link ∈ chain) : forest.scope link.1 = .ok link.2 ∧ link.1.index ≤ id.index := by
  induction linked with
  | outermost held alone =>
    rw [List.mem_singleton] at member
    subst member
    exact ⟨held, Nat.le_refl _⟩
  | inside held around before outer step =>
    rcases List.mem_cons.1 member with rfl | further
    · exact ⟨held, Nat.le_refl _⟩
    · exact ⟨(step further).1, Nat.le_of_lt (Nat.lt_of_le_of_lt (step further).2 before)⟩

theorem climb_eq (linked : Chain forest id chain) {steps : Nat} (enough : id.index < steps) :
    forest.climb steps id = .whole chain := by
  induction linked generalizing steps with
  | outermost held alone =>
    obtain ⟨fewer, rfl⟩ := Nat.exists_eq_add_one_of_ne_zero (Nat.ne_of_gt (Nat.zero_lt_of_lt enough))
    simp [climb, held, alone, Walk.cons, Walk.whole]
  | inside held around before outer step =>
    obtain ⟨fewer, rfl⟩ := Nat.exists_eq_add_one_of_ne_zero (Nat.ne_of_gt (Nat.zero_lt_of_lt enough))
    have others := @step fewer (by omega)
    simp [climb, held, around, others, Walk.cons, Walk.whole]

theorem lineage_eq (linked : Chain forest id chain) : forest.lineage id = .whole chain := by
  obtain ⟨found, held⟩ := linked.held
  have inside := lt_size_of_scope held
  exact linked.climb_eq (by omega)

/-- A lookup takes the first link that binds the name. -/
theorem lookup_eq (linked : Chain forest id chain) (name : Name) :
    forest.lookup id name = .ok (chain.findSome? fun link => link.2.symbols.find? name) := by
  unfold lookup
  rw [linked.lineage_eq]
  unfold Walk.findSome?
  simp only [Walk.items_whole, Walk.fault_whole]
  split
  · rename_i found first
    exact congrArg Except.ok first.symm
  · rename_i absent
    exact congrArg Except.ok absent.symm

theorem visibleNames_eq (linked : Chain forest id chain) :
    forest.visibleNames id = .ok (chain.flatMap fun link => link.2.symbols.keys) := by
  unfold visibleNames
  rw [linked.lineage_eq]
  rfl

/-- Opening a scope leaves chains as they are. -/
theorem create (linked : Chain forest id chain) (parent : Option ScopeId) (kind : ScopeKind) :
    Chain (forest.create parent kind).2 id chain := by
  induction linked with
  | outermost held alone => exact .outermost (scope_create_of_ok held parent kind) alone
  | inside held around before outer step =>
    exact .inside (scope_create_of_ok held parent kind) around before step

/-- What binding a symbol in a scope makes of a link. -/
def bindIn (scope : ScopeId) (symbol : Symbol) (link : ScopeId × Scope) : ScopeId × Scope :=
  (link.1, if link.1 = scope then
    { link.2 with symbols := link.2.symbols.insert symbol.name symbol } else link.2)

theorem parent_bindIn (scope : ScopeId) (symbol : Symbol) (link : ScopeId × Scope) :
    (bindIn scope symbol link).2.parent = link.2.parent := by
  unfold bindIn
  split <;> rfl

/-- Binding a symbol changes the link of its scope. -/
theorem insert (linked : Chain forest id chain)
    (done : forest.insert scope symbol = .ok (replaced, after)) :
    Chain after id (chain.map (bindIn scope symbol)) := by
  induction linked with
  | @outermost id found held alone =>
    have changed : after.scope id = .ok (bindIn scope symbol (id, found)).2 := by
      rw [scope_insert done, held]
      rfl
    exact .outermost changed ((parent_bindIn scope symbol (id, found)).trans alone)
  | @inside id parent found rest held around before outer step =>
    have changed : after.scope id = .ok (bindIn scope symbol (id, found)).2 := by
      rw [scope_insert done, held]
      rfl
    exact .inside changed ((parent_bindIn scope symbol (id, found)).trans around) before step

theorem find?_bindIn (link : ScopeId × Scope) (name : Name) :
    (bindIn scope symbol link).2.symbols.find? name =
      if link.1 = scope ∧ name = symbol.name then some symbol else link.2.symbols.find? name := by
  unfold bindIn
  by_cases here : link.1 = scope
  · by_cases same : name = symbol.name
    · simp [here, same, SymbolTable.find?_insert]
    · simp [here, same, SymbolTable.find?_insert]
  · simp [here]

end Chain

theorem Nested.chain_exists (nested : forest.Nested) (inside : id.index < forest.size) :
    ∃ chain, Chain forest id chain := by
  induction place : id.index using Nat.strongRecOn generalizing id with
  | ind index step =>
    obtain ⟨found, held⟩ := scope_exists inside
    cases around : found.parent with
    | none => exact ⟨_, .outermost held around⟩
    | some parent =>
      have before := nested id found parent held around
      obtain ⟨rest, outer⟩ := step parent.index (place ▸ before) (Nat.lt_trans before inside) rfl
      exact ⟨_, .inside held around before outer⟩

theorem Nested.empty : Forest.empty.Nested := by
  intro id found parent held
  simp [Forest.empty, scope_eq_ok_iff] at held

/-- A symbol can be bound in every scope that is there. -/
theorem insert_exists (held : forest.scope id = .ok found) (symbol : Symbol) :
    ∃ replaced after, forest.insert id symbol = .ok (replaced, after) :=
  ⟨found.symbols.find? symbol.name,
    ⟨forest.scopes.set id.index { found with symbols := found.symbols.insert symbol.name symbol }⟩,
    by simp [insert, held, Except.map]⟩

/-- Binding a symbol leaves the other scopes as they are. -/
theorem scope_insert_of_ne (done : forest.insert scope symbol = .ok (replaced, after))
    (apart : id ≠ scope) (held : forest.scope id = .ok found) : after.scope id = .ok found := by
  rw [scope_insert done, held]
  simp [Except.map, apart]

theorem scope_insert_self (done : forest.insert scope symbol = .ok (replaced, after))
    (held : forest.scope scope = .ok found) :
    after.scope scope = .ok { found with symbols := found.symbols.insert symbol.name symbol } := by
  rw [scope_insert done, held]
  simp [Except.map]

/-- The scopes of a forest in which one was opened: the ones before and the new one. -/
theorem scope_of_create {parent : Option ScopeId} {kind : ScopeKind}
    (held : (forest.create parent kind).2.scope id = .ok found) :
    forest.scope id = .ok found ∨ (found = .fresh parent kind ∧ id.index = forest.size) := by
  rw [scope_eq_ok_iff] at held
  by_cases old : id.index < forest.size
  · left
    rw [scope_eq_ok_iff, ← held]
    exact (List.getElem?_append_left old).symm
  · right
    have new : id.index = forest.size := by
      have bound := (List.getElem?_eq_some_iff.1 held).1
      have grown := size_create forest parent kind
      unfold Forest.size at grown old ⊢
      omega
    rw [show id.index = forest.scopes.length from new] at held
    exact ⟨by simpa [Forest.create] using held.symm, new⟩

/-- The scopes of a forest in which a symbol was bound: the ones before, one of them with
the symbol in it. -/
theorem scope_of_insert (done : forest.insert scope symbol = .ok (replaced, after))
    (held : after.scope id = .ok found) :
    ∃ before, forest.scope id = .ok before ∧ found = if id = scope then
      { before with symbols := before.symbols.insert symbol.name symbol } else before := by
  rw [scope_insert done] at held
  cases old : forest.scope id with
  | error fault => simp [old, Except.map] at held
  | ok before =>
    simp only [old, Except.map, Except.ok.injEq] at held
    exact ⟨before, rfl, held.symm⟩

/-- A scope opened inside one that is there keeps the forest nested. -/
theorem Nested.create (nested : forest.Nested) {parent : Option ScopeId} (kind : ScopeKind)
    (there : ∀ around, parent = some around → around.index < forest.size) :
    (forest.create parent kind).2.Nested := by
  intro id found around held inner
  rcases scope_of_create held with old | ⟨rfl, new⟩
  · exact nested id found around old inner
  · rw [new]
    exact there around inner

theorem Nested.insert (nested : forest.Nested)
    (done : forest.insert scope symbol = .ok (replaced, after)) : after.Nested := by
  intro id found parent held around
  obtain ⟨before, old, rfl⟩ := scope_of_insert done held
  apply nested id before parent old
  split at around
  · exact around
  · exact around

theorem lt_size_of_lookup {name : Name} {answer : Option Symbol}
    (seen : forest.lookup id name = .ok answer) : id.index < forest.size := by
  cases held : forest.scope id with
  | ok found => exact lt_size_of_scope held
  | error fault => simp [lookup, lineage, climb, held, Walk.stopped, Walk.findSome?] at seen

/-- A walk outwards meets scopes of the forest. -/
theorem scope_of_mem_climb {steps : Nat} {link : ScopeId × Scope}
    (member : link ∈ (forest.climb steps id).items) : forest.scope link.1 = .ok link.2 := by
  induction steps generalizing id with
  | zero => simp [climb, Walk.stopped] at member
  | succ steps step =>
    unfold climb at member
    split at member
    · simp [Walk.stopped] at member
    · rename_i found held
      rcases List.mem_cons.1 member with rfl | further
      · exact held
      · split at further
        · simp [Walk.whole] at further
        · exact step further

/-- The symbols bound in the scope with a number, none if there is no such scope. -/
def tableIn (forest : Forest) (id : ScopeId) : SymbolTable :=
  match forest.scope id with
  | .ok found => found.symbols
  | .error _ => .empty

theorem tableIn_of_scope (held : forest.scope id = .ok found) :
    forest.tableIn id = found.symbols := by
  simp [tableIn, held]

/-- A scope that has just been opened binds nothing. -/
theorem tableIn_create (forest : Forest) (parent : Option ScopeId) (kind : ScopeKind)
    (id : ScopeId) : (forest.create parent kind).2.tableIn id = forest.tableIn id := by
  cases held : forest.scope id with
  | ok found =>
    rw [tableIn_of_scope held, tableIn_of_scope (scope_create_of_ok held parent kind)]
  | error fault =>
    unfold tableIn
    rw [held]
    split
    · rename_i found new
      rcases scope_of_create new with old | ⟨rfl, _⟩
      · cases held.symm.trans old
      · rfl
    · rfl

theorem tableIn_insert (done : forest.insert scope symbol = .ok (replaced, after)) (id : ScopeId) :
    after.tableIn id =
      if id = scope then (forest.tableIn id).insert symbol.name symbol else forest.tableIn id := by
  unfold tableIn
  rw [scope_insert done]
  cases held : forest.scope id with
  | ok found => by_cases same : id = scope <;> simp [Except.map, same]
  | error fault =>
    have apart : id ≠ scope := by
      rintro rfl
      simp [Forest.insert, held, Except.map] at done
    simp [Except.map, apart]

/-- A way outwards that comes to an end leads through tables of the forest. -/
theorem tables_of_ancestors {around : List ScopeId} (climbed : forest.ancestors id = .ok around) :
    ∃ links, forest.lineage id = .whole links ∧
      links.map (fun link => link.2.symbols) = around.map forest.tableIn := by
  unfold ancestors Walk.toExcept at climbed
  split at climbed
  · cases climbed
  · rename_i whole
    cases climbed
    refine ⟨(forest.lineage id).items, ?_, ?_⟩
    · cases walk : forest.lineage id
      rw [walk] at whole
      cases whole
      rfl
    · rw [List.map_map]
      exact List.map_congr_left fun link member => (tableIn_of_scope (scope_of_mem_climb member)).symm

/-- The visible names are the keys of the scopes that are met on the way outwards. -/
theorem visibleNames_of_ancestors {around : List ScopeId}
    (climbed : forest.ancestors id = .ok around) :
    forest.visibleNames id = .ok (around.flatMap fun scope => (forest.tableIn scope).keys) := by
  obtain ⟨links, whole, tables⟩ := tables_of_ancestors climbed
  have keys := congrArg (List.flatMap SymbolTable.keys) tables
  rw [List.flatMap_map, List.flatMap_map] at keys
  unfold visibleNames
  rw [whole]
  exact congrArg Except.ok keys

/-- A lookup takes what the first of these scopes binds the name to. -/
theorem lookup_of_ancestors {around : List ScopeId} (climbed : forest.ancestors id = .ok around)
    (name : Name) :
    forest.lookup id name =
      .ok (around.findSome? fun scope => (forest.tableIn scope).find? name) := by
  obtain ⟨links, whole, tables⟩ := tables_of_ancestors climbed
  have first := congrArg (List.findSome? fun table => table.find? name) tables
  rw [List.findSome?_map, List.findSome?_map] at first
  unfold lookup Walk.findSome?
  rw [whole, Walk.items_whole, Walk.fault_whole]
  dsimp only [Function.comp_def] at first
  rw [first]
  split
  · rename_i absent
    exact congrArg Except.ok absent.symm
  · rename_i absent
    exact congrArg Except.ok absent.symm

/-- The names that a scope lists are the keys of the scopes around it, and a lookup from it finds
one of them or nothing. -/
theorem lookup_of_visibleNames {visible : List Name} (listed : forest.visibleNames id = .ok visible)
    (name : Name) :
    ∃ answer, forest.lookup id name = .ok answer ∧ (answer.isSome = true ↔ name ∈ visible) := by
  unfold visibleNames Walk.toExcept at listed
  split at listed
  · cases listed
  · rename_i whole
    cases listed
    refine ⟨(forest.lineage id).items.findSome? fun link => link.2.symbols.find? name, ?_, ?_⟩
    · unfold lookup Walk.findSome?
      rw [whole]
      cases (forest.lineage id).items.findSome? fun link => link.2.symbols.find? name <;> rfl
    · rw [List.findSome?_isSome_iff, List.mem_flatMap]
      refine exists_congr fun link => and_congr_right fun _ => ?_
      exact link.2.symbols.find?_isSome_iff name

/-- A scope does not bind what it does not see. -/
theorem find?_of_lookup_none {name : Name} (held : forest.scope id = .ok found)
    (unseen : forest.lookup id name = .ok none) : found.symbols.find? name = none := by
  unfold lookup Walk.findSome? at unseen
  split at unseen
  · cases unseen
  · rename_i absent
    simp only [lineage, climb, held, Walk.cons, List.findSome?_cons] at absent
    split at absent
    · cases absent
    · assumption

/-- A name that its scope does not see is bound at the end of the table. -/
theorem insert_of_unseen (done : forest.insert scope symbol = .ok (replaced, after))
    (unseen : forest.lookup scope symbol.name = .ok none) :
    ∃ found table, forest.scope scope = .ok found ∧
      table.entries = found.symbols.entries ++ [(symbol.name, symbol)] ∧
      after = ⟨forest.scopes.set scope.index { found with symbols := table }⟩ := by
  obtain ⟨found, held⟩ := scope_exists (lt_size_of_lookup unseen)
  have fresh : symbol.name ∉ found.symbols.keys := by
    intro member
    have bound := (found.symbols.find?_isSome_iff symbol.name).2 member
    rw [find?_of_lookup_none held unseen] at bound
    cases bound
  simp only [Forest.insert, held, Except.map, Except.ok.injEq, Prod.mk.injEq] at done
  exact ⟨found, _, held, SymbolTable.put_of_not_mem fresh, done.2.symm⟩

/-! ### Lookups after a binding -/

/-- A binding in a scope off the chain is not seen. -/
theorem Chain.lookup_insert_of_not_mem {chain : List (ScopeId × Scope)}
    (linked : Chain forest id chain) (off : ∀ link ∈ chain, link.1 ≠ scope)
    (done : forest.insert scope symbol = .ok (replaced, after)) (name : Name) :
    after.lookup id name = forest.lookup id name := by
  have same : chain.map (bindIn scope symbol) = chain := by
    refine (List.map_congr_left fun link member => ?_).trans (List.map_id chain)
    simp [bindIn, off link member]
  have linkedAfter := linked.insert done
  rw [same] at linkedAfter
  rw [linked.lookup_eq, linkedAfter.lookup_eq]

/-- The binding just made is seen from its scope. -/
theorem lookup_insert_self (nested : forest.Nested)
    (done : forest.insert scope symbol = .ok (replaced, after)) :
    after.lookup scope symbol.name = .ok (some symbol) := by
  have inside : scope.index < forest.size := by
    cases held : forest.scope scope with
    | error fault => simp [Forest.insert, held, Except.map] at done
    | ok found => exact lt_size_of_scope held
  obtain ⟨chain, linked⟩ := nested.chain_exists inside
  have linkedAfter := linked.insert done
  rw [linkedAfter.lookup_eq]
  cases linked with
  | outermost held alone => simp [Chain.find?_bindIn]
  | inside held around before outer => simp [Chain.find?_bindIn]

/-- A name bound in a scope that did not see it hides nothing that was seen before, from
whatever scope one looks. -/
theorem lookup_insert_of_fresh (nested : forest.Nested)
    (fresh : forest.lookup scope symbol.name = .ok none)
    (done : forest.insert scope symbol = .ok (replaced, after)) {name : Name} {seen : Symbol}
    (inside : id.index < forest.size) (before : forest.lookup id name = .ok (some seen)) :
    after.lookup id name = .ok (some seen) := by
  obtain ⟨chain, linked⟩ := nested.chain_exists inside
  rw [linked.lookup_eq, Except.ok.injEq] at before
  rw [(linked.insert done).lookup_eq, Except.ok.injEq]
  have apart : ∀ {entries : List (ScopeId × Scope)}, Chain forest scope entries →
      entries.findSome? (fun link => link.2.symbols.find? symbol.name) = none := by
    intro entries path
    rw [path.lookup_eq, Except.ok.injEq] at fresh
    exact fresh
  clear inside
  -- The binding shows only if the chain reaches its scope without having met the name.
  induction linked with
  | @outermost id found held alone =>
    have path := Chain.outermost held alone
    simp only [List.map_cons, List.map_nil, List.findSome?_cons, List.findSome?_nil,
      Chain.find?_bindIn] at before ⊢
    by_cases here : id = scope ∧ name = symbol.name
    · obtain ⟨rfl, rfl⟩ := here
      have hidden := apart path
      simp only [List.findSome?_cons, List.findSome?_nil] at hidden
      rw [hidden] at before
      cases before
    · simpa only [here, if_false] using before
  | @inside id parent found rest held around closer outer step =>
    have path := Chain.inside held around closer outer
    simp only [List.map_cons, List.findSome?_cons, Chain.find?_bindIn] at before ⊢
    by_cases here : id = scope ∧ name = symbol.name
    · obtain ⟨rfl, rfl⟩ := here
      have hidden := apart path
      simp only [List.findSome?_cons] at hidden
      rw [hidden] at before
      cases before
    · simp only [here, if_false]
      cases bound : found.symbols.find? name with
      | some other => simpa only [bound] using before
      | none =>
        simp only [bound] at before
        exact step before

end Forest
end ScopeTyping
