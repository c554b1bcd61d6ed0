import ScopeTyping.Proofs.Pass.Housing

/-! Every scope belongs to one node, and every node that has a scope has one of its own. A
function's scope is opened well before it is attached, but nothing is opened in between: so
the nodes get their scopes in the order of the scopes' numbers (`Numbers`). -/
namespace ScopeTyping

/-- Nodes got the scopes that were opened in the meantime, one each, in order. -/
structure Numbers (nodes : List NodeId) (before after : Snapshot) : Prop where
  size : after.scopes.size = before.scopes.size + nodes.length
  attached : ∀ id scope, after.annotations.get? id = some scope ↔
    before.annotations.get? id = some scope ∨
      ∃ place, nodes[place]? = some id ∧ scope = ⟨before.scopes.size + place⟩

section Numbers
variable {resolver : Resolver} {nodes more : List NodeId} {before between after : Snapshot}
  {id : NodeId}

theorem Numbers.trans (first : Numbers nodes before between) (second : Numbers more between after) :
    Numbers (nodes ++ more) before after := by
  refine ⟨?_, fun id scope => ?_⟩
  · rw [second.size, first.size, List.length_append, Nat.add_assoc]
  rw [second.attached, first.attached, first.size, or_assoc]
  refine or_congr_right ⟨?_, ?_⟩
  · rintro (⟨place, held, same⟩ | ⟨place, held, same⟩)
    · have inside := (List.getElem?_eq_some_iff.1 held).1
      exact ⟨place, by rw [List.getElem?_append_left inside, held], same⟩
    · refine ⟨nodes.length + place, ?_, by rw [same, Nat.add_assoc]⟩
      rw [List.getElem?_append_right (Nat.le_add_right _ _), Nat.add_sub_cancel_left, held]
  · rintro ⟨place, held, same⟩
    by_cases inside : place < nodes.length
    · rw [List.getElem?_append_left inside] at held
      exact .inl ⟨place, held, same⟩
    · have beyond := Nat.le_of_not_lt inside
      rw [List.getElem?_append_right beyond] at held
      refine .inr ⟨place - nodes.length, held, ?_⟩
      rw [same, Nat.add_assoc, Nat.add_sub_cancel' beyond]

theorem Refills.numbers {touched : ScopeId → Prop} (refills : Refills touched before after) :
    Numbers [] before after :=
  ⟨refills.size, fun id scope => by simp [refills.annotations]⟩

theorem Furnishes.numbers {parent : Option ScopeId} {kind : ScopeKind}
    (furnishes : Furnishes id parent kind before after) : Numbers [id] before after := by
  refine ⟨furnishes.size, fun other scope => ?_⟩
  rw [Annotations.get?_attach? furnishes.attached]
  have free := Annotations.free_of_attach? furnishes.attached
  by_cases here : other = id
  · subst here
    constructor
    · intro held
      rw [if_pos rfl] at held
      exact .inr ⟨0, rfl, (Option.some.inj held).symm⟩
    · rintro (held | ⟨place, member, rfl⟩)
      · cases free.symm.trans held
      · cases place with
        | zero => rw [if_pos rfl, Nat.add_zero]
        | succ place => cases member
  · rw [if_neg here]
    refine ⟨.inl, fun held => held.resolve_right ?_⟩
    rintro ⟨place, member, _⟩
    cases place with
    | zero => exact here (Option.some.inj member).symm
    | succ place => cases member

/-- Whatever a task opens it attaches, in the same order. -/
theorem Course.numbers {task : Task} {before after : Progress}
    (course : Course resolver task before after) : ∃ nodes, Numbers nodes before.known after.known := by
  induction course with
  | done => exact ⟨[], (Refills.refl (fun _ => False) _).numbers⟩
  | next _ _ first others =>
    obtain ⟨nodes, visit⟩ := first
    obtain ⟨more, rest⟩ := others
    exact ⟨nodes ++ more, visit.trans rest⟩
  | @node id scope inner kind ids before entered swept after known enters _ _ leaves below =>
    obtain ⟨more, rest⟩ := below
    have silent : Refills (fun _ => False) swept.known after.known := leaves.refills
    have last := silent.numbers
    by_cases opens : kind.opensScope = true
    · obtain ⟨_, _, _, furnishes⟩ := enters.opens opens
      exact ⟨_, (furnishes.numbers.trans rest).trans last⟩
    · obtain ⟨_, refills⟩ := enters.shares (Bool.eq_false_iff.2 opens)
      exact ⟨_, (refills.numbers.trans rest).trans last⟩

end Numbers

/-- In a forest, a link of its numbered list is a scope with its number. -/
theorem Forest.scope_of_mem_numbered {forest : Forest} {link : ScopeId × Scope}
    (member : link ∈ forest.numbered) : forest.scope link.1 = .ok link.2 := by
  obtain ⟨⟨found, index⟩, among, rfl⟩ := List.mem_map.1 member
  exact scope_eq_ok_iff.2 (List.mem_zipIdx_iff_getElem?.1 among)

/-- Scopes and nodes with a scope correspond one to one. The kind of the node says of which kind
the scope is, and the kind of the scope whether there is one around it. -/
structure Resolution.Corresponds (tree : Tree) (resolution : Resolution) : Prop where
  inside : ∀ id scope, resolution.annotations.get? id = some scope →
    scope.index < resolution.scopes.size
  owner : ∀ scope : ScopeId, scope.index < resolution.scopes.size →
    ∃! id, resolution.annotations.get? id = some scope
  kinds : ∀ id scope, resolution.annotations.get? id = some scope → ∃ kind found,
    tree.kind id = .ok kind ∧ resolution.scopes.scope scope = .ok found ∧
      kind.scopeKind? = some found.kind
  outermost : ∀ scope found, resolution.scopes.scope scope = .ok found →
    found.kind = .root ∨ found.kind = .function → found.parent = none
  nested : ∀ scope found, resolution.scopes.scope scope = .ok found →
    found.kind = .block ∨ found.kind = .loop →
      ∃ parent, found.parent = some parent ∧ parent.index < scope.index
  roots : resolution.scopes.roots = (resolution.scopes.numbered.filter fun link =>
    link.2.kind = .root ∨ link.2.kind = .function).map Prod.fst

theorem ScopeKind.around_eq_none_iff {kind : ScopeKind} {scope : ScopeId} :
    kind.around scope = none ↔ kind = .root ∨ kind = .function := by
  cases kind <;> simp [around]

section Runs
variable {resolver : Resolver} {names : NameTable} {resolution : Resolution} {after : Progress}

/-- At the end of a run the nodes that have a scope can be listed by the numbers of the scopes. -/
theorem Resolver.Ends.scopes_numbered (ends : resolver.Ends names resolution after) :
    ∃ nodes : List NodeId, after.known.scopes.size = nodes.length ∧
      ∀ id scope, after.known.annotations.get? id = some scope ↔ nodes[scope.index]? = some id := by
  obtain ⟨nodes, numbers⟩ := ends.course.numbers
  refine ⟨nodes, numbers.size.trans (Nat.zero_add _), fun id scope => ?_⟩
  rw [numbers.attached]
  constructor
  · rintro (impossible | ⟨place, held, rfl⟩)
    · cases impossible
    · show nodes[0 + place]? = some id
      rw [Nat.zero_add, held]
  · intro held
    exact .inr ⟨scope.index, held, congrArg ScopeId.mk (Nat.zero_add _).symm⟩

theorem Resolver.Ends.owner_exists (ends : resolver.Ends names resolution after) {scope : ScopeId}
    (inside : scope.index < after.known.scopes.size) :
    ∃ id, after.known.annotations.get? id = some scope := by
  obtain ⟨nodes, size, attached⟩ := ends.scopes_numbered
  exact ⟨_, (attached _ scope).2 (List.getElem?_eq_getElem (size ▸ inside))⟩

/-- Every scope stands where its kind says. -/
theorem Resolver.Ends.scope_around (ends : resolver.Ends names resolution after) {scope : ScopeId}
    {found : Scope} (held : after.known.scopes.scope scope = .ok found) :
    ∃ around, found.parent = found.kind.around around := by
  obtain ⟨id, own⟩ := ends.owner_exists (Forest.lt_size_of_scope held)
  obtain ⟨around, kind, opens, _, housed⟩ := ends.housed_of_attached own
  obtain ⟨_, other, there, _, parent⟩ := housed.opens opens
  cases held.symm.trans there
  exact ⟨around, parent⟩

/-- A scope that stands inside another one was opened after it. -/
theorem Resolver.Ends.nested (ends : resolver.Ends names resolution after) {scope : ScopeId}
    {found : Scope} (held : after.known.scopes.scope scope = .ok found)
    (within : found.kind = .block ∨ found.kind = .loop) :
    ∃ parent, found.parent = some parent ∧ parent.index < scope.index := by
  obtain ⟨around, parent⟩ := ends.scope_around held
  have inside : found.parent = some around := by
    rcases within with kind | kind
    · rw [parent, kind]
      rfl
    · rw [parent, kind]
      rfl
  have nested : after.known.scopes.Nested := by
    rw [ends.kept.current]
    exact ends.kept.chronicle.consistent.nested
  exact ⟨around, inside, nested scope found around held inside⟩

end Runs

/-- In a run that succeeds, by whatever rules, the nodes with a scope and the scopes correspond
one to one, whether or not nodes are shared: stories have a root scope, indented blocks a block
inside another scope, loops a loop inside another scope, and functions a scope of their own. -/
theorem Resolver.run_corresponds (resolver : Resolver) (names : NameTable) {resolution : Resolution}
    (succeeds : (resolver.run names).outcome = .ok resolution) :
    resolution.Corresponds resolver.tree := by
  obtain ⟨after, ends⟩ := Resolver.run_ends succeeds
  cases ends.resolution
  obtain ⟨nodes, size, attached⟩ := ends.scopes_numbered
  constructor
  case inside =>
    intro id scope held
    show scope.index < after.known.scopes.size
    rw [size]
    exact (List.getElem?_eq_some_iff.1 ((attached id scope).1 held)).1
  case owner =>
    intro scope inside
    obtain ⟨id, own⟩ := ends.owner_exists inside
    refine ⟨id, own, fun other also => ?_⟩
    exact Option.some.inj (((attached other scope).1 also).symm.trans ((attached id scope).1 own))
  case kinds =>
    intro id scope held
    obtain ⟨_, kind, opens, _, housed⟩ := ends.housed_of_attached held
    obtain ⟨_, found, there, sameKind, _⟩ := housed.opens opens
    exact ⟨kind, found, housed.known, there, sameKind⟩
  case outermost =>
    intro scope found held outer
    obtain ⟨around, parent⟩ := ends.scope_around held
    exact parent.trans (ScopeKind.around_eq_none_iff.2 outer)
  case nested =>
    intro scope found held within
    exact ends.nested held within
  case roots =>
    refine congrArg (List.map Prod.fst) (List.filter_congr fun link member => ?_)
    obtain ⟨around, parent⟩ := ends.scope_around (Forest.scope_of_mem_numbered member)
    rw [parent, Bool.eq_iff_iff, Option.isNone_iff_eq_none, ScopeKind.around_eq_none_iff,
      decide_eq_true_iff]

/-- The tour of the constructs opens four scopes, for the story, its loop, its handler and its
function. -/
theorem Tree.tour_corresponds : ∃ resolution,
    (Tree.tour.resolve .empty).outcome = .ok resolution ∧ resolution.scopes.size = 4 ∧
    resolution.Corresponds Tree.tour := by
  obtain ⟨resolution, outcome⟩ := Tree.tour_resolves
  have four : ((Tree.tour.resolve .empty).outcome.map fun resolution =>
      resolution.scopes.size) = .ok 4 := by decide +kernel
  rw [outcome] at four
  exact ⟨resolution, outcome, Except.ok.inj four,
    Resolver.run_corresponds ⟨Tree.tour, .standard⟩ .empty outcome⟩

end ScopeTyping
