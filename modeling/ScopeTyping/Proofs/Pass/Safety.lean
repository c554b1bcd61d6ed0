import ScopeTyping.Proofs.Pass.Equivariance
import ScopeTyping.Proofs.Pass.Housing
import ScopeTyping.Proofs.Pass.Justification

/-! A run over a sound tree never meets a fault. It ends with a resolution that can be shown or
with an error of the story, whatever the names that it starts with. What a fault would come of
does not occur at any moment: scopes that are looked into are there, walks along parents come to
an end, and names that are bound have texts. -/
namespace ScopeTyping

/-- Nothing that can be asked of the scopes of a moment is a fault, and there are hardly more
of them than nodes. -/
structure Snapshot.Safe (tree : Tree) (now : Snapshot) : Prop where
  few : now.scopes.size ≤ tree.size + 1
  outwards : ∀ scope, scope.index < now.scopes.size → ∃ chain,
    now.scopes.ancestors scope = .ok chain ∧ ∀ around ∈ chain, around.index < now.scopes.size
  found : ∀ scope name, scope.index < now.scopes.size →
    ∃ answer, now.scopes.lookup scope name = .ok answer
  shown : ∀ scope, scope.index < now.scopes.size → ∃ visible,
    now.scopes.visibleNames scope = .ok visible ∧
    ∀ name ∈ visible, ∃ text, now.names.text name = .ok text

variable {tree : Tree} {names : NameTable} {past : List Moment} {moment : Moment}

/-- Only nodes of the tree have scopes. -/
theorem Chronicle.inside_of_attached (chronicle : Chronicle tree.resolver names past) {id : NodeId}
    {scope : ScopeId} (held : (latest names past).annotations.get? id = some scope) :
    id.index < tree.size := by
  have attached := (chronicle.consistent.attached id scope).1 held
  obtain ⟨_, _, _, step⟩ := chronicle.step_of_happened attached
  cases step with
  | attached known _ _ _ =>
    obtain ⟨node, there, _⟩ := Tree.node_of_kind known
    exact Tree.lt_size_of_node there

theorem Chronicle.safe (chronicle : Chronicle tree.resolver names (moment :: past))
    (balanced : moment.known.scopes.size ≤ moment.known.annotations.size + 1) :
    moment.known.Safe tree := by
  have nested : moment.known.scopes.Nested := chronicle.consistent.nested
  have named : moment.known.scopes.Named moment.known.names := chronicle.lawful.named
  constructor
  · have attached : moment.known.annotations.size ≤ tree.size :=
      Annotations.size_le fun id scope held => chronicle.inside_of_attached held
    omega
  · intro scope inside
    obtain ⟨chain, linked⟩ := nested.chain_exists inside
    refine ⟨chain.map Prod.fst, ?_, fun around member => ?_⟩
    · unfold Forest.ancestors
      rw [linked.lineage_eq]
      rfl
    · obtain ⟨link, among, rfl⟩ := List.mem_map.1 member
      exact Forest.lt_size_of_scope (linked.scope_of_mem among).1
  · intro scope name inside
    obtain ⟨chain, linked⟩ := nested.chain_exists inside
    exact ⟨_, linked.lookup_eq name⟩
  · intro scope inside
    obtain ⟨chain, linked⟩ := nested.chain_exists inside
    refine ⟨_, linked.visibleNames_eq, fun name member => ?_⟩
    obtain ⟨link, among, key⟩ := List.mem_flatMap.1 member
    obtain ⟨entry, held, rfl⟩ := List.mem_map.1 key
    obtain ⟨text, known⟩ := named link.1 link.2 (linked.scope_of_mem among).1 entry held
    exact ⟨text, by simp [NameTable.text, known]⟩

/-- A run over a sound tree succeeds with scopes that can be shown with the names that it
leaves, or it fails with an error of the story; it never ends with a fault. At every moment of
it all that can be asked of a scope has an answer, and the scopes in which nodes are visited and
symbols are bound are there. -/
theorem Tree.resolve_safe (tree : Tree) (names : NameTable) (sound : tree.Sound)
    (inside : tree.root.index < tree.size) :
    ((∃ resolution text, (tree.resolve names).outcome = .ok resolution ∧
        resolution.scopes.dump (tree.resolve names).names = .ok text) ∨
      ∃ told, (tree.resolve names).outcome = .error (.error told)) ∧
    ∀ moment ∈ (tree.resolve names).journal, moment.known.Safe tree ∧
      (∀ id scope, moment.event = .visited id scope →
        scope.index < moment.known.scopes.size) ∧
      (∀ scope symbol, moment.event = .bound scope symbol →
        scope.index < moment.known.scopes.size) := by
  constructor
  · rcases Tree.resolve_alike sound inside names names with ⟨ran, twinRan, same⟩ | ⟨ran, _, _, _, _⟩
    · obtain ⟨text, shown, _⟩ := same.dumps
      exact .inl ⟨_, text, ran, shown⟩
    · exact .inr ⟨_, ran⟩
  · intro moment member
    obtain ⟨past, chronicle⟩ := Resolver.chronicle_of_mem member
    refine ⟨chronicle.safe (Tree.resolve_recorded sound member), ?_⟩
    have before := chronicle.before.consistent
    have step := chronicle.step_of_cons
    obtain ⟨event, known⟩ := moment
    constructor
    · rintro id scope rfl
      cases step with
      | visited ready _ => exact before.inside scope ready
    · rintro scope symbol rfl
      cases step with
      | bound _ _ done =>
        rw [Forest.size_insert done]
        cases there : (latest names past).scopes.scope scope with
        | ok found => exact Forest.lt_size_of_scope there
        | error fault => simp [Forest.insert, there, Except.map] at done

/-- The tour of the constructs ends with a dump, and all can be asked at every moment of it. -/
theorem Tree.tour_safe : (∃ resolution text,
    (Tree.tour.resolve .empty).outcome = .ok resolution ∧
      resolution.scopes.dump (Tree.tour.resolve .empty).names = .ok text) ∧
    ∀ moment ∈ (Tree.tour.resolve .empty).journal, moment.known.Safe Tree.tour := by
  obtain ⟨outcome, moments⟩ :=
    Tree.resolve_safe Tree.tour .empty Tree.tour_sound (by decide +kernel)
  obtain ⟨resolution, succeeds⟩ := Tree.tour_resolves
  refine ⟨?_, fun moment member => (moments moment member).1⟩
  rcases outcome with shown | ⟨told, fails⟩
  · exact shown
  · cases succeeds.symm.trans fails

end ScopeTyping
