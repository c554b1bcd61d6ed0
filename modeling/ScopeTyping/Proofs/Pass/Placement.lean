import ScopeTyping.Proofs.Pass.Chronicle
import ScopeTyping.Proofs.Typing.Sites

/-! Where the pass visits a node. In a tree that places every node once, a node is visited
in the scope of the nearest node around it that has one, whatever scopes are attached later:
a body never gets one, since no node hands its scope to it. -/
namespace ScopeTyping

variable {resolver : Resolver} {names : NameTable} {journal past : List Moment}
  {id function body : NodeId} {scope : ScopeId} {kind : Kind}

namespace Chronicle

/-- What holds of a visited node if it holds of those that were visited before. -/
theorem visited_induction {holds : NodeId → ScopeId → Prop}
    (chronicle : Chronicle resolver names journal)
    (step : ∀ id scope past, past <:+ journal → Ready past scope →
      Handed resolver.tree past id scope →
      (∀ other inner, Happened past (.visited other inner) → holds other inner) → holds id scope) :
    ∀ id scope, Happened journal (.visited id scope) → holds id scope := by
  have along : ∀ past, past <:+ journal → ∀ id scope, Happened past (.visited id scope) →
      holds id scope := by
    intro past grown
    induction past with
    | nil =>
      rintro id scope ⟨moment, impossible, _⟩
      cases impossible
    | cons moment past before =>
      intro id scope happened
      have earlier : past <:+ journal := (List.suffix_cons _ _).trans grown
      rcases happened_cons.1 happened with here | there
      · obtain ⟨event, after⟩ := moment
        cases here
        have taken := (chronicle.of_suffix grown).step_of_cons
        cases taken with
        | visited ready handed => exact step id scope past earlier ready handed (before earlier)
      · exact before earlier id scope there
  exact along journal (List.suffix_refl _)

/-- A scope is attached to a node whose kind opens one, once the node was visited. -/
theorem attached_cases (chronicle : Chronicle resolver names journal)
    (attached : Happened journal (.attached id scope)) :
    ∃ kind, resolver.tree.kind id = .ok kind ∧ kind.opensScope = true ∧
      ((id = resolver.tree.root ∧ kind = .start) ∨ ∃ around, Happened journal (.visited id around)) := by
  obtain ⟨past, after, grown, step⟩ := chronicle.step_of_happened attached
  cases step with
  | attached known opens entered done =>
    have earlier : past <:+ journal := (List.suffix_cons _ _).trans grown
    exact ⟨_, known, opens, entered.imp_right fun ⟨around, visited⟩ =>
      ⟨around, visited.later earlier⟩⟩

/-- A node that hands on a scope was visited, unless it is the root. -/
theorem visited_of_hosts (chronicle : Chronicle resolver names journal)
    (hosts : Hosts resolver.tree journal id scope) :
    id = resolver.tree.root ∨ ∃ around, Happened journal (.visited id around) := by
  obtain ⟨kind, known, happened⟩ := hosts
  by_cases opens : kind.opensScope = true
  · rw [if_pos opens] at happened
    obtain ⟨_, _, _, entered⟩ := chronicle.attached_cases happened
    exact entered.imp_left And.left
  · rw [if_neg opens] at happened
    exact .inr ⟨scope, happened⟩

theorem ready_of_visited (chronicle : Chronicle resolver names journal)
    (visited : Happened journal (.visited id scope)) : Ready journal scope := by
  obtain ⟨past, after, grown, step⟩ := chronicle.step_of_happened visited
  cases step with
  | visited ready _ => exact ready.later ((List.suffix_cons _ _).trans grown)

theorem unattached_of_kind (chronicle : Chronicle resolver names journal)
    (known : resolver.tree.kind id = .ok kind) (shares : kind.opensScope = false) :
    (latest names journal).annotations.get? id = none := by
  cases held : (latest names journal).annotations.get? id with
  | none => rfl
  | some scope =>
    have attached := (chronicle.consistent.attached id scope).1 held
    obtain ⟨other, otherKnown, opens, _⟩ := chronicle.attached_cases attached
    cases known.symm.trans otherKnown
    cases shares.symm.trans opens

/-- The bodies of constructs get no scope. -/
theorem unattached_of_body (chronicle : Chronicle resolver names journal)
    (once : resolver.tree.PlacesOnce) (isBody : resolver.tree.IsBody body) :
    (latest names journal).annotations.get? body = none := by
  cases held : (latest names journal).annotations.get? body with
  | none => rfl
  | some scope =>
    have attached := (chronicle.consistent.attached body scope).1 held
    obtain ⟨kind, known, _, entered⟩ := chronicle.attached_cases attached
    rcases entered with ⟨_, story⟩ | ⟨around, visited⟩
    · obtain ⟨_, _, _, _, found⟩ := isBody
      cases story ▸ known.symm.trans (Tree.child?_eq_ok_some found).2
    · obtain ⟨past, after, _, step⟩ := chronicle.step_of_happened visited
      cases step with
      | visited _ handed =>
        obtain ⟨parent, _, hands⟩ := handed
        exact absurd hands (isBody.not_handed once)

/-- What a node was handed is the scope of the nearest node around it that has one. -/
theorem within_of_visited (chronicle : Chronicle resolver names journal)
    (once : resolver.tree.PlacesOnce) : ∀ id scope, Happened journal (.visited id scope) →
    ∃ parent, resolver.tree.ChildOf id parent ∧
      resolver.tree.Within (latest names journal).annotations parent scope := by
  refine chronicle.visited_induction ?_
  rintro id scope past grown _ ⟨parent, ⟨kind, known, happened⟩, hands⟩ before
  have around : resolver.tree.Within (latest names journal).annotations parent scope := by
    by_cases opens : kind.opensScope = true
    · rw [if_pos opens] at happened
      exact .own ((chronicle.consistent.attached parent scope).2 (happened.later grown))
    · rw [if_neg opens] at happened
      obtain ⟨outer, below, within⟩ := before parent scope happened
      exact .outer (chronicle.unattached_of_kind known (Bool.eq_false_iff.2 opens)) below within
  cases hands with
  | child held _ member => exact ⟨parent, ⟨_, held, member⟩, around⟩
  | branch held _ _ member =>
    exact ⟨parent, ⟨_, held, Tree.mem_children_of_mem_branches member⟩, around⟩
  | @statement node inner body held bodied found bodyHeld member =>
    have free := chronicle.unattached_of_body once ⟨parent, node, held, bodied, found⟩
    exact ⟨body, ⟨inner, bodyHeld, member⟩, .outer free (Tree.child?_eq_ok_some found).1 around⟩

/-- Every visited node stands below the root. -/
theorem below_root (chronicle : Chronicle resolver names journal) :
    ∀ id scope, Happened journal (.visited id scope) →
      Relation.TransGen resolver.tree.ChildOf id resolver.tree.root := by
  refine chronicle.visited_induction ?_
  rintro id scope past grown _ ⟨parent, hosts, hands⟩ before
  rcases (chronicle.of_suffix grown).visited_of_hosts hosts with rfl | ⟨around, visited⟩
  · exact hands.below
  · exact hands.below.trans (before parent around visited)

/-- A node is visited in one scope only. -/
theorem visited_once (chronicle : Chronicle resolver names journal)
    (once : resolver.tree.PlacesOnce) {other : ScopeId}
    (visited : Happened journal (.visited id scope)) (again : Happened journal (.visited id other)) :
    other = scope := by
  obtain ⟨parent, below, within⟩ := chronicle.within_of_visited once id scope visited
  obtain ⟨_, belowAgain, withinAgain⟩ := chronicle.within_of_visited once id other again
  cases once.parent_unique below belowAgain
  exact withinAgain.unique once within

/-- A visited node below a function was handed its scope by the function, step by step. -/
theorem handed_from_function (chronicle : Chronicle resolver names journal)
    (sound : resolver.tree.Sound) (once : resolver.tree.PlacesOnce)
    (isFunction : resolver.tree.kind function = .ok .functionBlock)
    (inside : Relation.TransGen resolver.tree.ChildOf function resolver.tree.root) :
    ∀ id scope, Happened journal (.visited id scope) →
      Relation.TransGen resolver.tree.ChildOf id function →
      Relation.TransGen resolver.tree.Hands function id := by
  refine chronicle.visited_induction ?_
  rintro id scope past grown _ ⟨parent, hosts, hands⟩ before under
  have onwards : resolver.tree.Under parent function →
      Relation.TransGen resolver.tree.Hands function id := by
    intro above
    rcases above.cases_head with rfl | ⟨outer, first, rest⟩
    · exact .single hands
    · have strictly := Relation.TransGen.head' first rest
      rcases (chronicle.of_suffix grown).visited_of_hosts hosts with rfl | ⟨around, visited⟩
      · exact absurd (strictly.trans inside) (sound.acyclic _)
      · exact (before parent around visited strictly).tail hands
  have parentOf : ∀ {node}, resolver.tree.ChildOf id node → resolver.tree.Under node function := by
    intro node below
    obtain ⟨other, first, rest⟩ := Relation.TransGen.head'_iff.1 under
    cases once.parent_unique below first
    exact rest
  cases hands with
  | child held _ member => exact onwards (parentOf ⟨_, held, member⟩)
  | branch held _ _ member =>
    exact onwards (parentOf ⟨_, held, Tree.mem_children_of_mem_branches member⟩)
  | @statement node inner body held bodied found bodyHeld member =>
    obtain ⟨bodyBelow, bodyKind⟩ := Tree.child?_eq_ok_some found
    rcases (parentOf ⟨inner, bodyHeld, member⟩).cases_head with rfl | ⟨other, first, rest⟩
    · cases bodyKind.symm.trans isFunction
    · cases once.parent_unique bodyBelow first
      exact onwards rest

end Chronicle
end ScopeTyping
