import ScopeTyping.Proofs.Pass.Abreast

/-! Functions are isolated. Whatever was bound before and wherever a function stands, visiting
it opens the same scopes with the same bindings, or fails with the same error. -/
namespace ScopeTyping

/-- Visiting a function from any two states in which nothing below it has a scope ends alike:
with one error, or with the same scopes opened and attached to the same nodes. -/
theorem Tree.visit_function_isolated (tree : Tree) (sound : tree.Sound) {function : NodeId}
    (isFunction : tree.kind function = .ok .functionBlock) (here there : ScopeId)
    (one other : Progress)
    (bare : ∀ id, tree.Under id function →
      one.known.annotations.get? id = none ∧ other.known.annotations.get? id = none) :
    (∃ error after afterwards,
      (tree.resolver.visit function here).outcome one = (.error (.error error), after) ∧
      (tree.resolver.visit function there).outcome other = (.error (.error error), afterwards)) ∨
    (∃ after afterwards count,
      (tree.resolver.visit function here).outcome one = (.ok (), after) ∧
      (tree.resolver.visit function there).outcome other = (.ok (), afterwards) ∧
      Mirror (fun text => text) one.known other.known after.known afterwards.known count) := by
  obtain ⟨node, held, _⟩ := Tree.node_of_kind isFunction
  have footing : Footing (fun text => text) tree function one.known other.known :=
    ⟨fun _ _ same => same, sound, Tree.lt_size_of_node held, bare⟩
  have around : tree.kind function ≠ .ok .functionBlock →
      Paired one.known other.known 0 here there := fun differs => absurd isFunction differs
  have both := footing.visit_parallel .refl around one other 0 (Nat.zero_le 0) (.refl _ _ _)
  rw [Tree.rename_id] at both
  rcases both.strict_cases with ⟨_, _, after, afterwards, ran, twinRan, count, _, mirror, _⟩ |
    ⟨failure, twin, after, afterwards, ran, twinRan, told⟩
  · exact .inr ⟨after, afterwards, count, ran, twinRan, mirror⟩
  · obtain ⟨error, rfl, rfl⟩ := Failure.eq_of_renamed told
    exact .inl ⟨error, after, afterwards, ran, twinRan⟩

/-- The function of the sample story, visited before anything is known and from inside a story
that has given names to other texts. -/
theorem Tree.sample_isolated : ∃ after afterwards count,
    (Tree.sample.resolver.visit ⟨19⟩ ⟨0⟩).outcome ⟨.initial .empty, []⟩ = (.ok (), after) ∧
    (Tree.sample.resolver.visit ⟨19⟩ ⟨7⟩).outcome
      ⟨⟨(NameTable.empty.intern "y").2, (Forest.empty.create none .root).2, .empty⟩, []⟩ =
        (.ok (), afterwards) ∧
    Mirror (fun text => text) (.initial .empty)
      ⟨(NameTable.empty.intern "y").2, (Forest.empty.create none .root).2, .empty⟩
      after.known afterwards.known count := by
  have succeeds : ((Tree.sample.resolver.visit ⟨19⟩ ⟨0⟩).outcome
      ⟨.initial .empty, []⟩).1.isOk = true := by decide +kernel
  have isFunction : Tree.sample.kind ⟨19⟩ = .ok .functionBlock := rfl
  rcases Tree.visit_function_isolated Tree.sample Tree.sample_sound isFunction ⟨0⟩ ⟨7⟩
    ⟨.initial .empty, []⟩
    ⟨⟨(NameTable.empty.intern "y").2, (Forest.empty.create none .root).2, .empty⟩, []⟩
    (fun _ _ => ⟨rfl, rfl⟩) with ⟨error, after, _, fails, _⟩ | done
  · rw [fails] at succeeds
    cases succeeds
  · exact done

end ScopeTyping
