import ScopeTyping.Proofs.Pass.Abreast
import ScopeTyping.Proofs.Pass.Handlers
import ScopeTyping.Proofs.Pass.Likeness
import ScopeTyping.Story

/-! Runs do not depend on how identifiers are spelled, as long as different ones stay
different, nor on the names that were handed out before. Two runs over a story and over the
same story with its identifiers renamed mirror each other from the start, so what is read off
at their ends is alike too. -/
namespace ScopeTyping

variable {f : String → String} {tree : Tree} {one other : NameTable}

/-- Runs that end alike: with resolutions alike, or with errors that tell the same of the same
node. The name of an unknown variable is told renamed, and what is suggested for it may differ
if there are texts that are renamed. -/
inductive Run.Renamed (f : String → String) (run twin : Run) : Prop where
  | resolved {resolution other : Resolution} (ran : run.outcome = .ok resolution)
      (twinRan : twin.outcome = .ok other)
      (same : resolution.Renamed f run.names twin.names other)
  | failed {told other : SemanticError} (ran : run.outcome = .error (.error told))
      (twinRan : twin.outcome = .error (.error other)) (node : other.node = told.node)
      (span : other.span = told.span) (cause : told.cause.Renamed f other.cause)

/-- Whole stories are visited alike. -/
theorem Resolver.visitStory_parallel (sound : tree.Sound) (inside : tree.root.index < tree.size)
    (injective : Function.Injective f) (one other : NameTable) :
    Parallel f (.initial one) (.initial other) 0 (fun _ _ _ => True) tree.resolver.visitStory
      (tree.rename f).resolver.visitStory := by
  have footing : Footing f tree tree.root (.initial one) (.initial other) :=
    ⟨injective, sound, inside, fun _ _ => ⟨rfl, rfl⟩⟩
  have abreast : Abreast f tree tree.root (.initial one) (.initial other) tree.root
      tree.resolver.visit (tree.rename f).resolver.visit :=
    ⟨footing, .refl, fun _ _ _ _ below paired =>
      footing.visit_parallel below.to_reflTransGen fun _ => paired⟩
  unfold visitStory
  refine Parallel.node_bind footing .refl fun node held => ?_
  dsimp only
  rw [Node.kind_rename]
  by_cases story : node.kind = .start
  · rw [if_pos story, if_pos story]
    exact abreast.enclose_parallel .root .none
  · rw [if_neg story, if_neg story]
    exact fun _ _ _ _ _ => Attempt.alike_malformed inside

theorem Tree.resolve_renamed (sound : tree.Sound) (inside : tree.root.index < tree.size)
    (injective : Function.Injective f) (one other : NameTable) :
    (tree.resolve one).Renamed f ((tree.rename f).resolve other) := by
  have both := Resolver.visitStory_parallel sound inside injective one other
    ⟨.initial one, []⟩ ⟨.initial other, []⟩ 0 (Nat.le_refl 0) (.refl f _ _)
  rcases both.strict_cases with ⟨_, _, after, afterwards, ran, twinRan, _, _, mirror, _⟩ |
    ⟨failure, twin, after, afterwards, ran, twinRan, alike⟩
  · have left : tree.resolve one = ⟨.ok after.known.resolution, after.known.names,
        after.journal.reverse⟩ := by
      simp [Tree.resolve, Resolver.run, ran, Except.map]
    have right : (tree.rename f).resolve other = ⟨.ok afterwards.known.resolution,
        afterwards.known.names, afterwards.journal.reverse⟩ := by
      simp [Tree.resolve, Resolver.run, twinRan, Except.map]
    rw [left, right]
    exact .resolved rfl rfl mirror.renamed
  · have left : (tree.resolve one).outcome = .error failure := by
      simp [Tree.resolve, Resolver.run, ran, Except.map]
    have right : ((tree.rename f).resolve other).outcome = .error twin := by
      simp [Tree.resolve, Resolver.run, twinRan, Except.map]
    cases failure with
    | fault fault => exact alike.elim
    | error told =>
      cases twin with
      | fault fault => exact alike.elim
      | error twin => exact .failed left right alike.1 alike.2.1 alike.2.2

/-- Without renaming, runs end alike from whatever names they start. -/
theorem Tree.resolve_alike (sound : tree.Sound) (inside : tree.root.index < tree.size)
    (one other : NameTable) :
    (tree.resolve one).Renamed (fun text => text) (tree.resolve other) := by
  have both := Tree.resolve_renamed (f := fun text => text) sound inside (fun _ _ same => same)
    one other
  rwa [Tree.rename_id] at both

/-- Errors that tell the same without renaming are the same. -/
theorem Run.Renamed.errors {told twin : SemanticError} (node : twin.node = told.node)
    (span : twin.span = told.span) (cause : told.cause.Renamed (fun text => text) twin.cause) :
    twin = told := by
  have alike : (Failure.error told).Renamed (fun text => text) (.error twin) := ⟨node, span, cause⟩
  obtain ⟨_, same, twinSame⟩ := Failure.eq_of_renamed alike
  cases same
  cases twinSame
  rfl

/-- A run that succeeds takes back none of the names that it started with. -/
theorem Tree.resolve_grows {resolution : Resolution}
    (succeeds : (tree.resolve one).outcome = .ok resolution) :
    one.Grows (tree.resolve one).names := by
  rw [show (tree.resolve one).names = _ from (Resolver.run_finished succeeds).1]
  exact Resolver.chronicle_run.lawful.grown

/-- Resolving a story commutes with renaming its identifiers, if no two of them become one, and
does not depend on the names that are handed out already. Both runs succeed with resolutions
alike or fail with errors that tell the same. If no identifier is renamed, both show the same
dump, or the same error with the same suggestions. A run that goes on with the names of a first
one ends like the first one, with the same numbers for the same names. -/
theorem Tree.resolve_equivariant (tree : Tree) (sound : tree.Sound)
    (inside : tree.root.index < tree.size) (f : String → String) (injective : Function.Injective f)
    (one other : NameTable) :
    (tree.resolve one).Renamed f ((tree.rename f).resolve other) ∧
    ((∃ text, (Story.mk tree one).dump.1 = .ok text ∧ (Story.mk tree other).dump.1 = .ok text) ∨
      ∃ told, (tree.resolve one).outcome = .error (.error told) ∧
        (tree.resolve other).outcome = .error (.error told)) ∧
    (tree.resolve (tree.resolve one).names).outcome = (tree.resolve one).outcome := by
  refine ⟨Tree.resolve_renamed sound inside injective one other, ?_, ?_⟩
  · rcases Tree.resolve_alike sound inside one other with ⟨ran, twinRan, same⟩ |
      ⟨ran, twinRan, node, span, cause⟩
    · obtain ⟨text, shown, twinShown⟩ := same.dumps
      refine .inl ⟨text, ?_, ?_⟩
      · simp [Story.dump, Story.resolve, ran, shown, Except.mapError, bind, Except.bind]
      · simp [Story.dump, Story.resolve, twinRan, twinShown, Except.mapError, bind, Except.bind]
    · cases Run.Renamed.errors node span cause
      exact .inr ⟨_, ran, twinRan⟩
  · rcases Tree.resolve_alike sound inside one (tree.resolve one).names with
      ⟨ran, twinRan, same⟩ | ⟨ran, twinRan, node, span, cause⟩
    · rw [ran, twinRan, same.eq_of_grows (Tree.resolve_grows twinRan)]
    · cases Run.Renamed.errors node span cause
      rw [ran, twinRan]

/-- The sample story and the same story with longer identifiers, the second one resolved after
another text has got a name: both have the same scopes, the sample has one dump whatever names
are known, and resolving it once more with its own names changes nothing. -/
theorem Tree.sample_equivariant : ∃ resolution twin text,
    (Tree.sample.resolve .empty).outcome = .ok resolution ∧
    ((Tree.sample.rename ("my_" ++ ·)).resolve (NameTable.empty.intern "y").2).outcome = .ok twin ∧
    resolution.Renamed ("my_" ++ ·) (Tree.sample.resolve .empty).names
      ((Tree.sample.rename ("my_" ++ ·)).resolve (NameTable.empty.intern "y").2).names twin ∧
    (Story.mk Tree.sample .empty).dump.1 = .ok text ∧
    (Story.mk Tree.sample (NameTable.empty.intern "y").2).dump.1 = .ok text ∧
    (Tree.sample.resolve (Tree.sample.resolve .empty).names).outcome = .ok resolution := by
  obtain ⟨resolution, outcome⟩ := Tree.sample_resolves
  have injective : Function.Injective ("my_" ++ · : String → String) :=
    fun _ _ same => (String.append_right_inj "my_").1 same
  obtain ⟨renamed, shown, again⟩ := Tree.resolve_equivariant Tree.sample Tree.sample_sound
    (by decide) ("my_" ++ ·) injective .empty (NameTable.empty.intern "y").2
  cases renamed with
  | failed fails _ _ _ _ => cases outcome.symm.trans fails
  | resolved ran twinRan same =>
    rcases shown with ⟨text, dump, twinDump⟩ | ⟨_, fails, _⟩
    · exact ⟨_, _, text, ran, twinRan, same, dump, twinDump, again.trans ran⟩
    · cases ran.symm.trans fails

end ScopeTyping
