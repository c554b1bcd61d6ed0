import ScopeTyping.Proofs.Program.Coverage

/-! Constructs that share the scope around them and ask nothing of it can be dissolved: what runs
is their body, in its place. This holds in every context, for a run of a program is put together
from the runs of its parts, and so it holds of the stories that tell the two programs
(`Tree.Tells.resolve_dissolved`). -/
namespace ScopeTyping

/-- Whether a construct only holds its body: its header is not asked about. -/
def Header.isTransparent : Header → Bool
  | .whileBlock _ | .whenBlock _ | .tryBlock => true
  | _ => false

/-- One transparent statement without branches, somewhere in a program, is replaced by the
statements of its body. -/
inductive Dissolves : List Part → List Part → Prop where
  | here {header : Header} (transparent : header.isTransparent = true) (body rest : List Part) :
      Dissolves (.shared header body [] :: rest) (body ++ rest)
  | later {rest dissolved : List Part} (first : Part) (inside : Dissolves rest dissolved) :
      Dissolves (first :: rest) (first :: dissolved)
  | inBody {body dissolved : List Part} (header : Header) (branches rest : List Part)
      (inside : Dissolves body dissolved) :
      Dissolves (.shared header body branches :: rest) (.shared header dissolved branches :: rest)
  | inBranch {branches dissolved : List Part} (header : Header) (body rest : List Part)
      (inside : Dissolves branches dissolved) :
      Dissolves (.shared header body branches :: rest) (.shared header body dissolved :: rest)
  | inScope {body dissolved : List Part} (opening : Opening) (rest : List Part)
      (inside : Dissolves body dissolved) :
      Dissolves (.scoped opening body :: rest) (.scoped opening dissolved :: rest)

namespace Part

variable {program dissolved : List Part} {scope : ScopeId}

/-- Programs run one after another as one program. -/
theorem runAll_append (first second : List Part) : Part.runAll scope (first ++ second) = (do
    let sites ← Part.runAll scope first
    let others ← Part.runAll scope second
    pure (sites ++ others)) := by
  induction first with
  | nil => simp [Part.runAll]
  | cons part rest step =>
    simp only [List.cons_append, Part.runAll, step, bind_assoc, pure_bind, List.append_assoc]

/-- A transparent statement without branches runs as its body does. -/
theorem run_transparent {header : Header} (transparent : header.isTransparent = true)
    (body : List Part) : (Part.shared header body []).run scope = Part.runAll scope body := by
  have silent : header.begin scope = pure () := by cases header <;> first | rfl | cases transparent
  simp [Part.run, silent, Part.runAll]

/-- In every scope, a program runs as it does with a transparent statement dissolved. -/
theorem runAll_dissolved (dissolves : Dissolves program dissolved) (scope : ScopeId) :
    Part.runAll scope program = Part.runAll scope dissolved := by
  induction dissolves generalizing scope with
  | here transparent body rest =>
    rw [runAll_append, Part.runAll, run_transparent transparent]
  | later first _ step => rw [Part.runAll, Part.runAll, step]
  | inBody header branches rest _ step => rw [Part.runAll, Part.runAll, Part.run, Part.run, step]
  | inBranch header body rest _ step => rw [Part.runAll, Part.runAll, Part.run, Part.run, step]
  | inScope opening rest _ step =>
    rw [Part.runAll, Part.runAll, Part.run, Part.run]
    simp only [step]

theorem runProgram_dissolved (dissolves : Dissolves program dissolved) :
    Part.runProgram program = Part.runProgram dissolved := by
  unfold runProgram
  simp only [runAll_dissolved dissolves]

end Part

/-! ### Stories -/

section Stories
variable {tree twin : Tree} {names other : NameTable} {program dissolved : List Part}
  {resolution twinResolution : Resolution}

/-- What a run that succeeded shows. -/
theorem Story.dump_of_resolved {text : String}
    (succeeds : (tree.resolve names).outcome = .ok resolution)
    (shown : resolution.scopes.dump (tree.resolve names).names = .ok text) :
    (Story.mk tree names).dump.1 = .ok text := by
  simp [Story.dump, Story.resolve, succeeds, shown, Except.mapError, bind, Except.bind]

/-- Stories that tell programs which run alike end alike, if they start with the same names. -/
theorem Tree.Tells.resolve_alike (tells : tree.Tells program) (twinTells : twin.Tells dissolved)
    (same : Part.runProgram program = Part.runProgram dissolved) (names : NameTable) :
    (∃ text, (Story.mk tree names).dump.1 = .ok text ∧ (Story.mk twin names).dump.1 = .ok text) ∨
      ∃ told twinTold, (tree.resolve names).outcome = .error (.error told) ∧
        (twin.resolve names).outcome = .error (.error twinTold) ∧ told.cause = twinTold.cause := by
  obtain ⟨sound, once, stands⟩ := tells.laid
  obtain ⟨twinSound, twinOnce, twinStands⟩ := twinTells.laid
  rcases Tree.resolve_enacts sound once stands names with
      ⟨resolution, scene, ran, enacted, scopes, known⟩ | ⟨failure, refusal, _, ran, enacted, reason⟩ <;>
    rcases Tree.resolve_enacts twinSound twinOnce twinStands names with
      ⟨twinResolution, twinScene, twinRan, twinEnacted, twinScopes, twinKnown⟩ |
      ⟨twinFailure, twinRefusal, _, twinRan, twinEnacted, twinReason⟩ <;>
    rw [same] at enacted <;> cases enacted.symm.trans twinEnacted
  · rcases Tree.resolve_alike sound stands.inside names names with ⟨again, _, alike⟩ | ⟨fails, _, _, _, _⟩
    · cases ran.symm.trans again
      obtain ⟨text, shown, _⟩ := alike.dumps
      have twinShown : twinResolution.scopes.dump (twin.resolve names).names = .ok text := by
        rw [twinScopes, twinKnown, ← scopes, ← known]
        exact shown
      exact .inl ⟨text, Story.dump_of_resolved ran shown, Story.dump_of_resolved twinRan twinShown⟩
    · cases ran.symm.trans fails
  · obtain ⟨told, rfl⟩ := Tree.resolve_fails sound stands.inside ran
    obtain ⟨twinTold, rfl⟩ := Tree.resolve_fails twinSound twinStands.inside twinRan
    exact .inr ⟨told, twinTold, ran, twinRan, Sum.inl.inj (reason.trans twinReason.symm)⟩

/-- A story shows what the same story shows that dissolves one of its transparent statements, be it
at the top level or inside branches, loops, handlers or functions: both show the same dump, or both
fail with the same error but for the node that it is told of. Nor do the names matter that are
known beforehand. -/
theorem Tree.Tells.resolve_dissolved (tells : tree.Tells program) (twinTells : twin.Tells dissolved)
    (dissolves : Dissolves program dissolved) (names other : NameTable) :
    (∃ text, (Story.mk tree names).dump.1 = .ok text ∧ (Story.mk twin other).dump.1 = .ok text) ∨
      ∃ told twinTold, (tree.resolve names).outcome = .error (.error told) ∧
        (twin.resolve other).outcome = .error (.error twinTold) ∧ told.cause = twinTold.cause := by
  have alike := tells.resolve_alike twinTells (Part.runProgram_dissolved dissolves) names
  obtain ⟨twinSound, _, twinStands⟩ := twinTells.laid
  rcases Tree.resolve_alike twinSound twinStands.inside names other with
    ⟨ran, otherRan, same⟩ | ⟨ran, otherRan, node, span, cause⟩
  · obtain ⟨text, shown, otherShown⟩ := same.dumps
    rcases alike with ⟨dump, here, there⟩ | ⟨_, _, _, fails, _⟩
    · cases there.symm.trans (Story.dump_of_resolved ran shown)
      exact .inl ⟨_, here, Story.dump_of_resolved otherRan otherShown⟩
    · cases ran.symm.trans fails
  · cases Run.Renamed.errors node span cause
    rcases alike with ⟨dump, _, there⟩ | ⟨told, twinTold, here, there, same⟩
    · simp [Story.dump, Story.resolve, ran, bind, Except.bind] at there
    · cases there.symm.trans ran
      exact .inr ⟨told, _, here, otherRan, same⟩

end Stories

namespace Tree

/-- Steps that build the end of a story: two assignments and a condition. -/
def fork : List Construct := [.path "y", .assign "z" ⟨1⟩, .int 2, .assign "y" ⟨7⟩, .path "x"]

/-- The statements of a story that assigns a variable inside a `while` in a conditional, and uses
it behind the `while`. -/
def detourBody : List (Placed Part) := [
  ⟨⟨35⟩, .assignment "x" [] (.literal .number "1")⟩,
  ⟨⟨29⟩, .shared (.ifBlock (.path "x" []))
    [.shared (.whileBlock (.path "x" [])) [.assignment "y" [] (.literal .number "2")] [],
      .assignment "z" [] (.path "y" [])] []⟩]

/-- The steps that build the story. -/
def detourSteps : List Construct := fork ++ [.whileBlock ⟨14⟩ [⟨12⟩], .path "x",
  .ifBlock ⟨22⟩ [⟨20⟩, ⟨6⟩] [], .int 1, .assign "x" ⟨30⟩]

/-- The statements of the same story without the `while`. -/
def shortcutBody : List (Placed Part) := [
  ⟨⟨28⟩, .assignment "x" [] (.literal .number "1")⟩,
  ⟨⟨22⟩, .shared (.ifBlock (.path "x" []))
    [.assignment "y" [] (.literal .number "2"), .assignment "z" [] (.path "y" [])] []⟩]

/-- The steps that build the story without the `while`. -/
def shortcutSteps : List Construct := fork ++ [.ifBlock ⟨14⟩ [⟨12⟩, ⟨6⟩] [], .int 1, .assign "x" ⟨23⟩]

theorem detour_tells : (planned detourSteps (detourBody.map Placed.id)).Tells
    (detourBody.map Placed.item) := by
  have plans : Plans detourSteps
      [⟨1⟩, ⟨6⟩, ⟨7⟩, ⟨12⟩, ⟨14⟩, ⟨20⟩, ⟨22⟩, ⟨29⟩, ⟨30⟩, ⟨35⟩] []
      (detourBody.map (Placed.as .statement)) :=
    .step (.path "y") rfl <| .step (.assign "z" ⟨⟨1⟩, _⟩) rfl <| .step (.literal rfl) rfl <|
    .step (.assign "y" ⟨⟨7⟩, _⟩) rfl <| .step (.path "x") rfl <|
    .step (.whileBlock ⟨⟨14⟩, _⟩ [⟨⟨12⟩, _⟩]) rfl <| .step (.path "x") rfl <|
    .step (.ifBlock ⟨⟨22⟩, _⟩ [⟨⟨20⟩, _⟩, ⟨⟨6⟩, _⟩] []) rfl <| .step (.literal rfl) rfl <|
    .step (.assign "x" ⟨⟨30⟩, _⟩) rfl .done
  exact planned_tells detourBody [] plans (by decide +kernel) (by decide +kernel)

theorem shortcut_tells : (planned shortcutSteps (shortcutBody.map Placed.id)).Tells
    (shortcutBody.map Placed.item) := by
  have plans : Plans shortcutSteps [⟨1⟩, ⟨6⟩, ⟨7⟩, ⟨12⟩, ⟨14⟩, ⟨22⟩, ⟨23⟩, ⟨28⟩] []
      (shortcutBody.map (Placed.as .statement)) :=
    .step (.path "y") rfl <| .step (.assign "z" ⟨⟨1⟩, _⟩) rfl <| .step (.literal rfl) rfl <|
    .step (.assign "y" ⟨⟨7⟩, _⟩) rfl <| .step (.path "x") rfl <|
    .step (.ifBlock ⟨⟨14⟩, _⟩ [⟨⟨12⟩, _⟩, ⟨⟨6⟩, _⟩] []) rfl <| .step (.literal rfl) rfl <|
    .step (.assign "x" ⟨⟨23⟩, _⟩) rfl .done
  exact planned_tells shortcutBody [] plans (by decide +kernel) (by decide +kernel)

/-- The story shows the same scopes with the `while` as without it. -/
theorem detour_dissolved : ∃ text,
    (Story.mk (planned detourSteps (detourBody.map Placed.id)) .empty).dump.1 = .ok text ∧
    (Story.mk (planned shortcutSteps (shortcutBody.map Placed.id)) .empty).dump.1 = .ok text := by
  have dissolves : Dissolves (detourBody.map Placed.item) (shortcutBody.map Placed.item) :=
    .later _ (.inBody _ _ _ (.here rfl [_] [_]))
  have succeeds : ((planned detourSteps (detourBody.map Placed.id)).resolve .empty).outcome.isOk =
      true := by decide +kernel
  rcases detour_tells.resolve_dissolved shortcut_tells dissolves .empty .empty with
    shown | ⟨_, _, fails, _⟩
  · exact shown
  · rw [fails] at succeeds
    cases succeeds

end Tree
end ScopeTyping
