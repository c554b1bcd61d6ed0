import Mathlib.Data.List.Chain
import ScopeTyping.Proofs.Pass.Returns
import ScopeTyping.Proofs.Program.Leading
import ScopeTyping.Proofs.Program.Statements

/-! The variables that a story reads. The pass types the values of assignments and the steps of
their targets, the conditions of branches, what loops go through, and what functions return;
in a run that succeeds, every path in these places leads to a symbol of the final scopes, seen
from the one scope in which the statement around it was visited (`Tree.Tells.resolve_reads`).
Nothing is typed in the headers of `while` and `when`, in expressions that stand for themselves
or in returns outside of functions (`Tree.ghosts_unresolved`). -/
namespace ScopeTyping

variable {tree : Tree} {id : NodeId} {scope inner : ScopeId} {kind headerKind : Kind}

/-- What stands at and below a place is read by a statement. -/
inductive Tree.Reads (tree : Tree) (statement : NodeId) : NodeId → Prop where
  | value {place : NodeId} (known : tree.kind statement = .ok .assignment)
      (found : tree.child? statement .assignmentFragment = .ok (some place)) :
      Reads tree statement place
  | step {target place : NodeId} (known : tree.kind statement = .ok .assignment)
      (found : tree.child? statement .path = .ok (some target))
      (below : tree.ChildOf place target) : Reads tree statement place
  | condition {kind header : Kind} {place : NodeId} (known : tree.kind statement = .ok kind)
      (branch : kind.conditionHeader? = some header)
      (found : tree.child? statement header = .ok (some place)) : Reads tree statement place
  | iterable {place : NodeId} (known : tree.kind statement = .ok .foreachBlock)
      (found : tree.child? statement .foreachStatement = .ok (some place)) :
      Reads tree statement place
  | returned {function : NodeId} (known : tree.kind statement = .ok .returnStatement)
      (inside : tree.Under statement function) (isFunction : tree.kind function = .ok .functionBlock)
      (around : tree.Under function tree.root) : Reads tree statement statement

theorem Kind.isStatement_of_conditionHeader? (branch : kind.conditionHeader? = some headerKind) :
    kind.isStatement = true := by
  cases kind <;> first | rfl | cases branch

/-- Only statements read something. -/
theorem Tree.Reads.statement {statement place : NodeId} (reads : tree.Reads statement place) :
    ∃ kind, tree.kind statement = .ok kind ∧ kind.isStatement = true := by
  cases reads with
  | value known _ | step known _ _ | iterable known _ | returned known _ _ _ => exact ⟨_, known, rfl⟩
  | condition known branch _ => exact ⟨_, known, Kind.isStatement_of_conditionHeader? branch⟩

/-! ### What was typed when a statement was visited -/

/-- At some moment of a run at which a scope was ready, every path at or below a node led to a
symbol. -/
def Led (tree : Tree) (names : NameTable) (journal : List Moment) (scope : ScopeId)
    (id : NodeId) : Prop :=
  ∃ past, past <:+ journal ∧ Ready past scope ∧
    LeadsAll ((latest names past).view tree) scope (latest names past).names id

section Entering
variable {resolver : Resolver} {names : NameTable} {journal : List Moment}
  {before after : Progress}

/-- Every node that a task visits is entered, once it was visited. -/
theorem Course.entered {task : Task} (course : Course resolver task before after)
    (visited : Happened after.journal (.visited id scope)) :
    Happened before.journal (.visited id scope) ∨
      ∃ kind inner start entered, resolver.tree.kind id = .ok kind ∧
        Happened start.journal (.visited id scope) ∧
        resolver.Enters id scope start kind inner entered ∧ entered.journal <:+ after.journal := by
  induction course with
  | done => exact .inl visited
  | @next first rest around before between after visit others here later =>
    rcases later visited with earlier | ⟨kind, inner, start, entered, known, seen, enters, grown⟩
    · rcases here earlier with begun | ⟨kind, inner, start, entered, known, seen, enters, grown⟩
      · rcases happened_cons.1 begun with this | old
        · cases this
          cases visit with
          | node known enters _ below leaves =>
            have grown := (below.grown.trans leaves.quiet.grown).trans others.grown
            exact .inr ⟨_, _, _, _, known, .here _, enters, grown⟩
        · exact .inl old
      · exact .inr ⟨kind, inner, start, entered, known, seen, enters, grown.trans others.grown⟩
    · exact .inr ⟨kind, inner, start, entered, known, seen, enters, grown⟩
  | node _ enters _ _ leaves step =>
    rcases step (leaves.quiet.visited_before visited) with
      earlier | ⟨kind, inner, start, entered, known, seen, enters, grown⟩
    · exact .inl (enters.quiet.visited_before earlier)
    · exact .inr ⟨kind, inner, start, entered, known, seen, enters, grown.trans leaves.quiet.grown⟩

/-- The answer to a question was given by the rules, from what was known then. -/
theorem Chronicle.answered {call : Call} {ty : Ty} (chronicle : Chronicle resolver names journal)
    (asks : before.Asks resolver call (.type ty) after) (grown : after.journal <:+ journal) :
    ∃ known, (resolver.answer ((latest names before.journal).view resolver.tree) call).outcome
      (latest names before.journal).names = (.ok (.type ty), known) := by
  have stepped : ∃ known, Step resolver before.journal (latest names before.journal)
      (.asked call (.type ty)) known := by
    cases asks with
    | done _ => exact ⟨_, (chronicle.of_suffix grown).step_of_cons⟩
  obtain ⟨known, step⟩ := stepped
  cases step with
  | answered given => exact ⟨_, given⟩

/-- An expression that was asked about after a statement was visited led to symbols. -/
theorem Chronicle.expression_led {statement : NodeId} {expr : Expr} {ty : Ty}
    (chronicle : Chronicle tree.resolver names journal) (sound : tree.Sound)
    (stands : ExprAt tree.nodes expr id)
    (visited : Happened before.journal (.visited statement scope))
    (asks : before.Asks tree.resolver (.expression id scope) (.type ty) after)
    (grown : after.journal <:+ journal) : Led tree names journal scope id := by
  obtain ⟨known, given⟩ := chronicle.answered asks grown
  have earlier : before.journal <:+ journal := asks.quiet.grown.trans grown
  obtain ⟨found, _, typed, _⟩ := Fallible.outcome_bind_eq_ok.1 given
  have ready := (chronicle.of_suffix earlier).ready_of_visited visited
  exact ⟨before.journal, earlier, ready, Typing.expression_leads sound stands (.refl _) typed⟩

/-- The sides of an assignment were typed when it was entered. -/
theorem Resolver.Enters.weighs (enters : resolver.Enters id scope before .assignment inner after) :
    ∃ path target ty later, resolver.Weighs id scope path target ty before later ∧
      later.journal <:+ after.journal := by
  cases enters with
  | straight straight => cases straight
  | condition branch => cases branch
  | accepted weighs _ _ => exact ⟨_, _, _, _, weighs, List.suffix_refl _⟩
  | introduced weighs _ _ binds => exact ⟨_, _, _, _, weighs, binds.quiet.grown⟩

theorem Led.wrapped {header : NodeId} {text : String} (led : Led tree names journal scope id)
    (shows : Shows tree.nodes header kind text [id]) (apart : kind ≠ .path) :
    Led tree names journal scope header := by
  obtain ⟨past, grown, ready, leads⟩ := led
  refine ⟨past, grown, ready, .node shows (fun same => absurd same apart) ?_⟩
  exact List.forall_mem_singleton.2 leads

variable {statement place : NodeId} {start entered : Progress}

/-- What an assignment reads led to symbols when the assignment was entered. -/
theorem Chronicle.assignment_led (chronicle : Chronicle tree.resolver names journal)
    (sound : tree.Sound) (stands : StatementAt tree.nodes statement .assignment)
    (visited : Happened start.journal (.visited statement scope))
    (enters : tree.resolver.Enters statement scope start .assignment inner entered)
    (grown : entered.journal <:+ journal) :
    (∀ fragment, tree.child? statement .assignmentFragment = .ok (some fragment) →
      Led tree names journal scope fragment) ∧
    ∀ target, tree.child? statement .path = .ok (some target) → ∀ step, tree.ChildOf step target →
      Led tree names journal scope step := by
  obtain ⟨path, target, ty, later, ⟨pathChild, fragment, value, between, fragmentChild, valueChild,
    asksPath, asksValue⟩, sinceLater⟩ := enters.weighs
  have laterGrown := sinceLater.trans grown
  cases stands with
  | @shared _ _ _ header _ same => cases header <;> cases same
  | @opening _ _ _ opening _ headed => cases opening <;> cases headed
  | @assignment targetId fragmentId valueId head keys expr shows left right inner =>
    cases left with
    | @path _ name ids _ _ opens named steps =>
      have targetFound := shows.child? [] targetId [fragmentId] (by simp) opens.kind
      have fragmentFound := Shows.child? [targetId] fragmentId [] shows
        (by simpa using opens.otherKind (by decide)) right.kind
      have valueFound := right.child? [] valueId [] (by simp) inner.kind_wrapped
      cases targetFound.symm.trans pathChild
      cases fragmentFound.symm.trans fragmentChild
      cases valueFound.symm.trans valueChild
      have sincePath := asksValue.quiet.grown.trans laterGrown
      have sinceStart := asksPath.quiet.grown.trans sincePath
      constructor
      · intro fragment found
        cases fragmentChild.symm.trans found
        have visitedThen := visited.later asksPath.quiet.grown
        exact (chronicle.expression_led sound inner visitedThen asksValue laterGrown).wrapped right
          (by decide)
      · intro target found step below
        cases pathChild.symm.trans found
        obtain ⟨known, given⟩ := chronicle.answered asksPath sincePath
        obtain ⟨symbol, _, led, _⟩ := Fallible.outcome_bind_eq_ok.1 given
        have ready := (chronicle.of_suffix sinceStart).ready_of_visited visited
        refine ⟨start.journal, sinceStart, ready, ?_⟩
        -- The variable itself may be new, so only its steps are read.
        rcases List.mem_cons.1 (opens.mem_of_childOf below) with rfl | among
        · exact .name named
        · exact Typing.target_leads sound opens named steps (.refl _) led step among

/-- The condition of a branch led to symbols when the branch was entered. -/
theorem Chronicle.condition_led (chronicle : Chronicle tree.resolver names journal)
    (sound : tree.Sound) (stands : StatementAt tree.nodes statement kind)
    (branch : kind.conditionHeader? = some headerKind)
    (visited : Happened start.journal (.visited statement scope))
    (enters : tree.resolver.Enters statement scope start kind inner entered)
    (grown : entered.journal <:+ journal) {header : NodeId}
    (found : tree.child? statement headerKind = .ok (some header)) :
    Led tree names journal scope header := by
  obtain ⟨head, value, expr, headFound, shows, apart, stands⟩ := stands.condition branch
  cases found.symm.trans headFound
  cases enters with
  | condition branchThere headerChild conditionChild asks =>
    cases branch.symm.trans branchThere
    cases found.symm.trans headerChild
    cases (shows.child? [] value [] (by simp) stands.kind_wrapped).symm.trans conditionChild
    exact (chronicle.expression_led sound stands visited asks grown).wrapped shows apart
  | straight straight => cases (Kind.conditionHeader?_of_straight straight).symm.trans branch
  | story | block | accepted | introduced | loop | function => cases branch

/-- What a loop goes through led to symbols when the loop was entered. -/
theorem Chronicle.iterable_led (chronicle : Chronicle tree.resolver names journal)
    (sound : tree.Sound) (stands : StatementAt tree.nodes statement .foreachBlock)
    (visited : Happened start.journal (.visited statement scope))
    (enters : tree.resolver.Enters statement scope start .foreachBlock inner entered)
    (grown : entered.journal <:+ journal) {header : NodeId}
    (found : tree.child? statement .foreachStatement = .ok (some header)) :
    Led tree names journal scope header := by
  cases stands with
  | @shared _ _ _ header _ same => cases header <;> cases same
  | @opening headerId body _ opening _ headed shows opened held =>
    cases opened with
    | functionBlock => cases headed
    | @foreachBlock _ value output ids iterable _ opens inner outputs named =>
      have headerFound := shows.child? [] headerId [body] (by simp) opens.kind
      have valueFound := opens.child? [] value [output] (by simp) inner.kind_wrapped
      cases headerFound.symm.trans found
      cases enters with
      | straight straight => cases straight
      | condition branch => cases branch
      | @loop _ _ attached asked bound attaches headerChild typed _ _ loopNames =>
        cases found.symm.trans headerChild
        rcases typed with ⟨none, _⟩ | ⟨iterable, ty, valueChild, asks⟩
        · cases none.symm.trans valueFound
        · cases valueFound.symm.trans valueChild
          have visitedThen := visited.later ((start.opening_quiet _ _).trans attaches.quiet).grown
          have sinceAsked : asked.journal <:+ journal :=
            ((loopNames.quiet fun _ _ _ binds => binds.quiet).trans
              (bound.readying_quiet _)).grown.trans grown
          obtain ⟨past, since, ready, leads⟩ :=
            chronicle.expression_led sound inner visitedThen asks sinceAsked
          refine ⟨past, since, ready, .node opens (by simp) ?_⟩
          have beside : LeadsAll ((latest names past).view tree) scope (latest names past).names output :=
            .node outputs (by simp) (forall_of_forall₂ named fun _ _ named => .name named)
          simpa using ⟨leads, beside⟩

/-- What a return gives back led to symbols when the returns of the function around it were
checked. -/
theorem Checked.returned_led {function header body : NodeId} {around : ScopeId} {ty : Ty}
    {past : List Moment} {now : Snapshot}
    (checked : Checked tree.resolver journal function header body inner ty past now)
    (chronicle : Chronicle tree.resolver names journal) (sound : tree.Sound)
    (once : tree.PlacesOnce) (isFunction : tree.kind function = .ok .functionBlock)
    (visitedFunction : Happened journal (.visited function around))
    (below : tree.ReturnBelow body statement)
    (visited : Happened journal (.visited statement scope))
    (stands : StatementAt tree.nodes statement .returnStatement) :
    Led tree names journal scope statement := by
  have grown : past <:+ journal := (List.suffix_cons _ _).trans checked.accepted
  have before := chronicle.of_suffix grown
  obtain ⟨_, after, ran⟩ := checked.ran chronicle
  obtain ⟨whole, all⟩ := Typing.checkReturns_accepts before.lawful.settled ran
  have visitedEarly :=
    checked.visited_before chronicle sound once isFunction visitedFunction below visited
  have site := (checked.mem_sites_iff before once isFunction whole below visitedEarly scope).2 rfl
  obtain ⟨found, known, last, since, typed, _⟩ := all (statement, scope) site
  refine ⟨past, grown, before.ready_of_visited visitedEarly, ?_⟩
  obtain ⟨value, ids, shows, inner⟩ := stands.of_return
  refine .node shows (by simp) ?_
  cases value with
  | none =>
    cases inner
    simp
  | some expr =>
    cases inner with
    | @cons _ value _ _ inner others =>
      cases others
      have valueFound : tree.child? statement .baseExpression = .ok (some value) :=
        shows.child? [] value [] (by simp) inner.kind_wrapped
      simp only [Typing.returned, Snapshot.view, valueFound, Attempt.guard, pure_bind] at typed
      exact List.forall_mem_singleton.2 (Typing.expression_leads sound inner since typed)

end Entering

/-! ### Whole stories -/

section Runs
variable {names : NameTable} {resolution : Resolution} {program : List Part}
  {statement place path : NodeId}

/-- What a statement reads led to symbols at some moment of a run that succeeds. -/
theorem Resolver.Ends.led {after : Progress} (ends : tree.resolver.Ends names resolution after)
    (succeeds : (tree.resolver.run names).outcome = .ok resolution) (sound : tree.Sound)
    (once : tree.PlacesOnce) (stands : ProgramAt tree.nodes program tree.root)
    (inside : tree.Under statement tree.root) (reads : tree.Reads statement place)
    (visited : Happened after.journal (.visited statement scope)) :
    Led tree names after.journal scope place := by
  have chronicle := ends.kept.chronicle
  have covers := ends.covers stands
  have entered : ∃ kind inner start entered, tree.kind statement = .ok kind ∧
      Happened start.journal (.visited statement scope) ∧
      tree.resolver.Enters statement scope start kind inner entered ∧
      entered.journal <:+ after.journal := by
    rcases ends.course.entered visited with impossible | entered
    · simp [Happened] at impossible
    · exact entered
  obtain ⟨kind, inner, start, finish, known, seen, enters, grown⟩ := entered
  cases reads with
  | value assignment found =>
    cases known.symm.trans assignment
    have stands := covers.statement inside known rfl
    exact (chronicle.assignment_led sound stands seen enters grown).1 place found
  | step assignment found below =>
    cases known.symm.trans assignment
    have stands := covers.statement inside known rfl
    exact (chronicle.assignment_led sound stands seen enters grown).2 _ found place below
  | condition branching branch found =>
    cases known.symm.trans branching
    have stands := covers.statement inside known (Kind.isStatement_of_conditionHeader? branch)
    exact chronicle.condition_led sound stands branch seen enters grown found
  | iterable loop found =>
    cases known.symm.trans loop
    have stands := covers.statement inside known rfl
    exact chronicle.iterable_led sound stands seen enters grown found
  | returned isReturn below isFunction around =>
    obtain ⟨nearest, nearestInside, known, body, bodyChild, among⟩ :=
      covers.nearest_function isReturn below isFunction around
    obtain ⟨⟨_, visitedNearest⟩, _⟩ := covers nearest .functionBlock nearestInside known rfl
    obtain ⟨_, _, finished⟩ := Resolver.run_finished succeeds
    rw [ends.history] at finished
    obtain ⟨header, other, inner, ty, past, now, checked⟩ := (finished nearest _ visitedNearest).2 known
    cases bodyChild.symm.trans checked.bodyChild
    -- Returns are typed when the function ends, not when they are visited.
    exact checked.returned_led chronicle sound once known visitedNearest among visited
      (covers.statement inside isReturn rfl)

/-- Every variable that a resolved story reads resolves. Where the run succeeds, each statement
that reads something was visited in exactly one scope, and every path in what it reads leads to
a symbol of the final scopes as seen from there. -/
theorem Tree.Tells.resolve_reads (tells : tree.Tells program)
    (succeeds : (tree.resolve names).outcome = .ok resolution)
    (inside : tree.Under statement tree.root) (reads : tree.Reads statement place)
    (under : tree.Under path place) (isPath : tree.kind path = .ok .path) :
    ∃ scope, (∀ other, Happened (tree.resolve names).journal (.visited statement other) ↔
        other = scope) ∧
      ∃ symbol after, (Typing.path (resolution.view tree) scope path true).outcome
        (tree.resolve names).names = (.ok symbol, after) := by
  obtain ⟨sound, once, stands⟩ := tells.laid
  obtain ⟨after, ends⟩ := tree.resolver.run_ends succeeds
  have chronicle := ends.kept.chronicle
  obtain ⟨kind, known, isStatement⟩ := reads.statement
  obtain ⟨⟨scope, visited⟩, _⟩ := ends.covers stands statement kind inside known isStatement
  refine ⟨scope, fun other => ?_, ?_⟩
  · refine ends.happened_iff.trans ⟨chronicle.visited_once once visited, ?_⟩
    rintro rfl
    exact visited
  · obtain ⟨past, grown, ready, leads⟩ := ends.led succeeds sound once stands inside reads visited
    obtain ⟨_, held, _⟩ := Tree.node_of_kind isPath
    have view : resolution.view tree = (latest names after.journal).view tree := by
      rw [ends.resolution, ends.kept.current]
      rfl
    have sameNames : (tree.resolve names).names = (latest names after.journal).names := by
      rw [← ends.kept.current]
      exact ends.namesLeft
    rw [view, sameNames]
    exact chronicle.leads_persists grown ready sound (Tree.lt_size_of_node held)
      (leads path under isPath)

end Runs

namespace Tree

/-- The loop of the story binds its last item, which resolves in the scope of the loop. -/
theorem sketch_reads : ∃ resolution, (sketch.resolve .empty).outcome = .ok resolution ∧
    sketch.Under ⟨17⟩ sketch.root ∧ sketch.Reads ⟨17⟩ ⟨16⟩ ∧ sketch.Under ⟨12⟩ ⟨16⟩ ∧
    sketch.kind ⟨12⟩ = .ok .path ∧
    ∃ scope, (∀ other, Happened (sketch.resolve .empty).journal (.visited ⟨17⟩ other) ↔
        other = scope) ∧
      ∃ symbol after, (Typing.path (resolution.view sketch) scope ⟨12⟩ true).outcome
        (sketch.resolve .empty).names = (.ok symbol, after) := by
  obtain ⟨resolution, succeeds⟩ := sketch_resolves
  have inside : sketch.Under ⟨17⟩ sketch.root :=
    List.relationReflTransGen_of_exists_isChain_cons [⟨24⟩, ⟨25⟩, ⟨26⟩, ⟨27⟩, ⟨36⟩, ⟨38⟩]
      (by decide +kernel) (by decide +kernel)
  have reads : sketch.Reads ⟨17⟩ ⟨16⟩ := .value (by decide +kernel) (by decide +kernel)
  have under : sketch.Under ⟨12⟩ ⟨16⟩ :=
    List.relationReflTransGen_of_exists_isChain_cons [⟨15⟩, ⟨16⟩] (by decide +kernel) rfl
  have isPath : sketch.kind ⟨12⟩ = .ok .path := by decide +kernel
  exact ⟨resolution, succeeds, inside, reads, under, isPath,
    sketch_tells.resolve_reads succeeds inside reads under isPath⟩

/-- Steps that build a story from its end: the subject of a `when`, the condition of a `while`, a
return outside of functions and an expression that stands for itself. -/
def ghostSteps : List Construct := [.path "ghost", .whenBlock ⟨1⟩ [], .path "ghost",
  .whileBlock ⟨7⟩ [], .path "ghost", .returnStatement (some ⟨13⟩), .path "ghost",
  .absoluteExpression ⟨17⟩]

/-- The statements of the story, which binds nothing. -/
def ghostBody : List (Placed Part) := [
  ⟨⟨19⟩, .evaluated (.path "ghost" [])⟩,
  ⟨⟨15⟩, .returned (some (.path "ghost" []))⟩,
  ⟨⟨11⟩, .shared (.whileBlock (.path "ghost" [])) [] []⟩,
  ⟨⟨5⟩, .shared (.whenBlock (.path "ghost" [])) [] []⟩]

/-- The story that the steps build. -/
def ghosts : Tree := planned ghostSteps (ghostBody.map Placed.id)

/-- Each statement of the story with the path in it. -/
def ghostPaths : List (NodeId × NodeId) := [(⟨19⟩, ⟨17⟩), (⟨15⟩, ⟨13⟩), (⟨11⟩, ⟨7⟩), (⟨5⟩, ⟨1⟩)]

/-- The story resolves, though none of its variables does in the scope of its statement. -/
theorem ghosts_unresolved : ghosts.Tells (ghostBody.map Placed.item) ∧
    ∃ resolution, (ghosts.resolve .empty).outcome = .ok resolution ∧
      ∀ statement path, (statement, path) ∈ ghostPaths →
        ghosts.Under path statement ∧ ghosts.kind path = .ok .path ∧
        Happened (ghosts.resolve .empty).journal (.visited statement ⟨0⟩) ∧
        ∀ symbol after, (Typing.path (resolution.view ghosts) ⟨0⟩ path true).outcome
          (ghosts.resolve .empty).names ≠ (.ok symbol, after) := by
  have plans : Plans ghostSteps [⟨1⟩, ⟨5⟩, ⟨7⟩, ⟨11⟩, ⟨13⟩, ⟨15⟩, ⟨17⟩, ⟨19⟩] []
      (ghostBody.map (Placed.as .statement)) :=
    .step (.path "ghost") rfl <| .step (.whenBlock ⟨⟨1⟩, _⟩ []) rfl <|
    .step (.path "ghost") rfl <| .step (.whileBlock ⟨⟨7⟩, _⟩ []) rfl <|
    .step (.path "ghost") rfl <| .step (.returnStatement (some ⟨⟨13⟩, _⟩)) rfl <|
    .step (.path "ghost") rfl <| .step (.absoluteExpression ⟨⟨17⟩, _⟩) rfl .done
  refine ⟨planned_tells ghostBody [] plans (by decide +kernel) (by decide +kernel), ?_⟩
  obtain ⟨resolution, outcome⟩ : ∃ resolution, (ghosts.resolve .empty).outcome = .ok resolution :=
    exists_of_isOk (by decide +kernel)
  have unbound : ∀ resolution ∈ (ghosts.resolve .empty).outcome.toOption, ∀ place ∈ ghostPaths,
      ((Typing.path (resolution.view ghosts) ⟨0⟩ place.2 true).outcome
        (ghosts.resolve .empty).names).1.isOk = false := by decide +kernel
  have visited : ∀ place ∈ ghostPaths, ghosts.kind place.2 = .ok .path ∧
      Happened (ghosts.resolve .empty).journal (.visited place.1 ⟨0⟩) := by decide +kernel
  have under : ∀ statement path, (statement, path) ∈ ghostPaths → ghosts.Under path statement := by
    simp only [ghostPaths, List.mem_cons, List.not_mem_nil, or_false, Prod.mk.injEq]
    rintro _ _ (⟨rfl, rfl⟩ | ⟨rfl, rfl⟩ | ⟨rfl, rfl⟩ | ⟨rfl, rfl⟩)
    · exact List.relationReflTransGen_of_exists_isChain_cons [⟨18⟩, ⟨19⟩] (by decide +kernel) rfl
    · exact List.relationReflTransGen_of_exists_isChain_cons [⟨14⟩, ⟨15⟩] (by decide +kernel) rfl
    · exact List.relationReflTransGen_of_exists_isChain_cons [⟨8⟩, ⟨9⟩, ⟨11⟩] (by decide +kernel) rfl
    · exact List.relationReflTransGen_of_exists_isChain_cons [⟨2⟩, ⟨3⟩, ⟨5⟩] (by decide +kernel) rfl
  refine ⟨resolution, outcome, fun statement path member => ?_⟩
  obtain ⟨isPath, here⟩ := visited _ member
  refine ⟨under _ _ member, isPath, here, fun symbol after led => ?_⟩
  have fails := unbound resolution (by rw [outcome]; rfl) _ member
  rw [led] at fails
  cases fails

end Tree
end ScopeTyping
