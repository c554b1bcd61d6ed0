import ScopeTyping.Diagnostic.Failure

/-! Reasoning about computations that can fail. `Ensures` says what holds after one run,
whichever way it ends; `Alike` compares two runs step by step. Both follow the shape of
the computation: a sequence of steps is reasoned about one step at a time. -/
namespace ScopeTyping

/-- Where each item has an answer, they are answered together. -/
theorem mapM_eq_pure {m : Type → Type} [Monad m] [LawfulMonad m] {α β : Type} {items : List α}
    {answer : α → m β} {value : α → β} (known : ∀ item ∈ items, answer item = pure (value item)) :
    items.mapM answer = pure (items.map value) := by
  induction items with
  | nil => simp
  | cons item rest step =>
    have others := step fun other member => known other (by simp [member])
    rw [List.mapM_cons, known item (by simp), others]
    simp

/-- Each of the answers to several items is the answer to one of them. -/
theorem mem_of_mapM_eq_some {α β : Type} {items : List α} {answer : α → Option β} {values : List β}
    (answered : items.mapM answer = some values) :
    ∀ value ∈ values, ∃ item ∈ items, answer item = some value := by
  induction items generalizing values with
  | nil =>
    cases answered
    simp
  | cons item rest step =>
    rw [List.mapM_cons] at answered
    obtain ⟨first, known, answered⟩ := Option.bind_eq_some_iff.1 answered
    obtain ⟨others, further, same⟩ := Option.bind_eq_some_iff.1 answered
    cases same
    intro value member
    rcases List.mem_cons.1 member with rfl | among
    · exact ⟨item, by simp, known⟩
    · obtain ⟨source, held, found⟩ := step further value among
      exact ⟨source, by simp [held], found⟩

/-- To discard the value of a computation is to go on without it. -/
theorem discard_eq_bind {m : Type → Type} [Monad m] [LawfulMonad m] {α : Type} (run : m α) :
    discard run = run >>= fun _ => pure () := by
  unfold Functor.discard
  rw [LawfulFunctor.map_const, bind_pure_comp]
  rfl

/-- An answer that is no error is a value. -/
theorem exists_of_isOk {Reason α : Type} {answer : Except Reason α}
    (succeeds : answer.isOk = true) : ∃ value, answer = .ok value := by
  cases answer with
  | ok value => exact ⟨value, rfl⟩
  | error reason => cases succeeds

namespace Fallible

variable {Reason State α β : Type}

/-- A sequence of two steps succeeds through its first step. -/
theorem outcome_bind_eq_ok {first : Fallible Reason State α} {second : α → Fallible Reason State β}
    {state after : State} {result : β} : (first >>= second).outcome state = (.ok result, after) ↔
      ∃ value between, first.outcome state = (.ok value, between) ∧
        (second value).outcome between = (.ok result, after) := by
  rw [outcome_bind]
  rcases first.outcome state with ⟨answer, between⟩
  constructor
  · intro ran
    cases answer with
    | ok value => exact ⟨value, between, rfl, ran⟩
    | error reason => cases ran
  · rintro ⟨value, other, same, ran⟩
    cases same
    exact ran

/-- Whether a computation succeeds can be read off its answer. -/
theorem outcome_of_toOption {attempt : Fallible Reason State α} {state : State} {value : α}
    (answered : (attempt.outcome state).1.toOption = some value) :
    ∃ after, attempt.outcome state = (.ok value, after) := by
  rcases ran : attempt.outcome state with ⟨answer, after⟩
  rw [ran] at answered
  cases answer with
  | ok found =>
    cases answered
    exact ⟨after, rfl⟩
  | error reason => cases answered

theorem outcome_of_isOk {attempt : Fallible Reason State α} {state : State}
    (succeeds : (attempt.outcome state).1.isOk = true) :
    ∃ value after, attempt.outcome state = (.ok value, after) := by
  obtain ⟨value, answered⟩ := exists_of_isOk succeeds
  exact ⟨value, _, Prod.ext answered rfl⟩

end Fallible

namespace Attempt
open Fallible

variable {State α β : Type}

/-! ### Computations that succeed -/

section Success
variable {state last : State} {id : NodeId}

theorem guard_bind_ok {answer : Except Fault α} {next : α → Attempt State β} {result : β}
    (ran : (guard answer >>= next).outcome state = (.ok result, last)) :
    ∃ value, answer = .ok value ∧ (next value).outcome state = (.ok result, last) := by
  cases answer with
  | ok value => exact ⟨value, rfl, ran⟩
  | error fault => cases ran

theorem discard_ok {attempt : Attempt State α}
    (ran : (discard attempt).outcome state = (.ok (), last)) :
    ∃ value, attempt.outcome state = (.ok value, last) := by
  rw [discard_eq_bind] at ran
  obtain ⟨value, between, first, rest⟩ := outcome_bind_eq_ok.1 ran
  cases rest
  exact ⟨value, first⟩

theorem report_fails {tree : Tree} {cause : Cause} {value : α} :
    (report tree id cause : Attempt State α).outcome state ≠ (.ok value, last) := by
  intro ran
  obtain ⟨_, _, thrown⟩ := guard_bind_ok ran
  cases thrown

theorem malformed_fails {tree : Tree} {expected : Kind} {value : α} :
    (malformed tree id expected : Attempt State α).outcome state ≠ (.ok value, last) := by
  intro ran
  obtain ⟨_, _, thrown⟩ := guard_bind_ok ran
  cases thrown

theorem requiredChild_bind_ok {tree : Tree} {kind : Kind} {next : NodeId → Attempt State β}
    {result : β} (ran : (requiredChild tree id kind >>= next).outcome state = (.ok result, last)) :
    ∃ child, tree.child? id kind = .ok (some child) ∧
      (next child).outcome state = (.ok result, last) := by
  obtain ⟨child, between, required, rest⟩ := outcome_bind_eq_ok.1 ran
  obtain ⟨answer, known, found⟩ := guard_bind_ok required
  cases answer with
  | some child =>
    cases found
    exact ⟨child, known, rest⟩
  | none => exact absurd found malformed_fails

/-- Where all items are answered, each one has an answer of its own among the answers. -/
theorem outcome_mapM_eq_ok {items : List α} {next : α → Attempt State β}
    {values : List β} (ran : (items.mapM next).outcome state = (.ok values, last)) :
    ∀ item ∈ items, ∃ value ∈ values, ∃ before later,
      (next item).outcome before = (.ok value, later) := by
  induction items generalizing state values with
  | nil => simp
  | cons item rest step =>
    rw [List.mapM_cons] at ran
    obtain ⟨value, between, first, ran⟩ := outcome_bind_eq_ok.1 ran
    obtain ⟨others, later, further, ran⟩ := outcome_bind_eq_ok.1 ran
    cases ran
    intro other member
    rcases List.mem_cons.1 member with rfl | among
    · exact ⟨value, List.mem_cons_self .., state, between, first⟩
    · obtain ⟨found, held, answered⟩ := step further other among
      exact ⟨found, List.mem_cons_of_mem _ held, answered⟩

theorem outcome_mapM_walk_eq_ok {walk : Walk α} {next : α → Attempt State β}
    {values : List β} (ran : (walk.mapM next).outcome state = (.ok values, last)) :
    ∀ item ∈ walk.items, ∃ value ∈ values, ∃ before later,
      (next item).outcome before = (.ok value, later) := by
  obtain ⟨found, between, each, ended⟩ := outcome_bind_eq_ok.1 ran
  split at ended
  · cases ended
  · cases ended
    exact outcome_mapM_eq_ok each

end Success

/-! ### What one run ensures -/

/-- What holds after a computation that starts from `state`: `done` of its value, or
`failed` of its failure, each with the state that is left behind. -/
def Ensures (attempt : Attempt State α) (state : State) (done : α → State → Prop)
    (failed : Failure → State → Prop) : Prop :=
  match attempt.outcome state with
  | (.ok value, after) => done value after
  | (.error failure, after) => failed failure after

section Ensures
variable {attempt : Attempt State α} {state : State} {done : α → State → Prop}
  {failed : Failure → State → Prop}

theorem ensures_ok {value : α} {after : State} (ensured : attempt.Ensures state done failed)
    (ran : attempt.outcome state = (.ok value, after)) : done value after := by
  simpa only [Ensures, ran] using ensured

theorem ensures_error {failure : Failure} {after : State}
    (ensured : attempt.Ensures state done failed)
    (ran : attempt.outcome state = (.error failure, after)) : failed failure after := by
  simpa only [Ensures, ran] using ensured

/-- What is done if a computation succeeds, and what is so if it fails. -/
theorem ensures_of_outcome
    (ok : ∀ value after, attempt.outcome state = (.ok value, after) → done value after)
    (error : ∀ failure after, attempt.outcome state = (.error failure, after) →
      failed failure after) : attempt.Ensures state done failed := by
  unfold Ensures
  rcases ran : attempt.outcome state with ⟨answer, after⟩
  cases answer with
  | ok value => exact ok value after ran
  | error failure => exact error failure after ran

theorem ensures_pure {value : α} (holds : done value state) :
    (pure value : Attempt State α).Ensures state done failed := holds

theorem ensures_throw {failure : Failure} (holds : failed failure state) :
    (throw failure : Attempt State α).Ensures state done failed := holds

theorem Ensures.weaken {weaker : α → State → Prop} {weakerFailed : Failure → State → Prop}
    (ensured : attempt.Ensures state done failed)
    (value : ∀ value after, done value after → weaker value after)
    (failure : ∀ failure after, failed failure after → weakerFailed failure after) :
    attempt.Ensures state weaker weakerFailed := by
  unfold Ensures at ensured ⊢
  split at ensured
  · exact value _ _ ensured
  · exact failure _ _ ensured

/-- The second of two steps is reasoned about from what the first one ensures. -/
theorem Ensures.bind {next : α → Attempt State β} {result : β → State → Prop}
    (first : attempt.Ensures state done failed)
    (second : ∀ value after, done value after → (next value).Ensures after result failed) :
    (attempt >>= next).Ensures state result failed := by
  unfold Ensures at first ⊢
  rw [outcome_bind]
  rcases ran : attempt.outcome state with ⟨answer, after⟩
  rw [ran] at first
  cases answer with
  | ok value => exact second value after first
  | error failure => exact first

/-- A question that does not concern the state comes first. -/
theorem ensures_guard_bind {answer : Except Fault α} {next : α → Attempt State β}
    {result : β → State → Prop}
    (known : ∀ value, answer = .ok value → (next value).Ensures state result failed)
    (unknown : ∀ fault, failed (.fault fault) state) :
    (guard answer >>= next).Ensures state result failed := by
  cases answer with
  | ok value => exact known value rfl
  | error fault => exact unknown fault

end Ensures

/-! ### Rules for repeated steps

The state stays good from one step to the next, and so do the values. -/

section Repeated
variable {state : State} {inv : State → Prop} {good : β → Prop} {failed : Failure → State → Prop}

theorem ensures_mapM {items : List α} {next : α → Attempt State β} (holds : inv state)
    (each : ∀ item ∈ items, ∀ before, inv before →
      (next item).Ensures before (fun value after => inv after ∧ good value) failed) :
    (items.mapM next).Ensures state (fun values after => inv after ∧
      values.length = items.length ∧ ∀ value ∈ values, good value) failed := by
  induction items generalizing state with
  | nil => exact ensures_pure ⟨holds, rfl, by simp⟩
  | cons item rest step =>
    rw [List.mapM_cons]
    refine (each item (List.mem_cons_self ..) state holds).bind fun value between facts => ?_
    have later := step facts.1 fun other member => each other (List.mem_cons_of_mem _ member)
    refine later.bind fun values after others => ensures_pure ⟨others.1, ?_, ?_⟩
    · simp [others.2.1]
    · intro other member
      rcases List.mem_cons.1 member with rfl | further
      · exact facts.2
      · exact others.2.2 other further

theorem ensures_foldlM {items : List α} {next : β → α → Attempt State β} {first : β}
    (start : good first) (holds : inv state)
    (each : ∀ item ∈ items, ∀ value before, good value → inv before →
      (next value item).Ensures before (fun value after => inv after ∧ good value) failed) :
    (items.foldlM next first).Ensures state (fun value after => inv after ∧ good value) failed := by
  induction items generalizing state first with
  | nil => exact ensures_pure ⟨holds, start⟩
  | cons item rest step =>
    rw [List.foldlM_cons]
    refine (each item (List.mem_cons_self ..) first state start holds).bind fun value _ facts => ?_
    exact step facts.2 facts.1 fun other member => each other (List.mem_cons_of_mem _ member)

theorem ensures_forM {items : List α} {next : α → Attempt State Unit} (holds : inv state)
    (each : ∀ item ∈ items, ∀ before, inv before →
      (next item).Ensures before (fun _ after => inv after) failed) :
    (items.forM next).Ensures state (fun _ after => inv after) failed := by
  induction items generalizing state with
  | nil => exact ensures_pure holds
  | cons item rest step =>
    show (next item >>= fun _ => rest.forM next).Ensures state _ _
    refine (each item (List.mem_cons_self ..) state holds).bind fun _ _ kept => ?_
    exact step kept fun other member => each other (List.mem_cons_of_mem _ member)

/-- What comes after the items of a walk: nothing, unless a fault cut it short. -/
theorem ensures_end {value : β} {done : β → State → Prop} (fault : Option Fault)
    (faults : ∀ fault, failed (.fault fault) state) (holds : done value state) :
    (match fault with
      | some fault => throw (.fault fault)
      | none => pure value : Attempt State β).Ensures state done failed := by
  cases fault with
  | some fault => exact ensures_throw (faults fault)
  | none => exact ensures_pure holds

theorem ensures_mapM_walk {walk : Walk α} {next : α → Attempt State β} (holds : inv state)
    (faults : ∀ fault after, inv after → failed (.fault fault) after)
    (each : ∀ item ∈ walk.items, ∀ before, inv before →
      (next item).Ensures before (fun value after => inv after ∧ good value) failed) :
    (walk.mapM next).Ensures state (fun values after => inv after ∧
      values.length = walk.items.length ∧ ∀ value ∈ values, good value) failed :=
  (ensures_mapM holds each).bind fun _ after facts =>
    ensures_end walk.fault (fun fault => faults fault after facts.1) facts

theorem ensures_foldM_walk {walk : Walk α} {next : β → α → Attempt State β} {first : β}
    (start : good first) (holds : inv state)
    (faults : ∀ fault after, inv after → failed (.fault fault) after)
    (each : ∀ item ∈ walk.items, ∀ value before, good value → inv before →
      (next value item).Ensures before (fun value after => inv after ∧ good value) failed) :
    (walk.foldM next first).Ensures state (fun value after => inv after ∧ good value) failed :=
  (ensures_foldlM start holds each).bind fun _ after facts =>
    ensures_end walk.fault (fun fault => faults fault after facts.1) facts

theorem ensures_forEach {walk : Walk α} {next : α → Attempt State Unit} (holds : inv state)
    (faults : ∀ fault after, inv after → failed (.fault fault) after)
    (each : ∀ item ∈ walk.items, ∀ before, inv before →
      (next item).Ensures before (fun _ after => inv after) failed) :
    (walk.forEach next).Ensures state (fun _ after => inv after) failed :=
  (ensures_forM holds each).bind fun _ after kept =>
    ensures_end walk.fault (fun fault => faults fault after kept) kept

end Repeated

end Attempt

/-! ### Two runs side by side -/

namespace Fallible

variable {Reason Other Left Right α β γ δ : Type}

/-- Two computations from two states end alike: either both with values that `done`
relates, or both with failures that `alike` relates. If the first one ends with a failure
that counts as `loose`, nothing is asked of the second. -/
def Alike (left : Fallible Reason Left α) (right : Fallible Other Right β) (one : Left)
    (other : Right) (done : α → β → Left → Right → Prop) (loose : Reason → Prop)
    (alike : Reason → Other → Prop) : Prop :=
  match left.outcome one, right.outcome other with
  | (.ok value, after), (.ok twin, afterwards) => done value twin after afterwards
  | (.error failure, _), (.error twin, _) => loose failure ∨ alike failure twin
  | (.error failure, _), (.ok _, _) => loose failure
  | (.ok _, _), (.error _, _) => False

section Alike
variable {left : Fallible Reason Left α} {right : Fallible Other Right β} {one : Left}
  {other : Right} {done : α → β → Left → Right → Prop} {loose : Reason → Prop}
  {alike : Reason → Other → Prop}

theorem alike_pure {value : α} {twin : β} (holds : done value twin one other) :
    (pure value : Fallible Reason Left α).Alike (pure twin : Fallible Other Right β) one other done
      loose alike :=
  holds

theorem alike_throw {failure : Reason} {twin : Other} (holds : alike failure twin) :
    (throw failure : Fallible Reason Left α).Alike (throw twin : Fallible Other Right β) one other
      done loose alike := .inr holds

/-- What the second run does is free once the first one has failed loosely. -/
theorem alike_of_loose {failure : Reason} {after : Left} (holds : loose failure)
    (ran : left.outcome one = (.error failure, after)) :
    left.Alike right one other done loose alike := by
  unfold Alike
  rw [ran]
  rcases right.outcome other with ⟨answer, afterwards⟩
  cases answer with
  | ok twin => exact holds
  | error twin => exact .inl holds

theorem Alike.weaken {weaker : α → β → Left → Right → Prop}
    (related : left.Alike right one other done loose alike)
    (value : ∀ value twin after afterwards, done value twin after afterwards →
      weaker value twin after afterwards) :
    left.Alike right one other weaker loose alike := by
  unfold Alike at related ⊢
  split at related
  · exact value _ _ _ _ related
  · exact related
  · exact related
  · exact related

theorem Alike.ok {value : α} {after : Left}
    (related : left.Alike right one other done loose alike)
    (ran : left.outcome one = (.ok value, after)) :
    ∃ twin afterwards, right.outcome other = (.ok twin, afterwards) ∧
      done value twin after afterwards := by
  unfold Alike at related
  rw [ran] at related
  rcases twinRan : right.outcome other with ⟨answer, afterwards⟩
  rw [twinRan] at related
  cases answer with
  | ok twin => exact ⟨twin, afterwards, rfl, related⟩
  | error failure => exact related.elim

/-- If no failure is loose, both computations succeed or both fail. -/
theorem Alike.strict_cases (related : left.Alike right one other done (fun _ => False) alike) :
    (∃ value twin after afterwards, left.outcome one = (.ok value, after) ∧
      right.outcome other = (.ok twin, afterwards) ∧ done value twin after afterwards) ∨
    (∃ failure twin after afterwards, left.outcome one = (.error failure, after) ∧
      right.outcome other = (.error twin, afterwards) ∧ alike failure twin) := by
  unfold Alike at related
  rcases ran : left.outcome one with ⟨answer, after⟩
  rcases twinRan : right.outcome other with ⟨twinAnswer, afterwards⟩
  rw [ran, twinRan] at related
  cases answer with
  | ok value =>
    cases twinAnswer with
    | ok twin => exact .inl ⟨value, twin, after, afterwards, rfl, rfl, related⟩
    | error twin => exact related.elim
  | error failure =>
    cases twinAnswer with
    | ok twin => exact related.elim
    | error twin =>
      exact .inr ⟨failure, twin, after, afterwards, rfl, rfl, related.resolve_left id⟩

/-- Two sequences of steps end alike if their first steps do, and so do their second ones
from wherever the first ones lead. -/
theorem Alike.bind {next : α → Fallible Reason Left γ}
    {follow : β → Fallible Other Right δ} {result : γ → δ → Left → Right → Prop}
    (first : left.Alike right one other done loose alike)
    (second : ∀ value twin after afterwards, done value twin after afterwards →
      (next value).Alike (follow twin) after afterwards result loose alike) :
    (left >>= next).Alike (right >>= follow) one other result loose alike := by
  rcases ran : left.outcome one with ⟨answer, after⟩
  rcases twinRan : right.outcome other with ⟨twinAnswer, afterwards⟩
  have both := first
  unfold Alike at both
  rw [ran, twinRan] at both
  cases answer with
  | ok value =>
    cases twinAnswer with
    | ok twin =>
      have rest := second value twin after afterwards both
      unfold Alike at rest ⊢
      rw [outcome_bind, outcome_bind, ran, twinRan]
      exact rest
    | error twin => exact both.elim
  | error failure =>
    have failed : (left >>= next).outcome one = (.error failure, after) := by
      rw [outcome_bind, ran]
    cases twinAnswer with
    | ok twin => exact alike_of_loose both failed
    | error twin =>
      rcases both with free | same
      · exact alike_of_loose free failed
      · unfold Alike
        rw [failed, outcome_bind, twinRan]
        exact .inr same

theorem Alike.discard (related : left.Alike right one other done loose alike) :
    (discard left).Alike (discard right) one other
      (fun _ _ after afterwards => ∃ value twin, done value twin after afterwards) loose alike := by
  rw [discard_eq_bind, discard_eq_bind]
  exact related.bind fun value twin _ _ holds => alike_pure ⟨value, twin, holds⟩

end Alike
end Fallible
end ScopeTyping
