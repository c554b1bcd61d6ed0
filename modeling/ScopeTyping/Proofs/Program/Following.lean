import ScopeTyping.Proofs.Outcome
import ScopeTyping.Proofs.Program.Meaning

/-! Computations over a tree that follow readings of a program. Both end with a value, or both
fail for the same reason, which is the cause of an error without the node that it is told of.
The rules go along the shape of the two computations, a pair of steps at a time. -/
namespace ScopeTyping

/-- Why a computation failed, wherever that was. -/
def Failure.reason : Failure → Cause ⊕ Fault
  | .error told => .inl told.cause
  | .fault found => .inr found

/-- Why a reading failed. -/
def Refusal.reason : Refusal → Cause ⊕ Fault
  | .cause found _ => .inl found
  | .fault found => .inr found

/-- No program is refused for the shape of its tree. -/
theorem Refusal.not_ofShape {refusal : Refusal} {cause : Cause}
    (same : refusal.reason = .inl cause) : cause.ofShape = false := by
  cases refusal with
  | cause found ofProgram =>
    cases same
    exact ofProgram
  | fault fault => cases same

namespace Attempt
open Fallible

variable {Left Right α β γ : Type} {attempt : Attempt Left α} {reading : Reading Right β}
  {one : Left} {other : Right} {done : α → β → Left → Right → Prop}

/-- A computation ends as a reading does: with values that `done` relates, or for one reason. -/
def Follows (attempt : Attempt Left α) (reading : Reading Right β) (one : Left) (other : Right)
    (done : α → β → Left → Right → Prop) : Prop :=
  attempt.Alike reading one other done (fun _ => False)
    fun failure refusal => failure.reason = refusal.reason

theorem follows_throw {failure : Failure} {refusal : Refusal}
    (same : failure.reason = refusal.reason) :
    (throw failure : Attempt Left α).Follows (throw refusal : Reading Right β) one other done :=
  alike_throw same

/-- A step of the computation that has no counterpart in the reading. -/
theorem follows_of_outcome {next : α → Attempt Left γ} {value : α} {after : Left}
    {result : γ → β → Left → Right → Prop} (ran : attempt.outcome one = (.ok value, after))
    (rest : (next value).Follows reading after other result) :
    (attempt >>= next).Follows reading one other result := by
  unfold Follows Alike at rest ⊢
  rw [outcome_bind, ran]
  exact rest

end Attempt

/-! ### Typing that follows a reading of types -/

namespace Typing

variable {α β ι κ : Type}

/-- Typing answers what a reading of types answers, with the same names afterwards. -/
def Agrees (typing : Typing α) (reading : TypeReading α) : Prop :=
  ∀ names, typing.Follows reading names names fun value twin after afterwards =>
    value = twin ∧ after = afterwards

namespace Agrees

variable {typing : Typing α} {reading : TypeReading α}

theorem pure (value : α) : Agrees (Pure.pure value) (Pure.pure value) := fun _ => ⟨rfl, rfl⟩

theorem congr {other : TypeReading α} (agrees : Agrees typing reading) (same : reading = other) :
    Agrees typing other := same ▸ agrees

theorem bind {next : α → Typing β} {twinNext : α → TypeReading β} (first : Agrees typing reading)
    (second : ∀ value, Agrees (next value) (twinNext value)) :
    Agrees (typing >>= next) (reading >>= twinNext) := by
  intro names
  refine (first names).bind ?_
  rintro value _ after _ ⟨rfl, rfl⟩
  exact second value after

theorem discard (agrees : Agrees typing reading) : Agrees (discard typing) (discard reading) := by
  intro names
  exact (agrees names).discard.weaken fun _ _ _ _ ⟨_, _, _, same⟩ => ⟨rfl, same⟩

theorem guard (answer : Except Fault α) : Agrees (Attempt.guard answer) (Reading.guard answer) := by
  cases answer with
  | ok value => exact pure value
  | error fault => exact fun _ => Attempt.follows_throw rfl

theorem intern (text : String) : Agrees (Typing.intern text) (TypeReading.intern text) :=
  fun _ => ⟨rfl, rfl⟩

theorem textOf (name : Name) : Agrees (Typing.textOf name) (TypeReading.textOf name) := by
  intro names
  exact guard (names.text name) names

theorem report {tree : Tree} {id : NodeId} {node : Node} {cause : Cause}
    {ofProgram : cause.ofShape = false} (held : tree.node id = .ok node) :
    Agrees (Attempt.report tree id cause : Typing α) (Reading.refuse cause ofProgram) := by
  intro names
  unfold Attempt.report SemanticError.atNode
  rw [held]
  exact Attempt.follows_throw rfl

/-- Items are gone through in step with what they stand for. -/
theorem mapM {items : List ι} {others : List κ} {each : ι → Typing α} {twin : κ → TypeReading α}
    (inner : List.Forall₂ (fun other item => Agrees (each item) (twin other)) others items) :
    Agrees (items.mapM each) (others.mapM twin) := by
  induction inner with
  | nil => exact pure []
  | cons first _ step =>
    rw [List.mapM_cons, List.mapM_cons]
    exact first.bind fun value => step.bind fun values => pure (value :: values)

theorem forM {items : List ι} {others : List κ} {each : ι → Typing Unit}
    {twin : κ → TypeReading Unit}
    (inner : List.Forall₂ (fun other item => Agrees (each item) (twin other)) others items) :
    Agrees (items.forM each) (others.forM twin) := by
  induction inner with
  | nil => exact pure ()
  | cons first _ step => exact first.bind fun _ => step

end Agrees
end Typing
end ScopeTyping
