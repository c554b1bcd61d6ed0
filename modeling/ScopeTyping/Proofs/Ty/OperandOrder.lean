import ScopeTyping.Proofs.Ty.Acceptance
import ScopeTyping.Ty.Operator

/-! Operands in the other order. Whether an operator supports two operands does not depend on which
of them comes first, and neither does the type of the result, but for one exception: two lists of
different types can accept each other where something in them is not known, and then their sum is of
the type of the left one. -/
namespace ScopeTyping

namespace Ty

variable {left right : Ty}

/-- Lists of different types, each of which accepts the other one. -/
def Rivals (left right : Ty) : Prop :=
  ∃ element other, left = list element ∧ right = list other ∧ element ≠ other ∧
    element.accepts other = true ∧ other.accepts element = true

theorem Rivals.symm (rivals : Rivals left right) : Rivals right left := by
  obtain ⟨element, other, rfl, rfl, apart, forth, back⟩ := rivals
  exact ⟨other, element, rfl, rfl, apart.symm, back, forth⟩

theorem Rivals.ne (rivals : Rivals left right) : left ≠ right := by
  obtain ⟨element, other, rfl, rfl, apart, -⟩ := rivals
  exact fun same => apart (list.inj same)

/-- Static types are no rivals: there is nothing unknown in them to disagree about. -/
theorem Static.not_rivals (leftStatic : left.Static) (rightStatic : right.Static) :
    ¬ Rivals left right := by
  rintro ⟨element, other, rfl, rfl, apart, forth, back⟩
  exact apart (accepts_antisymm leftStatic rightStatic forth back)

theorem arithmetic_comm (left right : Ty) : left.arithmetic right = right.arithmetic left := by
  cases left <;> cases right <;> rfl

theorem comparable_comm (left right : Ty) : left.comparable right = right.comparable left := by
  unfold comparable
  rw [Bool.or_comm left.isAny, Bool.and_comm left.isNumeric, Bool.and_comm (left == string)]

/-- The sum of rivals is of the type of the left one. -/
theorem Rivals.sum_eq (rivals : Rivals left right) : left.sum right = some left := by
  obtain ⟨element, other, rfl, rfl, -, forth, -⟩ := rivals
  simp [sum, forth]

theorem sum_comm (peaceful : ¬ Rivals left right) : left.sum right = right.sum left := by
  cases left with
  | list element =>
    cases right with
    | list other =>
      by_cases same : element = other
      · rw [same]
      · have oneWay : ¬ (element.accepts other = true ∧ other.accepts element = true) :=
          fun both => peaceful ⟨element, other, rfl, rfl, same, both⟩
        simp only [sum]
        split
        · rename_i forth
          rw [if_neg fun back => oneWay ⟨forth, back⟩]
        · rfl
    | _ => rfl
  | _ => cases right <;> rfl

end Ty

namespace BinaryOp
open Ty

variable {op : BinaryOp} {left right : Ty}

theorem resultType_comm (peaceful : ¬ (op = add ∧ Rivals left right)) :
    op.resultType left right = op.resultType right left := by
  cases op with
  | add => exact sum_comm fun rivals => peaceful ⟨rfl, rivals⟩
  | sub | mul | mod => exact arithmetic_comm left right
  | div => exact congrArg (Option.map _) (arithmetic_comm left right)
  | eq | ne => rfl
  | lt | le | gt | ge => simp only [resultType, comparable_comm left right]
  | and | or => simp only [resultType, Bool.and_comm left.isTruthValue]

/-- Operators do not tell the order of static operands. -/
theorem resultType_comm_of_static (op : BinaryOp) (leftStatic : left.Static)
    (rightStatic : right.Static) : op.resultType left right = op.resultType right left :=
  resultType_comm fun both => leftStatic.not_rivals rightStatic both.2

/-- The order of two operands never decides whether an operator supports them. It decides the type of
the result in one case only, that of a sum of two lists which accept each other although their types
differ. -/
theorem resultType_comm_iff (op : BinaryOp) (left right : Ty) :
    (op.resultType left right = op.resultType right left ↔ ¬ (op = add ∧ Rivals left right)) ∧
    (op.resultType left right).isSome = (op.resultType right left).isSome := by
  by_cases rivals : op = add ∧ Rivals left right
  · obtain ⟨rfl, rival⟩ := rivals
    have ofLeft : add.resultType left right = some left := rival.sum_eq
    have ofRight : add.resultType right left = some right := rival.symm.sum_eq
    rw [ofLeft, ofRight]
    refine ⟨⟨fun same => absurd (Option.some.inj same) rival.ne, fun peaceful => ?_⟩, rfl⟩
    exact absurd ⟨rfl, rival⟩ peaceful
  · have same := resultType_comm rivals
    exact ⟨⟨fun _ => rivals, fun _ => same⟩, congrArg Option.isSome same⟩

/-- A list of integers and one of unknown items have sums of different types, one for each order. -/
theorem sum_of_lists_ordered : ¬ ∀ (op : BinaryOp) (left right : Ty),
    op.resultType left right = op.resultType right left := by
  intro ordered
  have same := ordered add (list int) (list any)
  revert same
  decide

end BinaryOp
end ScopeTyping
