import ScopeTyping.Ty.Operator

/-! Settled types: those that are not waiting to be told, at any depth. Whatever is made of
settled types by joining, by operators or by taking parts is settled. -/
namespace ScopeTyping
namespace Ty

/-- Nothing in the type is yet to be known. -/
def Settled : Ty → Prop
  | absent => False
  | list element => element.Settled
  | map key value => key.Settled ∧ value.Settled
  | _ => True

variable {left right ty : Ty}

theorem Settled.isAbsent (settled : ty.Settled) : ty.isAbsent = false := by
  cases ty with
  | absent => exact settled.elim
  | _ => rfl

theorem Settled.join (one : left.Settled) (other : right.Settled) : (left.join right).Settled := by
  induction left generalizing right with
  | list element step =>
    cases right with
    | list other' => exact step one other
    | _ => simp [Ty.join, Settled]
  | map key value keyStep valueStep =>
    cases right with
    | map otherKey otherValue => exact ⟨keyStep one.1 other.1, valueStep one.2 other.2⟩
    | _ => simp [Ty.join, Settled]
  | absent => exact one.elim
  | _ => cases right <;> simp_all [Ty.join, Settled]

theorem settled_foldl_join {types : List Ty} (first : ty.Settled) (rest : ∀ ty ∈ types, ty.Settled) :
    (types.foldl Ty.join ty).Settled := by
  induction types generalizing ty with
  | nil => exact first
  | cons head tail step =>
    exact step (first.join (rest head (List.mem_cons_self ..)))
      fun later member => rest later (List.mem_cons_of_mem _ member)

theorem settled_joinAll {types : List Ty} (all : ∀ ty ∈ types, ty.Settled) :
    (joinAll types).Settled := by
  cases types with
  | nil => exact True.intro
  | cons first rest =>
    exact settled_foldl_join (all first (List.mem_cons_self ..))
      fun ty member => all ty (List.mem_cons_of_mem _ member)

/-- A signature with settled arguments stands for a settled type. -/
theorem settled_ofSignature? {base : String} {args : List Ty} (all : ∀ ty ∈ args, ty.Settled)
    (known : ofSignature? base args = some ty) : ty.Settled := by
  unfold ofSignature? at known
  split at known
  case h_9 element =>
    cases known
    exact all element (by simp)
  case h_10 key value =>
    cases known
    exact ⟨all key (by simp), all value (by simp)⟩
  all_goals cases known
  all_goals exact True.intro

theorem settled_arithmetic (known : left.arithmetic right = some ty) : ty.Settled := by
  unfold arithmetic at known
  split at known <;> cases known <;> exact True.intro

theorem settled_sum (one : left.Settled) (other : right.Settled) (known : left.sum right = some ty) :
    ty.Settled := by
  unfold sum at known
  split at known
  · cases known
    exact True.intro
  · cases known
    exact True.intro
  · cases known
    exact True.intro
  · split at known
    · cases known
      exact one
    · split at known <;> cases known
      exact other
  · exact settled_arithmetic known

end Ty

variable {left right operand ty : Ty}

theorem BinaryOp.settled_resultType {op : BinaryOp} (one : left.Settled) (other : right.Settled)
    (known : op.resultType left right = some ty) : ty.Settled := by
  cases op with
  | add => exact Ty.settled_sum one other known
  | sub | mul | mod => exact Ty.settled_arithmetic known
  | div =>
    obtain ⟨quotient, found, rfl⟩ := Option.map_eq_some_iff.1 known
    split
    · exact Ty.settled_arithmetic found
    · exact True.intro
  | eq | ne =>
    cases known
    exact True.intro
  | lt | le | gt | ge | and | or =>
    simp only [resultType] at known
    split at known <;> cases known
    exact True.intro

theorem UnaryOp.settled_resultType {op : UnaryOp} (known : op.resultType operand = some ty) :
    ty.Settled := by
  unfold resultType at known
  split at known <;> cases known <;> exact True.intro

end ScopeTyping
