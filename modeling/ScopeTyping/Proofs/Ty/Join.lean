import Mathlib.Order.Lattice
import ScopeTyping.Proofs.Ty.Gradual

/-! Joining as a least upper bound. A type widens to another one by turning integers into floats
and by giving up what is known, at any depth; this is a partial order, and the join of two types
is the least type that both widen to. So the order in which types are joined does not matter, nor
how often one occurs, and the common type of a collection accepts each of its items. -/
namespace ScopeTyping
namespace Ty

/-- A type widens to another one: integers become floats, and whatever is known may be given up. -/
inductive Widens : Ty → Ty → Prop where
  | dynamic (ty : Ty) : Widens ty any
  | plain {ty : Ty} (plain : ty.isPlain = true) : Widens ty ty
  | number : Widens int float
  | list {element wider : Ty} (elements : Widens element wider) :
      Widens (list element) (list wider)
  | map {key value widerKey widerValue : Ty} (keys : Widens key widerKey)
      (values : Widens value widerValue) : Widens (map key value) (map widerKey widerValue)

namespace Widens

variable {ty wide wider left right bound : Ty}

theorem refl (ty : Ty) : Widens ty ty := by
  induction ty with
  | any => exact .dynamic any
  | list element step => exact .list step
  | map key value keyStep valueStep => exact .map keyStep valueStep
  | _ => exact .plain rfl

theorem trans (first : Widens ty wide) (second : Widens wide wider) : Widens ty wider := by
  induction first generalizing wider with
  | dynamic ty =>
    cases second with
    | dynamic _ => exact .dynamic ty
    | plain plain => cases plain
  | plain _ => exact second
  | number =>
    cases second with
    | dynamic _ => exact .dynamic int
    | plain _ => exact .number
  | list _ step =>
    cases second with
    | dynamic _ => exact .dynamic _
    | plain plain => cases plain
    | list elements => exact .list (step elements)
  | map _ _ keyStep valueStep =>
    cases second with
    | dynamic _ => exact .dynamic _
    | plain plain => cases plain
    | map keys values => exact .map (keyStep keys) (valueStep values)

theorem antisymm (forth : Widens ty wide) (back : Widens wide ty) : ty = wide := by
  induction forth with
  | dynamic ty =>
    cases back with
    | dynamic _ => rfl
    | plain plain => cases plain
  | plain _ => rfl
  | number => cases back
  | list _ step =>
    cases back with
    | plain plain => cases plain
    | list elements => rw [step elements]
  | map _ _ keyStep valueStep =>
    cases back with
    | plain plain => cases plain
    | map keys values => rw [keyStep keys, valueStep values]

/-- A slot of the wider type takes every value of the narrower one. -/
theorem accepts (widens : Widens ty wide) : wide.accepts ty = true := by
  induction widens with
  | dynamic ty => exact any_accepts ty
  | plain _ => exact accepts_refl _
  | number => rfl
  | list _ step => exact step
  | map _ _ keyStep valueStep => exact Bool.and_eq_true_iff.2 ⟨keyStep, valueStep⟩

/-- What widens to a static type is static: nothing is given up on the way. -/
theorem static (widens : Widens ty wide) (static : wide.Static) : ty.Static := by
  induction widens with
  | dynamic _ => exact static.elim
  | plain _ => exact static
  | number => exact True.intro
  | list _ step => exact step static
  | map _ _ keyStep valueStep => exact ⟨keyStep static.1, valueStep static.2⟩

theorem join_left (left right : Ty) : Widens left (left.join right) := by
  induction left generalizing right with
  | list element step =>
    cases right with
    | list other => exact .list (step other)
    | _ => exact .dynamic _
  | map key value keyStep valueStep =>
    cases right with
    | map otherKey otherValue => exact .map (keyStep otherKey) (valueStep otherValue)
    | _ => exact .dynamic _
  | int =>
    cases right with
    | int => exact .refl int
    | float => exact .number
    | _ => exact .dynamic _
  | float =>
    cases right with
    | int | float => exact .refl float
    | _ => exact .dynamic _
  | _ =>
    simp only [join]
    split
    · exact .refl _
    · exact .dynamic _

end Widens

theorem join_comm (left right : Ty) : left.join right = right.join left := by
  induction left generalizing right with
  | list element step =>
    cases right with
    | list other => exact congrArg list (step other)
    | _ => rfl
  | map key value keyStep valueStep =>
    cases right with
    | map otherKey otherValue => exact congrArg₂ map (keyStep otherKey) (valueStep otherValue)
    | _ => rfl
  | _ => cases right <;> rfl

theorem join_any (ty : Ty) : ty.join any = any := by
  cases ty <;> rfl

theorem Widens.join_le (one : Widens left bound) (other : Widens right bound) :
    Widens (left.join right) bound := by
  induction one generalizing right with
  | dynamic _ => exact .dynamic _
  | plain plain =>
    cases other with
    | dynamic _ | list _ | map _ _ => cases plain
    | plain _ =>
      rw [join_self]
      exact .plain plain
    | number => exact .refl float
  | number =>
    cases other with
    | plain _ => exact .refl float
    | number => exact .number
  | list _ step =>
    cases other with
    | plain plain => cases plain
    | list elements => exact .list (step elements)
  | map _ _ keyStep valueStep =>
    cases other with
    | plain plain => cases plain
    | map keys values => exact .map (keyStep keys) (valueStep values)

instance : PartialOrder Ty where
  le := Widens
  le_refl := .refl
  le_trans _ _ _ := Widens.trans
  le_antisymm _ _ := Widens.antisymm

instance : SemilatticeSup Ty where
  sup := join
  le_sup_left := Widens.join_left
  le_sup_right left right := join_comm right left ▸ Widens.join_left right left
  sup_le _ _ _ := Widens.join_le

theorem foldl_join_le_iff {first bound : Ty} {rest : List Ty} :
    rest.foldl join first ≤ bound ↔ first ≤ bound ∧ ∀ ty ∈ rest, ty ≤ bound := by
  induction rest generalizing first with
  | nil => simp
  | cons next rest step =>
    have two : first.join next ≤ bound ↔ first ≤ bound ∧ next ≤ bound := sup_le_iff
    rw [List.foldl_cons, step, two, List.forall_mem_cons, and_assoc]

/-- The common type of a collection is the least one that all of its items widen to. -/
theorem joinAll_le_iff {types : List Ty} {bound : Ty} (some : types ≠ []) :
    joinAll types ≤ bound ↔ ∀ ty ∈ types, ty ≤ bound := by
  cases types with
  | nil => exact absurd rfl some
  | cons first rest => rw [joinAll, foldl_join_le_iff, List.forall_mem_cons]

/-- Only which types occur matters for their common type. -/
theorem joinAll_congr {types others : List Ty} (same : ∀ ty, ty ∈ types ↔ ty ∈ others) :
    joinAll types = joinAll others := by
  by_cases none : types = []
  · subst none
    have alsoNone : others = [] :=
      List.eq_nil_iff_forall_not_mem.2 fun ty member => List.not_mem_nil ((same ty).2 member)
    rw [alsoNone]
  · have someOther : others ≠ [] := by
      obtain ⟨ty, member⟩ := List.exists_mem_of_ne_nil types none
      exact List.ne_nil_of_mem ((same ty).1 member)
    refine eq_of_forall_ge_iff fun bound => ?_
    rw [joinAll_le_iff none, joinAll_le_iff someOther]
    exact forall_congr' fun ty => imp_congr_left (same ty)

theorem accepts_joinAll {types : List Ty} {ty : Ty} (member : ty ∈ types) :
    (joinAll types).accepts ty = true :=
  Widens.accepts ((joinAll_le_iff (List.ne_nil_of_mem member)).1 le_rfl ty member)
end Ty
end ScopeTyping
