import ScopeTyping.Proofs.Ty.Gradual
import ScopeTyping.Ty.Operator

/-! Forgetting parts of a type. A looser type can be filled in in more ways, so acceptance survives
forgetting on both sides. So does every other reason for which an operator supports its operands:
knowing less of the operands never makes an operator fail. -/
namespace ScopeTyping
namespace Ty

/-- The second type is the first one with some of its parts forgotten, maybe none, maybe all. -/
inductive Loosens : Ty → Ty → Prop where
  | forget (ty : Ty) : Loosens ty any
  | plain {ty : Ty} (plain : ty.isPlain = true) : Loosens ty ty
  | list {element loose : Ty} (elements : Loosens element loose) :
      Loosens (list element) (list loose)
  | map {key value looseKey looseValue : Ty} (keys : Loosens key looseKey)
      (values : Loosens value looseValue) : Loosens (map key value) (map looseKey looseValue)

variable {ty loose left right looseLeft looseRight filled : Ty}

namespace Loosens

/-- Nothing is left to forget of the dynamic type. -/
theorem eq_any (loosens : Loosens any loose) : loose = any := by
  cases loosens with
  | forget _ => rfl
  | plain plain => cases plain

/-- A type without parts is kept or forgotten as a whole. -/
theorem eq_or_any (loosens : Loosens ty loose) (plain : ty.isPlain = true) :
    loose = ty ∨ loose = any := by
  cases loosens with
  | forget _ => exact .inr rfl
  | plain _ => exact .inl rfl
  | list _ | map _ _ => cases plain

/-- What fills in a type fills in every looser one. -/
theorem concretizes (loosens : Loosens ty loose) (fills : Concretizes filled ty) :
    Concretizes filled loose := by
  induction loosens generalizing filled with
  | forget _ => exact .dynamic fills.static
  | plain _ => exact fills
  | list _ step =>
    cases fills with
    | plain plain => cases plain
    | list elements => exact .list (step elements)
  | map _ _ keyStep valueStep =>
    cases fills with
    | plain plain => cases plain
    | map keys values => exact .map (keyStep keys) (valueStep values)

/-- Acceptance survives forgetting on both sides. -/
theorem accepts (one : Loosens left looseLeft) (other : Loosens right looseRight)
    (accepts : left.accepts right = true) : looseLeft.accepts looseRight = true := by
  obtain ⟨filled, filledOther, fills, fillsOther, accepted⟩ := reconcilable_of_accepts accepts
  exact accepts_of_concretizes (one.concretizes fills) (other.concretizes fillsOther) accepted

/-- Of two operands without parts one is forgotten, or both stay what they are. -/
theorem kept_or_any (one : Loosens left looseLeft) (other : Loosens right looseRight)
    (plain : left.isPlain = true) (otherPlain : right.isPlain = true) :
    (looseLeft = left ∧ looseRight = right) ∨ looseLeft = any ∨ looseRight = any := by
  rcases one.eq_or_any plain with kept | forgotten
  · exact (other.eq_or_any otherPlain).imp (fun alsoKept => ⟨kept, alsoKept⟩) .inr
  · exact .inr (.inl forgotten)

end Loosens

/-! ### Conditions and numbers -/

theorem Loosens.isTruthValue (loosens : Loosens ty loose) (truth : ty.isTruthValue = true) :
    loose.isTruthValue = true := by
  cases loosens with
  | forget _ => rfl
  | plain _ => exact truth
  | list _ | map _ _ => cases truth

/-- Whether a value of the type may be a number. -/
def mayBeNumber (ty : Ty) : Bool := ty.isAny || ty.isNumeric

theorem Loosens.mayBeNumber (loosens : Loosens ty loose) (number : ty.mayBeNumber = true) :
    loose.mayBeNumber = true := by
  cases loosens with
  | forget _ => rfl
  | plain _ => exact number
  | list _ | map _ _ => cases number

/-- There is arithmetic between whatever may be numbers. -/
theorem isSome_arithmetic (left right : Ty) :
    (left.arithmetic right).isSome = (left.mayBeNumber && right.mayBeNumber) := by
  cases left <;> cases right <;> rfl

theorem Loosens.arithmetic (one : Loosens left looseLeft) (other : Loosens right looseRight)
    (known : (left.arithmetic right).isSome = true) :
    (looseLeft.arithmetic looseRight).isSome = true := by
  rw [isSome_arithmetic, Bool.and_eq_true] at known ⊢
  exact ⟨one.mayBeNumber known.1, other.mayBeNumber known.2⟩

/-! ### Comparisons -/

theorem comparable_of_any (unknown : left = any ∨ right = any) : left.comparable right = true := by
  rcases unknown with rfl | rfl
  · rfl
  · cases left <;> rfl

/-- Types are compared if one of them is unknown, and otherwise only if neither has parts. -/
theorem comparable_cases (known : left.comparable right = true) :
    (left = any ∨ right = any) ∨ (left.isPlain = true ∧ right.isPlain = true) := by
  by_cases unknown : left = any ∨ right = any
  · exact .inl unknown
  · right
    cases left <;> cases right <;> simp_all [comparable, isAny, isNumeric, isPlain]

theorem Loosens.comparable (one : Loosens left looseLeft) (other : Loosens right looseRight)
    (known : left.comparable right = true) : looseLeft.comparable looseRight = true := by
  rcases comparable_cases known with (rfl | rfl) | ⟨plain, otherPlain⟩
  · exact comparable_of_any (.inl one.eq_any)
  · exact comparable_of_any (.inr other.eq_any)
  · rcases one.kept_or_any other plain otherPlain with ⟨rfl, rfl⟩ | unknown
    · exact known
    · exact comparable_of_any unknown

/-! ### Sums -/

theorem isSome_sum_of_any (unknown : left = any ∨ right = any) :
    (left.sum right).isSome = true := by
  rcases unknown with rfl | rfl
  · rfl
  · cases left <;> rfl

/-- There is a sum of two lists if one of them accepts the other. -/
theorem isSome_sum_list (left right : Ty) : ((list left).sum (list right)).isSome = true ↔
    left.accepts right = true ∨ right.accepts left = true := by
  by_cases forth : left.accepts right = true
  · simp [sum, forth]
  · by_cases back : right.accepts left = true
    · simp [sum, forth, back]
    · simp [sum, forth, back]

/-- There is a sum if one operand is unknown, and otherwise only if neither has parts or both are
lists. -/
theorem sum_cases (known : (left.sum right).isSome = true) :
    (left = any ∨ right = any) ∨ (left.isPlain = true ∧ right.isPlain = true) ∨
      ∃ element other, left = list element ∧ right = list other := by
  by_cases unknown : left = any ∨ right = any
  · exact .inl unknown
  · right
    cases left <;> cases right <;> simp_all [sum, arithmetic, isPlain]

theorem Loosens.sum_list (one : Loosens (Ty.list left) looseLeft)
    (other : Loosens (Ty.list right) looseRight)
    (known : ((Ty.list left).sum (Ty.list right)).isSome = true) :
    (looseLeft.sum looseRight).isSome = true := by
  cases one with
  | forget _ => exact isSome_sum_of_any (.inl rfl)
  | plain plain => cases plain
  | list elements =>
    cases other with
    | forget _ => exact isSome_sum_of_any (.inr rfl)
    | plain plain => cases plain
    | list others =>
      rw [isSome_sum_list] at known ⊢
      exact known.imp (elements.accepts others) (others.accepts elements)

theorem Loosens.sum (one : Loosens left looseLeft) (other : Loosens right looseRight)
    (known : (left.sum right).isSome = true) : (looseLeft.sum looseRight).isSome = true := by
  rcases sum_cases known with (rfl | rfl) | ⟨plain, otherPlain⟩ | ⟨element, further, rfl, rfl⟩
  · exact isSome_sum_of_any (.inl one.eq_any)
  · exact isSome_sum_of_any (.inr other.eq_any)
  · rcases one.kept_or_any other plain otherPlain with ⟨rfl, rfl⟩ | unknown
    · exact known
    · exact isSome_sum_of_any unknown
  · exact one.sum_list other known

/-! ### All operators -/

theorem Loosens.binary (op : BinaryOp) (one : Loosens left looseLeft)
    (other : Loosens right looseRight) (known : (op.resultType left right).isSome = true) :
    (op.resultType looseLeft looseRight).isSome = true := by
  cases op with
  | add => exact one.sum other known
  | sub | mul | mod => exact one.arithmetic other known
  | div =>
    simp only [BinaryOp.resultType, Option.isSome_map] at known ⊢
    exact one.arithmetic other known
  | eq | ne => rfl
  | lt | le | gt | ge =>
    simp only [BinaryOp.resultType, Option.isSome_ite] at known ⊢
    exact one.comparable other known
  | and | or =>
    simp only [BinaryOp.resultType, Option.isSome_ite, Bool.and_eq_true] at known ⊢
    exact ⟨one.isTruthValue known.1, other.isTruthValue known.2⟩

theorem Loosens.unary (op : UnaryOp) (loosens : Loosens ty loose)
    (known : (op.resultType ty).isSome = true) : (op.resultType loose).isSome = true := by
  cases loosens with
  | forget _ => cases op <;> rfl
  | plain _ => exact known
  | list _ | map _ _ => cases op <;> cases known

/-- Forgetting parts of the operands never creates an error: an operator that supports two operands
supports all looser ones, and so does an operator in front of one operand. -/
theorem resultType_of_loosens :
    (∀ (op : BinaryOp) (left right looseLeft looseRight : Ty), Loosens left looseLeft →
      Loosens right looseRight → (op.resultType left right).isSome = true →
        (op.resultType looseLeft looseRight).isSome = true) ∧
    (∀ (op : UnaryOp) (operand loose : Ty), Loosens operand loose →
      (op.resultType operand).isSome = true → (op.resultType loose).isSome = true) := by
  constructor
  · intro op left right looseLeft looseRight one other known
    exact one.binary op other known
  · intro op operand loose loosens known
    exact loosens.unary op known

/-- Lists of maps can be added up if the values of the one map widen to those of the other, and still
can if the keys of both and the values of the one are forgotten. -/
theorem resultType_of_loosens_maps :
    (BinaryOp.add.resultType (list (map any int)) (list (map any any))).isSome = true ∧
    (UnaryOp.neg.resultType any).isSome = true := by
  obtain ⟨binary, unary⟩ := resultType_of_loosens
  constructor
  · exact binary .add (list (map string int)) (list (map string float)) _ _
      (.list (.map (.forget string) (.plain rfl))) (.list (.map (.forget string) (.forget float)))
      rfl
  · exact unary .neg float any (.forget float) rfl

end Ty
end ScopeTyping
