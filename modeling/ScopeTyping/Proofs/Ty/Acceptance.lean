import ScopeTyping.Ty.Basic

/-! Acceptance as an order. A slot takes a value for one of few reasons, which follow the shape of
the two types (`Takes`). The dynamic type keeps acceptance from being an order, since it goes
between any two types; among static types it is one, from the widest slots to the narrowest. -/
namespace ScopeTyping
namespace Ty

/-- The dynamic type does not occur in the type, at any depth. -/
def Static : Ty → Prop
  | any => False
  | list element => element.Static
  | map key value => key.Static ∧ value.Static
  | _ => True

/-- Whether a type has no parts and is not the dynamic type. -/
def isPlain : Ty → Bool
  | any | list _ | map _ _ => false
  | _ => true

/-- A slot of the first type takes values of the second one. -/
inductive Takes : Ty → Ty → Prop where
  | anything (source : Ty) : Takes any source
  | unknown (target : Ty) : Takes target any
  | plain {ty : Ty} (plain : ty.isPlain = true) : Takes ty ty
  | number : Takes float int
  | object (key value : Ty) : Takes object (map key value)
  | list {target source : Ty} (elements : Takes target source) : Takes (list target) (list source)
  | map {targetKey targetValue sourceKey sourceValue : Ty} (keys : Takes targetKey sourceKey)
      (values : Takes targetValue sourceValue) :
      Takes (map targetKey targetValue) (map sourceKey sourceValue)

variable {target middle source one other : Ty}

theorem Takes.accepts (takes : Takes target source) : target.accepts source = true := by
  induction takes with
  | anything source => exact any_accepts source
  | unknown target => exact accepts_any target
  | plain _ => exact accepts_refl _
  | number => rfl
  | object _ _ => rfl
  | list _ step => exact step
  | map _ _ keyStep valueStep => exact Bool.and_eq_true_iff.2 ⟨keyStep, valueStep⟩

theorem takes_of_accepts (accepts : target.accepts source = true) : Takes target source := by
  induction target generalizing source with
  | any => exact .anything source
  | list element step =>
    cases source with
    | any => exact .unknown _
    | list sourceElement => exact .list (step accepts)
    | _ => cases accepts
  | map key value keyStep valueStep =>
    cases source with
    | any => exact .unknown _
    | map sourceKey sourceValue =>
      obtain ⟨keys, values⟩ := Bool.and_eq_true_iff.1 accepts
      exact .map (keyStep keys) (valueStep values)
    | _ => cases accepts
  | object =>
    cases source with
    | any => exact .unknown _
    | map key value => exact .object key value
    | object => exact .plain rfl
    | _ => cases accepts
  | float =>
    cases source with
    | any => exact .unknown _
    | int => exact .number
    | float => exact .plain rfl
    | _ => cases accepts
  | _ =>
    cases source with
    | any => exact .unknown _
    | _ => first | exact .plain rfl | cases accepts

/-- What a slot takes of a static type, it takes of everything that this type takes. -/
theorem Takes.trans (static : middle.Static) (first : Takes target middle)
    (second : Takes middle source) : Takes target source := by
  induction first generalizing source with
  | anything _ => exact .anything source
  | unknown _ => exact static.elim
  | plain _ => exact second
  | number =>
    cases second with
    | unknown _ => exact .unknown float
    | plain _ => exact .number
  | object _ _ =>
    cases second with
    | unknown _ => exact .unknown Ty.object
    | plain plain => cases plain
    | map _ _ => exact .object _ _
  | list _ step =>
    cases second with
    | unknown _ => exact .unknown _
    | plain plain => cases plain
    | list elements => exact .list (step static elements)
  | map _ _ keyStep valueStep =>
    cases second with
    | unknown _ => exact .unknown _
    | plain plain => cases plain
    | map keys values => exact .map (keyStep static.1 keys) (valueStep static.2 values)

/-- Static types that take each other's values are the same. -/
theorem Takes.antisymm (oneStatic : one.Static) (otherStatic : other.Static)
    (forth : Takes one other) (back : Takes other one) : one = other := by
  induction forth with
  | anything _ => exact oneStatic.elim
  | unknown _ => exact otherStatic.elim
  | plain _ => rfl
  | number => cases back
  | object _ _ => cases back
  | list _ step =>
    cases back with
    | plain plain => cases plain
    | list elements => rw [step oneStatic otherStatic elements]
  | map _ _ keyStep valueStep =>
    cases back with
    | plain plain => cases plain
    | map keys values =>
      rw [keyStep oneStatic.1 otherStatic.1 keys, valueStep oneStatic.2 otherStatic.2 values]

theorem accepts_trans (static : middle.Static) (first : target.accepts middle = true)
    (second : middle.accepts source = true) : target.accepts source = true :=
  ((takes_of_accepts first).trans static (takes_of_accepts second)).accepts

theorem accepts_antisymm (oneStatic : one.Static) (otherStatic : other.Static)
    (forth : one.accepts other = true) (back : other.accepts one = true) : one = other :=
  (takes_of_accepts forth).antisymm oneStatic otherStatic (takes_of_accepts back)

/-- Every type accepts itself; what a static type accepts is accepted by whatever accepts that
static type; and two static types accept each other only if they are the same. So acceptance is a
partial order on static types. -/
theorem accepts_partial_order :
    (∀ ty : Ty, ty.accepts ty = true) ∧
    (∀ wide middle narrow : Ty, middle.Static → wide.accepts middle = true →
      middle.accepts narrow = true → wide.accepts narrow = true) ∧
    (∀ one other : Ty, one.Static → other.Static →
      (one.accepts other = true ∧ other.accepts one = true ↔ one = other)) := by
  refine ⟨accepts_refl, ?_, ?_⟩
  · intro wide middle narrow static first second
    exact accepts_trans static first second
  · intro one other oneStatic otherStatic
    constructor
    · rintro ⟨forth, back⟩
      exact accepts_antisymm oneStatic otherStatic forth back
    · rintro rfl
      exact ⟨accepts_refl one, accepts_refl one⟩

/-- An object slot takes maps to lists of floats, those take maps to lists of integers, and so the
object slot takes these too; lists of integers and lists of floats do not take each other. -/
theorem accepts_partial_order_maps :
    object.accepts (map string (list int)) = true ∧
    ¬ ((list int).accepts (list float) = true ∧ (list float).accepts (list int) = true) := by
  obtain ⟨_, transitive, antisymmetric⟩ := accepts_partial_order
  constructor
  · exact transitive object (map string (list float)) _ ⟨trivial, trivial⟩ rfl rfl
  · exact mt (antisymmetric (list int) (list float) trivial trivial).1 (by decide)

/-- With the dynamic type in between, acceptance leads from every type to every other one. -/
example : string.accepts any = true ∧ any.accepts int = true ∧ string.accepts int = false := by
  decide

end Ty
end ScopeTyping
