import ScopeTyping.Proofs.Ty.Join

/-! Upper bounds of two types by acceptance. Whatever accepts two types accepts their join, so the
join is below every bound. It need not be as precise as the bounds are: an object accepts maps
whose keys have nothing in common, and their join is a map with dynamic keys. If a static type
accepts both without a map standing where it asks for an object, the join is static. -/
namespace ScopeTyping
namespace Ty

variable {bound left right ty : Ty}

/-- What accepts two types accepts their join, which is one of the two, dynamic, or joined part by
part. -/
theorem accepts_join (one : bound.accepts left = true) (other : bound.accepts right = true) :
    bound.accepts (left.join right) = true := by
  induction left generalizing bound right with
  | list element step =>
    cases right with
    | list further =>
      cases bound with
      | any => rfl
      | list slot => exact step one other
      | _ => cases one
    | _ => exact accepts_any bound
  | map key value keyStep valueStep =>
    cases right with
    | map furtherKey furtherValue =>
      cases bound with
      | any | object => rfl
      | map slotKey slotValue =>
        obtain ⟨keyOne, valueOne⟩ := Bool.and_eq_true_iff.1 one
        obtain ⟨keyOther, valueOther⟩ := Bool.and_eq_true_iff.1 other
        exact Bool.and_eq_true_iff.2 ⟨keyStep keyOne keyOther, valueStep valueOne valueOther⟩
      | _ => cases one
    | _ => exact accepts_any bound
  | int =>
    cases right with
    | int => exact one
    | float => exact other
    | _ => exact accepts_any bound
  | float =>
    cases right with
    | int | float => exact one
    | _ => exact accepts_any bound
  | _ =>
    simp only [join]
    split
    · exact one
    · exact accepts_any bound

/-- Whether the first type asks for an object in a place where the second one has a map. -/
def takesMapAsObject : Ty → Ty → Bool
  | object, map _ _ => true
  | list target, list source => target.takesMapAsObject source
  | map targetKey targetValue, map sourceKey sourceValue =>
    targetKey.takesMapAsObject sourceKey || targetValue.takesMapAsObject sourceValue
  | _, _ => false

/-- Among static types acceptance is widening, but for maps that stand for objects. -/
theorem widens_of_accepts (boundStatic : bound.Static) (static : ty.Static)
    (accepts : bound.accepts ty = true) (apart : bound.takesMapAsObject ty = false) :
    Widens ty bound := by
  have takes : Takes bound ty := takes_of_accepts accepts
  clear accepts
  induction takes with
  | anything _ => exact boundStatic.elim
  | unknown _ => exact static.elim
  | plain _ => exact .refl _
  | number => exact .number
  | object _ _ => cases apart
  | list _ step => exact .list (step boundStatic static apart)
  | map _ _ keyStep valueStep =>
    obtain ⟨keysApart, valuesApart⟩ := Bool.or_eq_false_iff.1 apart
    apply Widens.map
    · exact keyStep boundStatic.1 static.1 keysApart
    · exact valueStep boundStatic.2 static.2 valuesApart

/-- The join of two static types is accepted by whatever accepts both of them, and it is static as
soon as some static type accepts both without taking a map of theirs for an object. -/
theorem join_least (left right : Ty) (leftStatic : left.Static) (rightStatic : right.Static) :
    (∀ bound : Ty, bound.accepts left = true → bound.accepts right = true →
      bound.accepts (left.join right) = true) ∧
    ((∃ bound : Ty, bound.Static ∧ bound.accepts left = true ∧ bound.accepts right = true ∧
      bound.takesMapAsObject left = false ∧ bound.takesMapAsObject right = false) →
        (left.join right).Static) := by
  constructor
  · intro bound one other
    exact accepts_join one other
  · rintro ⟨bound, static, one, other, apart, alsoApart⟩
    have leftWidens : Widens left bound := widens_of_accepts static leftStatic one apart
    have rightWidens : Widens right bound := widens_of_accepts static rightStatic other alsoApart
    exact (leftWidens.join_le rightWidens).static static

/-- Maps from strings to lists of integers and of floats: lists of floats take both, and so does
their join, which is static. -/
theorem join_least_maps :
    (map string (list float)).accepts
      ((map string (list int)).join (map string (list float))) = true ∧
    ((map string (list int)).join (map string (list float))).Static := by
  obtain ⟨below, static⟩ := join_least (map string (list int)) (map string (list float))
    ⟨trivial, trivial⟩ ⟨trivial, trivial⟩
  exact ⟨below _ rfl rfl,
    static ⟨map string (list float), ⟨trivial, trivial⟩, rfl, rfl, rfl, rfl⟩⟩

/-- A static bound alone does not make the join static: an object accepts a map with integers and
one with strings for keys, and their join has dynamic keys. -/
theorem join_of_maps_dynamic : ¬ ∀ left right bound : Ty, left.Static → right.Static →
    bound.Static → bound.accepts left = true → bound.accepts right = true →
      (left.join right).Static ∧ bound.accepts (left.join right) = true := by
  intro precise
  obtain ⟨⟨dynamic, _⟩, _⟩ := precise (map int int) (map string int) object
    ⟨trivial, trivial⟩ ⟨trivial, trivial⟩ trivial rfl rfl
  exact dynamic

end Ty
end ScopeTyping
