import ScopeTyping.Proofs.Ty.Acceptance

/-! The dynamic type stands for every type that could be written in its place. A type with
dynamic parts is read as the static types that come of filling them in, each part on its own,
and one type accepts another one exactly if it does so for some way of filling in both. -/
namespace ScopeTyping
namespace Ty

/-- A type comes of another one by putting a static type in the place of every occurrence of
the dynamic type, not necessarily the same one everywhere. -/
inductive Concretizes : Ty → Ty → Prop where
  | dynamic {filled : Ty} (static : filled.Static) : Concretizes filled any
  | plain {ty : Ty} (plain : ty.isPlain = true) : Concretizes ty ty
  | list {filled element : Ty} (elements : Concretizes filled element) :
      Concretizes (list filled) (list element)
  | map {filledKey filledValue key value : Ty} (keys : Concretizes filledKey key)
      (values : Concretizes filledValue value) :
      Concretizes (map filledKey filledValue) (map key value)

variable {target source filled other : Ty}

/-- What comes of filling in all dynamic parts is static. -/
theorem Concretizes.static (fills : Concretizes filled target) : filled.Static := by
  induction fills with
  | dynamic static => exact static
  | @plain ty plain => cases ty <;> first | exact True.intro | cases plain
  | list _ step => exact step
  | map _ _ keyStep valueStep => exact ⟨keyStep, valueStep⟩

/-- A type without parts fills in itself and the dynamic type only. -/
theorem Concretizes.eq_or_any (fills : Concretizes filled target) (plain : filled.isPlain = true) :
    target = filled ∨ target = any := by
  cases fills with
  | dynamic _ => exact .inr rfl
  | plain _ => exact .inl rfl
  | list _ | map _ _ => cases plain

/-- Every type can be filled in. -/
theorem concretizes_exists (ty : Ty) : ∃ filled, Concretizes filled ty := by
  induction ty with
  | any => exact ⟨int, .dynamic True.intro⟩
  | list element step =>
    obtain ⟨filled, fills⟩ := step
    exact ⟨list filled, .list fills⟩
  | map key value keyStep valueStep =>
    obtain ⟨filledKey, keys⟩ := keyStep
    obtain ⟨filledValue, values⟩ := valueStep
    exact ⟨map filledKey filledValue, .map keys values⟩
  | _ => exact ⟨_, .plain rfl⟩

/-- Types that can be filled in so that the first accepts the second. -/
def Reconcilable (target source : Ty) : Prop :=
  ∃ filled other, Concretizes filled target ∧ Concretizes other source ∧
    filled.accepts other = true

/-- A dynamic target can be filled in with whatever the source comes to. -/
theorem reconcilable_of_any_target (source : Ty) : Reconcilable any source := by
  obtain ⟨filled, fills⟩ := concretizes_exists source
  exact ⟨filled, filled, .dynamic fills.static, fills, accepts_refl filled⟩

/-- So can a dynamic source with whatever the target comes to. -/
theorem reconcilable_of_any_source (target : Ty) : Reconcilable target any := by
  obtain ⟨filled, fills⟩ := concretizes_exists target
  exact ⟨filled, filled, fills, .dynamic fills.static, accepts_refl filled⟩

/-- Types without parts that accept each other as they stand need no filling in. -/
theorem reconcilable_of_plain (target_plain : target.isPlain = true)
    (source_plain : source.isPlain = true) (accepts : target.accepts source = true) :
    Reconcilable target source :=
  ⟨target, source, .plain target_plain, .plain source_plain, accepts⟩

/-- An object takes a map however the dynamic parts of the map are filled in. -/
theorem reconcilable_of_object (key value : Ty) : Reconcilable object (map key value) := by
  obtain ⟨filledKey, keys⟩ := concretizes_exists key
  obtain ⟨filledValue, values⟩ := concretizes_exists value
  exact ⟨object, map filledKey filledValue, .plain rfl, .map keys values, rfl⟩

theorem Reconcilable.list (elements : Reconcilable target source) :
    Reconcilable (list target) (list source) := by
  obtain ⟨filled, other, fills, fillsOther, accepts⟩ := elements
  exact ⟨.list filled, .list other, .list fills, .list fillsOther, accepts⟩

/-- The parts of a map are filled in one by one. -/
theorem Reconcilable.map {targetKey targetValue sourceKey sourceValue : Ty}
    (keys : Reconcilable targetKey sourceKey) (values : Reconcilable targetValue sourceValue) :
    Reconcilable (map targetKey targetValue) (map sourceKey sourceValue) := by
  obtain ⟨filledKey, otherKey, keyFills, keyFillsOther, keyAccepts⟩ := keys
  obtain ⟨filledValue, otherValue, valueFills, valueFillsOther, valueAccepts⟩ := values
  refine ⟨.map filledKey filledValue, .map otherKey otherValue, .map keyFills valueFills,
    .map keyFillsOther valueFillsOther, ?_⟩
  rw [accepts, keyAccepts, valueAccepts]
  rfl

/-- Where a type accepts another one, the dynamic parts of both can be filled in for it. -/
theorem reconcilable_of_accepts (accepts : target.accepts source = true) :
    Reconcilable target source := by
  have takes : Takes target source := takes_of_accepts accepts
  clear accepts
  induction takes with
  | anything source => exact reconcilable_of_any_target source
  | unknown target => exact reconcilable_of_any_source target
  | plain plain => exact reconcilable_of_plain plain plain (accepts_refl _)
  | number => exact reconcilable_of_plain rfl rfl rfl
  | object key value => exact reconcilable_of_object key value
  | list _ step => exact step.list
  | map _ _ keyStep valueStep => exact keyStep.map valueStep

/-- What is accepted with all dynamic parts filled in is accepted as it stands. -/
theorem accepts_of_concretizes (fills : Concretizes filled target)
    (fillsOther : Concretizes other source) (accepts : filled.accepts other = true) :
    target.accepts source = true := by
  have takes : Takes filled other := takes_of_accepts accepts
  clear accepts
  induction takes generalizing target source with
  | anything _ => exact fills.static.elim
  | unknown _ => exact fillsOther.static.elim
  | plain plain =>
    rcases fills.eq_or_any plain with rfl | rfl
    · rcases fillsOther.eq_or_any plain with rfl | rfl
      · exact accepts_refl _
      · exact accepts_any _
    · exact any_accepts source
  | number =>
    rcases fills.eq_or_any rfl with rfl | rfl
    · rcases fillsOther.eq_or_any rfl with rfl | rfl
      · rfl
      · exact accepts_any float
    · exact any_accepts source
  | object _ _ =>
    rcases fills.eq_or_any rfl with rfl | rfl
    · cases fillsOther with
      | dynamic _ => exact accepts_any Ty.object
      | plain plain => cases plain
      | map _ _ => rfl
    · exact any_accepts source
  | list _ step =>
    cases fills with
    | dynamic _ => exact any_accepts source
    | plain plain => cases plain
    | list slots =>
      cases fillsOther with
      | dynamic _ => exact accepts_any _
      | plain plain => cases plain
      | list elements =>
        have accepts := step slots elements
        exact accepts
  | map _ _ keyStep valueStep =>
    cases fills with
    | dynamic _ => exact any_accepts source
    | plain plain => cases plain
    | map slotKeys slotValues =>
      cases fillsOther with
      | dynamic _ => exact accepts_any _
      | plain plain => cases plain
      | map keys values =>
        exact Bool.and_eq_true_iff.2 ⟨keyStep slotKeys keys, valueStep slotValues values⟩

/-- Acceptance is what acceptance of static types comes to for types with dynamic parts: a type
accepts another one if and only if the dynamic parts of the two can be filled in so that the
static type on the one side accepts the one on the other. -/
theorem accepts_iff_concrete (target source : Ty) : target.accepts source = true ↔
    ∃ filled other, Concretizes filled target ∧ Concretizes other source ∧
      filled.accepts other = true := by
  constructor
  · exact reconcilable_of_accepts
  · rintro ⟨filled, other, fills, fillsOther, accepts⟩
    exact accepts_of_concretizes fills fillsOther accepts

end Ty
end ScopeTyping
