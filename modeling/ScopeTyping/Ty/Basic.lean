/-! Static types. `any` is the dynamic type, which goes with everything; `absent`
marks a name that nothing has been bound to yet. `accepts` says which values may be
stored where, and `join` is the type that two values stored side by side share. -/
namespace ScopeTyping

/-- A static type. -/
inductive Ty where
  /-- The dynamic type: it accepts everything and everything accepts it. -/
  | any
  /-- No type yet: the name is not bound. -/
  | absent
  | boolean
  | int
  | float
  | string
  | time
  | regexp
  /-- A value whose fields are not tracked. -/
  | object
  | list (element : Ty)
  | map (key value : Ty)
  deriving DecidableEq

namespace Ty

/-- Whether this is the dynamic type. -/
def isAny : Ty → Bool
  | any => true
  | _ => false

/-- Whether no type is known yet. -/
def isAbsent : Ty → Bool
  | absent => true
  | _ => false

/-- Whether this is a type of numbers. -/
def isNumeric : Ty → Bool
  | int | float => true
  | _ => false

/-- Whether a value of type `source` may be stored in a slot of type `target`:
integers widen to floats, collections go element by element, and a map may stand
where an object is asked for. -/
def accepts : Ty → Ty → Bool
  | any, _ => true
  | _, any => true
  | float, int => true
  | object, map _ _ => true
  | list target, list source => target.accepts source
  | map targetKey targetValue, map sourceKey sourceValue =>
    targetKey.accepts sourceKey && targetValue.accepts sourceValue
  | target, source => decide (target = source)

/-- The smallest common type of two values stored side by side. -/
def join : Ty → Ty → Ty
  | int, float => float
  | float, int => float
  | list left, list right => list (left.join right)
  | map leftKey leftValue, map rightKey rightValue =>
    map (leftKey.join rightKey) (leftValue.join rightValue)
  | left, right => if left = right then left else any

/-- The common type of the items of a collection; nothing is known of an empty one. -/
def joinAll : List Ty → Ty
  | [] => any
  | first :: rest => rest.foldl join first

/-- The type that an annotated base name stands for, given its type arguments. -/
def ofSignature? : String → List Ty → Option Ty
  | "any", [] => some any
  | "boolean", [] => some boolean
  | "int", [] => some int
  | "float", [] => some float
  | "string", [] => some string
  | "time", [] => some time
  | "regexp", [] => some regexp
  | "object", [] => some object
  | "List", [element] => some (list element)
  | "Map", [key, value] => some (map key value)
  | _, _ => none

/-- A type is written as its base name, with the types of a collection's parts in
brackets behind it. -/
def text : Ty → String
  | any => "any"
  | absent => "none"
  | boolean => "boolean"
  | int => "int"
  | float => "float"
  | string => "string"
  | time => "time"
  | regexp => "regexp"
  | object => "object"
  | list element => "List[" ++ element.text ++ "]"
  | map key value => "Map[" ++ key.text ++ "," ++ value.text ++ "]"

theorem accepts_refl (ty : Ty) : ty.accepts ty = true := by
  induction ty <;> simp_all [accepts]

theorem join_self (ty : Ty) : ty.join ty = ty := by
  induction ty <;> simp_all [join]

@[simp] theorem accepts_any (ty : Ty) : ty.accepts any = true := by
  cases ty <;> rfl

@[simp] theorem any_accepts (ty : Ty) : any.accepts ty = true := by
  cases ty <;> rfl

end Ty
end ScopeTyping
