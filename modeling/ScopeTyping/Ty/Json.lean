import ScopeTyping.Json.Basic
import ScopeTyping.Ty.Basic

/-! Types as JSON: a type is its tag, and one with parts is its tag over the types of
its parts. -/
namespace ScopeTyping

namespace Ty

/-- The tag that tells a type's outermost constructor. -/
def tag : Ty → String
  | any => "Any"
  | absent => "None"
  | boolean => "Boolean"
  | int => "Int"
  | float => "Float"
  | string => "String"
  | time => "Time"
  | regexp => "Regexp"
  | object => "Object"
  | list _ => "List"
  | map _ _ => "Map"

/-- The types without parts. -/
def plain : List Ty := [any, absent, boolean, int, float, string, time, regexp, object]

/-- The type without parts that a tag stands for. -/
def ofPlainTag? (tag : String) : Option Ty := plain.find? (·.tag == tag)

/-- The type as a value: its tag, over the types of its parts if it has any. -/
def toJson : Ty → Json
  | list element => .object [("List", element.toJson)]
  | map key value => .object [("Map", .array [key.toJson, value.toJson])]
  | simple => .string simple.tag

/-- The type that a value stands for. A type without parts may also be written as its
tag over `null`. -/
def ofJson? : Nat → Json → Option Ty
  | _, .string body => Json.unescape body >>= ofPlainTag?
  | depth + 1, .object [(key, payload)] =>
    match Json.unescape key, payload, depth with
    | some "List", element, depth => (ofJson? depth element).map list
    | some "Map", .array [key, value], depth + 1 => do
      let key ← ofJson? depth key
      let value ← ofJson? depth value
      pure (map key value)
    | some tag, .null, _ => ofPlainTag? tag
    | _, _, _ => none
  | _, _ => none

theorem ofPlainTag?_tag {ty : Ty} (simple : ty ∈ plain) : ofPlainTag? ty.tag = some ty := by
  revert ty
  decide

end Ty
end ScopeTyping
