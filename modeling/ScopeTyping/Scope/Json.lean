import ScopeTyping.Json.Reader
import ScopeTyping.Scope.Forest
import ScopeTyping.Ty.Json

/-! Scope forests as JSON: the scopes in order, each with its parent, its kind and its
symbols under the numbers of their keys, in the order in which they were bound. -/
namespace ScopeTyping

/-- The name as a value: its number. -/
def Name.toJson (name : Name) : Json := .ofNat name.number

/-- The name that digits number; numbers start at one. -/
def Name.ofDigits? (digits : String) : Option Name :=
  match Json.wordOfDigits? digits with
  | some (index + 1) => some ⟨index⟩
  | _ => none

/-- The name that a value stands for. -/
def Name.ofJson? : Json → Option Name
  | .number digits => Name.ofDigits? digits
  | _ => none

/-- The scope number as a value. -/
def ScopeId.toJson (id : ScopeId) : Json := .ofNat id.index

/-- The scope number that a value stands for. -/
def ScopeId.ofJson? (json : Json) : Option ScopeId := json.word?.map ScopeId.mk

namespace ScopeKind

/-- Every kind of scope. -/
def all : List ScopeKind := [root, block, loop, function]

/-- The tag of a kind of scope. -/
def tag : ScopeKind → String
  | root => "Root"
  | block => "Block"
  | loop => "Loop"
  | function => "Function"

/-- The kind of scope that a tag stands for. -/
def ofTag? (tag : String) : Option ScopeKind := all.find? (·.tag == tag)

/-- The kind of scope as a value: its tag. -/
def toJson (kind : ScopeKind) : Json := .string kind.tag

/-- The kind of scope that a value stands for: a tag, alone or over `null`. -/
def ofJson? : Nat → Json → Option ScopeKind
  | _, .string body => Json.unescape body >>= ofTag?
  | _ + 1, .object [(key, .null)] => Json.unescape key >>= ofTag?
  | _, _ => none

end ScopeKind

/-- The symbol as a value: a record of its name and its type. -/
def Symbol.toJson (symbol : Symbol) : Json :=
  .object [("name", symbol.name.toJson), ("ty", symbol.ty.toJson)]

/-- The symbol that a value stands for. -/
def Symbol.ofJson? (depth : Nat) (json : Json) : Option Symbol := do
  match ← json.fields? ["name", "ty"] depth with
  | (depth, [some name, some ty]) => return ⟨← Name.ofJson? name, ← Ty.ofJson? depth ty⟩
  | _ => none

/-- The table as a value: an object with the keys' numbers as its keys. -/
def SymbolTable.toJson (table : SymbolTable) : Json :=
  .object (table.entries.map fun (key, symbol) => (toString key.number, symbol.toJson))

/-- The table that a value stands for. Keys are numbers as they are usually written,
without escapes; a repeated one keeps its first place and its last value. -/
def SymbolTable.ofJson? : Nat → Json → Option SymbolTable
  | depth + 1, .object members => do
    let pairs ← members.mapM fun (key, value) => do
      let name ← Name.ofDigits? key
      let symbol ← Symbol.ofJson? depth value
      pure (name, symbol)
    pure (.ofList pairs)
  | _, _ => none

namespace Scope

/-- The parent as a value; `null` says that there is none. -/
def parentToJson : Option ScopeId → Json
  | none => .null
  | some parent => parent.toJson

/-- The parent that a value stands for. -/
def parentOfJson? : Json → Option (Option ScopeId)
  | .null => some none
  | json => (ScopeId.ofJson? json).map some

/-- The scope as a value: a record of its parent, its kind and its symbols. -/
def toJson (scope : Scope) : Json :=
  .object [("parent", parentToJson scope.parent), ("kind", scope.kind.toJson),
    ("symbols", scope.symbols.toJson)]

/-- The scope that a value stands for. A scope whose parent is left out has none. -/
def ofJson? (depth : Nat) (json : Json) : Option Scope := do
  match ← json.fields? ["parent", "kind", "symbols"] depth with
  | (depth, [parent, some kind, some symbols]) =>
    return ⟨← parentOfJson? (parent.getD .null), ← ScopeKind.ofJson? depth kind,
      ← SymbolTable.ofJson? depth symbols⟩
  | _ => none

end Scope

namespace Forest

/-- The forest as a value: a record of its scopes. -/
def toJson (forest : Forest) : Json := .object [("scopes", .array (forest.scopes.map Scope.toJson))]

/-- The forest that a value stands for. -/
def ofJson? (depth : Nat) (json : Json) : Option Forest := do
  match ← json.fields? ["scopes"] depth with
  | (depth + 1, [some (.array scopes)]) => return ⟨← scopes.mapM (Scope.ofJson? depth)⟩
  | _ => none

/-- The compact JSON text of a forest. -/
def encode (forest : Forest) : String := forest.toJson.render

/-- The forest that a JSON text writes. -/
def decode? (text : String) : Option Forest := Json.parse? text >>= ofJson? Json.deepest

end Forest
end ScopeTyping
