/-! JSON values as they are written. Numbers keep their digits and strings keep what
stands between their quotation marks, so a value shows exactly how it was spelled;
`unescape` says which text a string stands for.

A record may be an object with its fields in any order or an array of exactly its fields;
the numbers in it are whole and fit into 32 bits. -/
namespace ScopeTyping

/-- A JSON value. An object keeps its members in order, repeated keys included. -/
inductive Json where
  | null
  | bool (value : Bool)
  | number (digits : String)
  | string (body : String)
  | array (items : List Json)
  | object (members : List (String × Json))

namespace Json

/-- A number without a sign or a fraction. -/
def ofNat (value : Nat) : Json := .number (toString value)

/-- The body of a string between its quotation marks. -/
def quoted (body : String) : String := "\"" ++ body ++ "\""

mutual
/-- The compact text of a value. -/
def render : Json → String
  | null => "null"
  | bool value => if value then "true" else "false"
  | number digits => digits
  | string body => quoted body
  | array items => "[" ++ renderItems items ++ "]"
  | object members => "\x7b" ++ renderMembers members ++ "\x7d"
/-- The items of an array with commas between them. -/
def renderItems : List Json → String
  | [] => ""
  | [item] => render item
  | item :: next :: rest => render item ++ "," ++ renderItems (next :: rest)
/-- The members of an object with commas between them. -/
def renderMembers : List (String × Json) → String
  | [] => ""
  | [(key, value)] => quoted key ++ ":" ++ render value
  | (key, value) :: next :: rest =>
    quoted key ++ ":" ++ render value ++ "," ++ renderMembers (next :: rest)
end

/-- The value of a hexadecimal digit. -/
def hexDigit? (c : Char) : Option Nat :=
  if '0' ≤ c ∧ c ≤ '9' then some (c.toNat - '0'.toNat)
  else if 'a' ≤ c ∧ c ≤ 'f' then some (c.toNat - 'a'.toNat + 10)
  else if 'A' ≤ c ∧ c ≤ 'F' then some (c.toNat - 'A'.toNat + 10)
  else none

/-- The number that four hexadecimal digits write. -/
def hexUnit? (a b c d : Char) : Option Nat := do
  let a ← hexDigit? a
  let b ← hexDigit? b
  let c ← hexDigit? c
  let d ← hexDigit? d
  pure (((a * 16 + b) * 16 + c) * 16 + d)

/-- The character that one letter behind a backslash stands for. -/
def escaped? : Char → Option Char
  | '"' => some '"'
  | '\\' => some '\\'
  | '/' => some '/'
  | 'b' => some '\x08'
  | 'f' => some '\x0c'
  | 'n' => some '\n'
  | 'r' => some '\r'
  | 't' => some '\t'
  | _ => none

/-- The characters that a string body stands for. Units of a surrogate pair have to
come in pairs. -/
def unescapeChars : List Char → Option (List Char)
  | [] => some []
  | '\\' :: 'u' :: a :: b :: c :: d :: rest => do
    let unit ← hexUnit? a b c d
    if 0xDC00 ≤ unit ∧ unit < 0xE000 then none
    else if 0xD800 ≤ unit ∧ unit < 0xDC00 then
      match rest with
      | '\\' :: 'u' :: e :: f :: g :: h :: rest =>
        let low ← hexUnit? e f g h
        if 0xDC00 ≤ low ∧ low < 0xE000 then
          let others ← unescapeChars rest
          pure (Char.ofNat (0x10000 + (unit - 0xD800) * 0x400 + (low - 0xDC00)) :: others)
        else none
      | _ => none
    else
      let others ← unescapeChars rest
      pure (Char.ofNat unit :: others)
  | '\\' :: c :: rest => do
    let shown ← escaped? c
    let others ← unescapeChars rest
    pure (shown :: others)
  | c :: rest => do
    let others ← unescapeChars rest
    pure (c :: others)

/-- The text that a string body stands for. -/
def unescape (body : String) : Option String := (unescapeChars body.toList).map String.ofList

/-- The largest number of 32 bits. -/
def wordLimit : Nat := 4294967295

/-- The number that digits write, if they are the usual digits of a number of 32 bits:
no sign, no leading zero, no fraction and no exponent. -/
def wordOfDigits? (digits : String) : Option Nat :=
  match digits.toList with
  | [] => none
  | first :: rest =>
    if (first == '0' && !rest.isEmpty) || !(first :: rest).all Char.isDigit then none
    else
      let value := (first :: rest).foldl (fun value c => value * 10 + (c.toNat - '0'.toNat)) 0
      if value ≤ wordLimit then some value else none

/-- The value as a number of 32 bits. -/
def word? : Json → Option Nat
  | number digits => wordOfDigits? digits
  | _ => none

/-- How deeply arrays and objects that are looked into may be nested. -/
def deepest : Nat := 127

/-- The values of a record's fields: from an object under the fields' names, in any
order, other members being passed over and missing fields left out; or from an array
of exactly the fields in order. Also how much deeper the fields may be nested. -/
def fields? (names : List String) : Nat → Json → Option (Nat × List (Option Json))
  | depth + 1, object members => do
    let members ← members.mapM fun (key, value) => (unescape key).map (·, value)
    let known := members.filter fun (key, _) => names.contains key
    if (known.map Prod.fst).Nodup then some (depth, names.map fun name => known.lookup name) else none
  | depth + 1, array items =>
    if items.length = names.length then some (depth, items.map some) else none
  | _, _ => none

end Json

end ScopeTyping
