import ScopeTyping.Proofs.Json.Reading
import ScopeTyping.Ty.Json

/-! Encoding and decoding of types. The value of a type is decoded to that type as long as the
decoder looks as deep as the type is nested (`ofJson?_toJson`), and what it gives is never nested
deeper than it looks (`nesting_le_of_ofJson?`). -/
namespace ScopeTyping
namespace Ty

/-- How many arrays and objects stand inside one another in the value of a type. -/
def nesting : Ty → Nat
  | list element => element.nesting + 1
  | map key value => max key.nesting value.nesting + 2
  | _ => 0

theorem plainBody_tag (ty : Ty) : Json.PlainBody ty.tag := by
  cases ty with
  | list element => exact (by decide : Json.PlainBody "List")
  | map key value => exact (by decide : Json.PlainBody "Map")
  | _ => decide

theorem plain_toJson (ty : Ty) : ty.toJson.Plain := by
  induction ty with
  | list element step =>
    apply Json.Plain.object
    · simp [Json.PlainBody, Json.isPlain]
    · simp [step]
  | map key value keyStep valueStep =>
    apply Json.Plain.object
    · simp [Json.PlainBody, Json.isPlain]
    · simp only [List.forall_mem_singleton]
      apply Json.Plain.array
      simp [keyStep, valueStep]
  | _ => exact .string (plainBody_tag _)

theorem ofJson?_list (depth : Nat) (element : Json) :
    ofJson? (depth + 1) (.object [("List", element)]) = (ofJson? depth element).map list := by
  simp [ofJson?, Json.unescape_of_plain (by decide : Json.PlainBody "List")]

theorem ofJson?_map (depth : Nat) (key value : Json) :
    ofJson? (depth + 2) (.object [("Map", .array [key, value])]) = do
      let key ← ofJson? depth key
      let value ← ofJson? depth value
      return map key value := by
  simp [ofJson?, Json.unescape_of_plain (by decide : Json.PlainBody "Map")]

/-- The value of a type is decoded to that type, as long as a decoder looks deep enough. -/
theorem ofJson?_toJson {ty : Ty} {depth : Nat} (deep : ty.nesting ≤ depth) :
    ofJson? depth ty.toJson = some ty := by
  induction ty generalizing depth with
  | list element step =>
    rw [nesting] at deep
    obtain ⟨below, rfl⟩ := Nat.exists_eq_add_one.2 (by omega : 0 < depth)
    simp [toJson, ofJson?_list, step (Nat.le_of_succ_le_succ deep)]
  | map key value keyStep valueStep =>
    rw [nesting] at deep
    obtain ⟨below, rfl⟩ : ∃ below, depth = below + 2 := ⟨depth - 2, by omega⟩
    have keys : ofJson? below key.toJson = some key := keyStep (by omega)
    have values : ofJson? below value.toJson = some value := valueStep (by omega)
    simp [toJson, ofJson?_map, keys, values]
  | _ =>
    simp only [toJson, ofJson?, Json.unescape_of_plain (plainBody_tag _), Option.bind_eq_bind,
      Option.bind_some]
    exact ofPlainTag?_tag (by decide)

theorem nesting_of_ofPlainTag? {tag : String} {ty : Ty} (found : ofPlainTag? tag = some ty) :
    ty.nesting = 0 := by
  have simple : ∀ ty ∈ plain, ty.nesting = 0 := by decide
  exact simple ty (List.mem_of_find?_eq_some found)

/-- A decoder gives no type that is nested deeper than it looks. -/
theorem nesting_le_of_ofJson? {depth : Nat} {json : Json} {ty : Ty}
    (known : ofJson? depth json = some ty) : ty.nesting ≤ depth := by
  fun_induction ofJson? depth json generalizing ty with
  | case1 depth body =>
    obtain ⟨tag, _, found⟩ := Option.bind_eq_some_iff.1 known
    rw [nesting_of_ofPlainTag? found]
    exact Nat.zero_le depth
  | case2 tag element depth spelled step =>
    obtain ⟨inner, found, rfl⟩ := Option.map_eq_some_iff.1 known
    exact Nat.succ_le_succ (step found)
  | case3 tag key value depth spelled keyStep valueStep =>
    obtain ⟨first, keyFound, known⟩ := Option.bind_eq_some_iff.1 known
    obtain ⟨second, valueFound, same⟩ := Option.bind_eq_some_iff.1 known
    cases same
    have keyDeep := keyStep keyFound
    have valueDeep := valueStep valueFound
    simp only [nesting]
    omega
  | case4 depth key tag other spelled =>
    rw [nesting_of_ofPlainTag? known]
    exact Nat.zero_le _
  | case5 => cases known
  | case6 => cases known

end Ty
end ScopeTyping
