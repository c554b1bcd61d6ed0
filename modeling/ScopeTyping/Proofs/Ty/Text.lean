import ScopeTyping.Ty.Basic

/-! How types are written. The first letter of a type's text tells its outermost constructor, so no
text of a type goes on as the text of another one: whatever comes behind it, a type is read off
its text in one way only. Texts of types hold no blanks. -/
namespace ScopeTyping
namespace Ty

/-- A type can be told from its text and from anything that its text stands in front of. -/
theorem text_append_inj {one other : Ty} {rest more : List Char}
    (same : one.text.toList ++ rest = other.text.toList ++ more) : one = other ∧ rest = more := by
  induction one generalizing other rest more with
  | list element step =>
    cases other with
    | list twin =>
      simp only [text, String.toList_append, List.append_assoc, List.append_right_inj] at same
      obtain ⟨rfl, behind⟩ := step same
      simp only [List.append_right_inj] at behind
      exact ⟨rfl, behind⟩
    | _ => simp [text] at same
  | map key value keyStep valueStep =>
    cases other with
    | map twinKey twinValue =>
      simp only [text, String.toList_append, List.append_assoc, List.append_right_inj] at same
      obtain ⟨rfl, behindKey⟩ := keyStep same
      simp only [List.append_right_inj] at behindKey
      obtain ⟨rfl, behind⟩ := valueStep behindKey
      simp only [List.append_right_inj] at behind
      exact ⟨rfl, behind⟩
    | _ => simp [text] at same
  | _ => cases other <;> simp_all [text]

theorem text_inj {one other : Ty} (same : one.text = other.text) : one = other :=
  (text_append_inj (congrArg (String.toList · ++ []) same)).1

/-- Every character in the text of a type is one that can be seen. -/
theorem lt_of_mem_text {ty : Ty} : ∀ c ∈ ty.text.toList, ' ' < c := by
  induction ty with
  | list element step =>
    simp only [text, String.toList_append, List.forall_mem_append]
    exact ⟨⟨by simp, step⟩, by simp⟩
  | map key value keyStep valueStep =>
    simp only [text, String.toList_append, List.forall_mem_append]
    exact ⟨⟨⟨⟨by simp, keyStep⟩, by simp⟩, valueStep⟩, by simp⟩
  | _ => simp [text]

end Ty
end ScopeTyping
