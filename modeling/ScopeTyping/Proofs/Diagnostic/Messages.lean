import ScopeTyping.Proofs.Scope.Dump

/-! What readers see of types. A type is read off its text wherever the text stands: in front of
whatever comes behind it, in the sentence of an error of a known kind, and in the line that a dump
shows of a symbol. Labels show no types. -/
namespace ScopeTyping

namespace Ty

theorem blank_not_mem_text (ty : Ty) : ' ' ∉ ty.text.toList :=
  fun member => absurd (lt_of_mem_text _ member) (by decide)

/-- A type at the end of a text, behind a blank, is told from what stands in front of it. -/
theorem text_inj_of_last {one other : List Char} {ty twin : Ty}
    (same : one ++ ' ' :: ty.text.toList = other ++ ' ' :: twin.text.toList) :
    one = other ∧ ty = twin := by
  obtain ⟨before, types⟩ :=
    append_cons_inj_of_last ty.blank_not_mem_text twin.blank_not_mem_text same
  exact ⟨before, text_inj (String.toList_inj.1 types)⟩

end Ty

/-- The types that an error shows, in the order in which it names them. -/
def Cause.types : Cause → List Ty
  | .typeAssignmentDifferent target source => [target, source]
  | .returnTypeMismatch expected found => [expected, found]
  | .typeOperationIncompatible _ left right => [left, right]
  | .typeUnaryIncompatible _ operand => [operand]
  | .typeIndexIncompatible ty => [ty]
  | .unresolvedVariable .. | .typeNameUnknown .. | .operatorUnknown .. | .notAnExpression ..
  | .malformedTree .. | .scopeAlreadyAttached .. => []

namespace Cause

/-- A quoted type is told from what comes behind it. -/
theorem quoted_inj_of_first {one other : Ty} {rest more : String}
    (same : quoted one.text ++ rest = quoted other.text ++ more) : one = other ∧ rest = more := by
  have chars := congrArg String.toList same
  simp only [quoted, String.toList_append, List.append_assoc, List.append_right_inj] at chars
  obtain ⟨types, behind⟩ := Ty.text_append_inj chars
  exact ⟨types, String.toList_inj.1 (List.append_cancel_left behind)⟩

/-- A quoted type at the end of a sentence is told from what stands in front of it. -/
theorem quoted_inj_of_last {one other : String} {ty twin : Ty}
    (same : one ++ (" " ++ quoted ty.text) = other ++ (" " ++ quoted twin.text)) :
    one = other ∧ ty = twin := by
  have chars : one.toList ++ ' ' :: (quoted ty.text).toList =
      other.toList ++ ' ' :: (quoted twin.text).toList := by
    simpa using congrArg String.toList same
  have blankless : ∀ ty : Ty, ' ' ∉ (quoted ty.text).toList := by
    simp [quoted, Ty.blank_not_mem_text]
  obtain ⟨before, quotes⟩ := append_cons_inj_of_last (blankless ty) (blankless twin) chars
  simp only [quoted, String.toList_append, List.append_left_inj, List.append_right_inj] at quotes
  exact ⟨String.toList_inj.1 before, Ty.text_inj (String.toList_inj.1 quotes)⟩

/-- A sentence that quotes two types tells both. -/
theorem quoted_pair_inj {opening middle closing : String} {one other twinOne twinOther : Ty}
    (same : opening ++ quoted one.text ++ middle ++ quoted other.text ++ closing =
      opening ++ quoted twinOne.text ++ middle ++ quoted twinOther.text ++ closing) :
    one = twinOne ∧ other = twinOther := by
  simp only [String.append_assoc, String.append_right_inj] at same
  obtain ⟨first, behind⟩ := quoted_inj_of_first same
  rw [String.append_right_inj] at behind
  exact ⟨first, (quoted_inj_of_first behind).1⟩

/-- The operator of a sentence is any text, so its operands are read off from the end. -/
theorem message_unary (op : String) (operand : Ty) : (typeUnaryIncompatible op operand).message =
    quoted op ++ " can't be applied to" ++ (" " ++ quoted operand.text) := by
  have blank : " can't be applied to " = " can't be applied to" ++ " " := by decide
  show quoted op ++ " can't be applied to " ++ quoted operand.text = _
  rw [blank]
  simp only [String.append_assoc]

theorem message_binary (op : String) (left right : Ty) :
    (typeOperationIncompatible op left right).message =
      (typeUnaryIncompatible op left).message ++ " and" ++ (" " ++ quoted right.text) := by
  have blank : " and " = " and" ++ " " := by decide
  show quoted op ++ " can't be applied to " ++ quoted left.text ++ " and " ++ quoted right.text =
    quoted op ++ " can't be applied to " ++ quoted left.text ++ " and" ++ (" " ++ quoted right.text)
  rw [blank]
  simp only [String.append_assoc]

/-- The sentence of an error tells the types that the error shows, whatever names and operators
stand around them. -/
theorem types_of_message {one other : Cause} (code : one.code = other.code)
    (same : one.message = other.message) : one.types = other.types := by
  cases one with
  | typeAssignmentDifferent target source =>
    cases other with
    | typeAssignmentDifferent twinTarget twinSource =>
      obtain ⟨rfl, rfl⟩ := quoted_pair_inj (congrArg (· ++ "") same)
      rfl
    | _ => simp [Cause.code] at code
  | returnTypeMismatch expected found =>
    cases other with
    | returnTypeMismatch twinExpected twinFound =>
      obtain ⟨rfl, rfl⟩ := quoted_pair_inj same
      rfl
    | _ => simp [Cause.code] at code
  | typeOperationIncompatible op left right =>
    cases other with
    | typeOperationIncompatible twinOp twinLeft twinRight =>
      rw [message_binary, message_binary] at same
      obtain ⟨before, rfl⟩ := quoted_inj_of_last same
      rw [String.append_left_inj, message_unary, message_unary] at before
      obtain ⟨-, rfl⟩ := quoted_inj_of_last before
      rfl
    | _ => simp [Cause.code] at code
  | typeUnaryIncompatible op operand =>
    cases other with
    | typeUnaryIncompatible twinOp twinOperand =>
      rw [message_unary, message_unary] at same
      obtain ⟨-, rfl⟩ := quoted_inj_of_last same
      rfl
    | _ => simp [Cause.code] at code
  | typeIndexIncompatible ty =>
    cases other with
    | typeIndexIncompatible twin =>
      obtain ⟨rfl, -⟩ := quoted_inj_of_first same
      rfl
    | _ => simp [Cause.code] at code
  | _ =>
    -- errors of the other kinds show no types
    cases other
    all_goals simp [Cause.code] at code
    all_goals rfl

end Cause

/-- The line of a symbol tells the type of the symbol, whatever the text of its name is. -/
theorem Symbol.ty_of_line {names others : NameTable} {symbol twin : Symbol} {line : String}
    (shown : symbol.line names = .ok line) (also : twin.line others = .ok line) :
    symbol.ty = twin.ty := by
  have split : ∀ {names : NameTable} {symbol : Symbol}, symbol.line names = .ok line →
      ∃ before, line.toList = before ++ ' ' :: symbol.ty.text.toList := by
    intro names symbol shown
    unfold Symbol.line at shown
    cases known : names.text symbol.name with
    | error fault =>
      rw [known] at shown
      cases shown
    | ok text =>
      rw [known] at shown
      cases shown
      exact ⟨("  " ++ text ++ ":").toList, by simp⟩
  obtain ⟨before, first⟩ := split shown
  obtain ⟨others, second⟩ := split also
  exact (Ty.text_inj_of_last (first.symm.trans second)).2

/-- A type and what stands behind its text can be read in one way only, whatever that is: a comma,
a bracket, nothing, or anything else. So errors of one kind with the same sentence show the same
types, and symbols with the same line in a dump have the same type. -/
theorem Ty.text_uniquely_read :
    (∀ (one other : Ty) (rest more : String),
      one.text ++ rest = other.text ++ more ↔ one = other ∧ rest = more) ∧
    (∀ one other : Cause, one.code = other.code → one.message = other.message →
      one.types = other.types) ∧
    ∀ (names others : NameTable) (symbol twin : Symbol) (line : String),
      symbol.line names = .ok line → twin.line others = .ok line → symbol.ty = twin.ty := by
  refine ⟨fun one other rest more => ⟨fun same => ?_, ?_⟩, fun _ _ => Cause.types_of_message,
    fun _ _ _ _ _ => Symbol.ty_of_line⟩
  · have chars : one.text.toList ++ rest.toList = other.text.toList ++ more.toList := by
      simpa using congrArg String.toList same
    obtain ⟨types, behind⟩ := text_append_inj chars
    exact ⟨types, String.toList_inj.1 behind⟩
  · rintro ⟨rfl, rfl⟩
    rfl

/-- An operator that looks like a sentence, and a name that looks like a line of its own and that
two tables number differently. -/
theorem Ty.text_uniquely_read_disguised :
    let ty : Ty := .map .int (.list .string)
    let cause : Cause := .typeOperationIncompatible "-` can't be applied to `int" ty .any
    let names : NameTable := ⟨["total: int"], by decide⟩
    let others : NameTable := ⟨["item", "total: int"], by decide⟩
    let symbol : Symbol := ⟨⟨0⟩, ty⟩
    let twin : Symbol := ⟨⟨1⟩, ty⟩
    (cause.code = cause.code ∧ cause.message = cause.message ∧ cause.types = cause.types) ∧
      ∃ line, symbol.line names = .ok line ∧ twin.line others = .ok line ∧ symbol.ty = twin.ty := by
  intro ty cause names others symbol twin
  obtain ⟨-, messages, lines⟩ := Ty.text_uniquely_read
  exact ⟨⟨rfl, rfl, messages cause cause rfl rfl⟩, "  total: int: Map[int,List[string]]", rfl, rfl,
    lines names others symbol twin _ rfl rfl⟩

end ScopeTyping
