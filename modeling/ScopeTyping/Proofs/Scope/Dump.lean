import Mathlib.Data.List.Forall2
import ScopeTyping.Proofs.Outcome
import ScopeTyping.Proofs.Ty.Text
import ScopeTyping.Scope.Forest

/-! What a dump tells. The dump of a forest whose names have texts of one line each tells everything
about the forest but the names themselves: two dumps are the same if and only if the scopes are of
the same kinds, inside the same scopes, and hold symbols of the same texts and types in the same
order. -/
namespace ScopeTyping

/-! ### Splitting texts -/

section Splitting
variable {α : Type} {mark : α} {one other rest more : List α}

/-- What stands in front of the first mark, and what behind it, can be told apart. -/
theorem append_cons_inj_of_first (clean : mark ∉ one) (alsoClean : mark ∉ other)
    (same : one ++ mark :: rest = other ++ mark :: more) : one = other ∧ rest = more := by
  induction one generalizing other with
  | nil =>
    cases other with
    | nil => simpa using same
    | cons c others =>
      simp only [List.nil_append, List.cons_append, List.cons.injEq] at same
      exact absurd (by simp [same.1]) alsoClean
  | cons c ones step =>
    cases other with
    | nil =>
      simp only [List.nil_append, List.cons_append, List.cons.injEq] at same
      exact absurd (by simp [same.1]) clean
    | cons d others =>
      simp only [List.cons_append, List.cons.injEq] at same
      obtain ⟨rfl, rfl⟩ := step (fun member => clean (by simp [member]))
        (fun member => alsoClean (by simp [member])) same.2
      simp [same.1]

/-- So can what stands in front of the last mark and what behind it. -/
theorem append_cons_inj_of_last (clean : mark ∉ rest) (alsoClean : mark ∉ more)
    (same : one ++ mark :: rest = other ++ mark :: more) : one = other ∧ rest = more := by
  have turned : rest.reverse ++ mark :: one.reverse = more.reverse ++ mark :: other.reverse := by
    simpa using congrArg List.reverse same
  obtain ⟨behind, before⟩ := append_cons_inj_of_first (by simpa using clean)
    (by simpa using alsoClean) turned
  exact ⟨List.reverse_inj.1 before, List.reverse_inj.1 behind⟩

/-- A start that is marked throughout ends where the mark ends. -/
theorem append_inj_of_marked {marked : α → Prop} (starts : ∀ item ∈ one, marked item)
    (alsoStarts : ∀ item ∈ other, marked item) (ends : ∀ item ∈ rest.head?, ¬ marked item)
    (alsoEnds : ∀ item ∈ more.head?, ¬ marked item) (same : one ++ rest = other ++ more) :
    one = other ∧ rest = more := by
  induction one generalizing other with
  | nil =>
    cases other with
    | nil => exact ⟨rfl, same⟩
    | cons item items =>
      rw [List.nil_append] at same
      exact absurd (alsoStarts item (by simp)) (ends item (by simp [same]))
  | cons item items step =>
    cases other with
    | nil =>
      rw [List.nil_append] at same
      exact absurd (starts item (by simp)) (alsoEnds item (by simp [← same]))
    | cons twin twins =>
      simp only [List.cons_append, List.cons.injEq] at same
      obtain ⟨rfl, rfl⟩ := step (fun later member => starts later (by simp [member]))
        (fun later member => alsoStarts later (by simp [member])) same.2
      simp [same.1]

end Splitting

/-- Lines that hold no line ends are told from the text that they make up. -/
theorem join_lines_inj {lines others : List String} (clean : ∀ line ∈ lines, '\n' ∉ line.toList)
    (alsoClean : ∀ line ∈ others, '\n' ∉ line.toList)
    (same : String.join (lines.map (· ++ "\n")) = String.join (others.map (· ++ "\n"))) :
    lines = others := by
  have chars : (lines.flatMap fun line => line.toList ++ ['\n']) =
      others.flatMap fun line => line.toList ++ ['\n'] := by
    simpa [String.toList_join, List.flatMap_map] using congrArg String.toList same
  clear same
  induction lines generalizing others with
  | nil =>
    cases others with
    | nil => rfl
    | cons line rest => simp at chars
  | cons line rest step =>
    cases others with
    | nil => simp at chars
    | cons twin more =>
      simp only [List.flatMap_cons, List.append_assoc, List.singleton_append] at chars
      obtain ⟨first, further⟩ := append_cons_inj_of_first (clean line (by simp))
        (alsoClean twin (by simp)) chars
      rw [String.toList_inj.1 first, step (fun later member => clean later (by simp [member]))
        (fun later member => alsoClean later (by simp [member])) further]

/-! ### Lines -/

/-- What a dump shows of a symbol: the text of its name and its type. -/
def Symbol.shown (names : NameTable) (symbol : Symbol) : Option String × Ty :=
  (names.text? symbol.name, symbol.ty)

/-- The symbol has a name with a text of one line. -/
def Symbol.Legible (names : NameTable) (symbol : Symbol) : Prop :=
  ∃ text, names.text? symbol.name = some text ∧ '\n' ∉ text.toList

/-- The line that shows a text with a type. -/
def shownLine (shown : Option String × Ty) : String :=
  "  " ++ shown.1.getD "" ++ ": " ++ shown.2.text

variable {names others : NameTable} {symbol twin : Symbol}

theorem Symbol.Legible.line (legible : symbol.Legible names) :
    symbol.line names = .ok (shownLine (symbol.shown names)) := by
  obtain ⟨text, known, _⟩ := legible
  rw [Symbol.line_of_text? known]
  simp [shownLine, Symbol.shown, known]

theorem Symbol.Legible.clean (legible : symbol.Legible names) :
    '\n' ∉ (shownLine (symbol.shown names)).toList := by
  obtain ⟨text, known, clean⟩ := legible
  have typeClean : '\n' ∉ symbol.ty.text.toList :=
    fun member => absurd (Ty.lt_of_mem_text _ member) (by decide)
  simp [shownLine, Symbol.shown, known, clean, typeClean]

/-- The type in a line stands behind the last blank, so the line tells both text and type. -/
theorem Symbol.Legible.shown_inj (legible : symbol.Legible names)
    (alsoLegible : twin.Legible others)
    (same : shownLine (symbol.shown names) = shownLine (twin.shown others)) :
    symbol.shown names = twin.shown others := by
  obtain ⟨text, known, _⟩ := legible
  obtain ⟨twinText, twinKnown, _⟩ := alsoLegible
  have blankless : ∀ ty : Ty, ' ' ∉ ty.text.toList :=
    fun ty member => absurd (Ty.lt_of_mem_text _ member) (by decide)
  have chars : (text.toList ++ [':']) ++ ' ' :: symbol.ty.text.toList =
      (twinText.toList ++ [':']) ++ ' ' :: twin.ty.text.toList := by
    simpa [shownLine, Symbol.shown, known, twinKnown] using congrArg String.toList same
  obtain ⟨texts, types⟩ := append_cons_inj_of_last (blankless _) (blankless _) chars
  rw [Symbol.shown, Symbol.shown, known, twinKnown, Ty.text_inj (String.toList_inj.1 types),
    String.toList_inj.1 (List.append_cancel_right texts)]

theorem ScopeKind.text_append_inj {one other : ScopeKind} {rest more : List Char}
    (same : one.text.toList ++ rest = other.text.toList ++ more) : one = other ∧ rest = more := by
  cases one <;> cases other <;> simp_all [ScopeKind.text]

theorem newline_not_mem_toDigits (number : Nat) : '\n' ∉ Nat.toDigits 10 number := by
  intro member
  have digit : '\n'.isDigit = true := Nat.isDigit_of_mem_toDigits (by decide) (by decide) member
  cases digit

theorem Scope.headline_clean (id : ScopeId) (scope : Scope) :
    '\n' ∉ (scope.headline id).toList := by
  have kind : '\n' ∉ scope.kind.text.toList := by cases scope.kind <;> decide
  cases parent : scope.parent with
  | none => simp [Scope.headline, parent, kind, newline_not_mem_toDigits]
  | some around => simp [Scope.headline, parent, kind, newline_not_mem_toDigits]

/-- The first line of a paragraph tells the kind of the scope and the scope around it. -/
theorem Scope.headline_inj {id : ScopeId} {scope other : Scope}
    (same : scope.headline id = other.headline id) :
    scope.kind = other.kind ∧ scope.parent = other.parent := by
  have chars := congrArg String.toList same
  simp only [Scope.headline, String.toList_append, List.append_assoc,
    List.append_right_inj] at chars
  obtain ⟨kinds, behind⟩ := ScopeKind.text_append_inj chars
  refine ⟨kinds, ?_⟩
  rw [List.append_right_inj] at behind
  cases parent : scope.parent with
  | none =>
    cases otherParent : other.parent with
    | none => rfl
    | some around => simp [parent, otherParent] at behind
  | some around =>
    cases otherParent : other.parent with
    | none => simp [parent, otherParent] at behind
    | some twin =>
      simp only [parent, otherParent, String.toList_append, List.append_right_inj] at behind
      have numbers := congrArg (Nat.ofDigitChars 10 · 0) behind
      have around_eq : around.index = twin.index := by
        simpa [Nat.ofDigitChars_ten_toDigits] using numbers
      exact congrArg (fun number => some (ScopeId.mk number)) around_eq

/-! ### Paragraphs -/

/-- Scopes that show the same: of one kind, inside the same scope, with symbols of the same texts
and types in the same order. -/
structure Scope.ShowsAs (names others : NameTable) (scope other : Scope) : Prop where
  kind : scope.kind = other.kind
  parent : scope.parent = other.parent
  symbols : scope.symbols.symbols.map (Symbol.shown names) =
    other.symbols.symbols.map (Symbol.shown others)

/-- Every symbol of the scope is legible. -/
def Scope.Legible (names : NameTable) (scope : Scope) : Prop :=
  ∀ symbol ∈ scope.symbols.symbols, symbol.Legible names

/-- Every symbol of the forest is legible. -/
def Forest.Legible (names : NameTable) (forest : Forest) : Prop :=
  ∀ scope ∈ forest.scopes, scope.Legible names

/-- The lines that show a scope. -/
def Scope.paragraph (names : NameTable) (id : ScopeId) (scope : Scope) : List String :=
  scope.headline id :: (scope.symbols.symbols.map (Symbol.shown names)).map shownLine

/-- The lines that show scopes numbered from `first` on. -/
def paragraphs (names : NameTable) (first : Nat) (scopes : List Scope) : List String :=
  (scopes.zipIdx first).flatMap fun (scope, index) => scope.paragraph names ⟨index⟩

theorem paragraphs_cons (names : NameTable) (first : Nat) (scope : Scope) (rest : List Scope) :
    paragraphs names first (scope :: rest) =
      scope.paragraph names ⟨first⟩ ++ paragraphs names (first + 1) rest := by
  simp [paragraphs]

/-- Lines of symbols are indented; the first line of a paragraph is not. -/
def Indented (line : String) : Prop := line.toList.head? = some ' '

theorem indented_shownLine (shown : Option String × Ty) : Indented (shownLine shown) := by
  simp [Indented, shownLine]

theorem Scope.not_indented_headline (id : ScopeId) (scope : Scope) :
    ¬ Indented (scope.headline id) := by
  simp [Indented, Scope.headline]

theorem not_indented_paragraphs (names : NameTable) (first : Nat) (scopes : List Scope) :
    ∀ line ∈ (paragraphs names first scopes).head?, ¬ Indented line := by
  cases scopes with
  | nil => simp [paragraphs]
  | cons scope rest => simp [paragraphs_cons, Scope.paragraph, Scope.not_indented_headline]

theorem Scope.Legible.lines {scope : Scope} (legible : scope.Legible names) (id : ScopeId) :
    scope.lines names id = .ok (scope.paragraph names id) := by
  rw [Scope.lines, mapM_eq_pure fun symbol member => (legible symbol member).line]
  simp [Scope.paragraph, pure, Except.pure, bind, Except.bind]

/-- A legible forest has a dump: its paragraphs one after another. -/
theorem Forest.Legible.dump {forest : Forest} (legible : forest.Legible names) :
    forest.dump names =
      .ok (String.join ((paragraphs names 0 forest.scopes).map (· ++ "\n"))) := by
  have lines : ∀ entry ∈ forest.numbered,
      entry.2.lines names entry.1 = .ok (entry.2.paragraph names entry.1) := by
    intro entry member
    obtain ⟨⟨scope, index⟩, among, rfl⟩ := List.mem_map.1 member
    exact (legible scope (List.fst_mem_of_mem_zipIdx among)).lines ⟨index⟩
  have each : forest.numbered.mapM (fun entry => entry.2.lines names entry.1) =
      .ok (forest.numbered.map fun entry => entry.2.paragraph names entry.1) := mapM_eq_pure lines
  rw [Forest.dump, Forest.lines, each]
  simp [paragraphs, Forest.numbered, List.flatMap, Except.map, Function.comp_def]

theorem paragraphs_clean {scopes : List Scope} {first : Nat}
    (legible : ∀ scope ∈ scopes, scope.Legible names) :
    ∀ line ∈ paragraphs names first scopes, '\n' ∉ line.toList := by
  intro line member
  obtain ⟨⟨scope, index⟩, among, within⟩ := List.mem_flatMap.1 member
  rcases List.mem_cons.1 within with rfl | shown
  · exact scope.headline_clean ⟨index⟩
  · rw [List.map_map] at shown
    obtain ⟨symbol, held, rfl⟩ := List.mem_map.1 shown
    exact (legible scope (List.fst_mem_of_mem_zipIdx among) symbol held).clean

theorem Scope.ShowsAs.paragraph {scope other : Scope} (same : scope.ShowsAs names others other)
    (id : ScopeId) : scope.paragraph names id = other.paragraph others id := by
  rw [Scope.paragraph, Scope.paragraph, same.symbols, Scope.headline, same.kind, same.parent]
  rfl

/-- Scopes that show the same have the same paragraphs. -/
theorem paragraphs_congr {scopes twins : List Scope} (first : Nat)
    (alike : List.Forall₂ (Scope.ShowsAs names others) scopes twins) :
    paragraphs names first scopes = paragraphs others first twins := by
  induction alike generalizing first with
  | nil => rfl
  | cons same _ step => rw [paragraphs_cons, paragraphs_cons, same.paragraph, step]

theorem shown_of_lines {symbols twins : List Symbol}
    (legible : ∀ symbol ∈ symbols, symbol.Legible names)
    (alsoLegible : ∀ symbol ∈ twins, symbol.Legible others)
    (same : (symbols.map (Symbol.shown names)).map shownLine =
      (twins.map (Symbol.shown others)).map shownLine) :
    symbols.map (Symbol.shown names) = twins.map (Symbol.shown others) := by
  induction symbols generalizing twins with
  | nil =>
    cases twins with
    | nil => rfl
    | cons twin rest => simp at same
  | cons symbol rest step =>
    cases twins with
    | nil => simp at same
    | cons twin more =>
      simp only [List.map_cons, List.cons.injEq] at same ⊢
      constructor
      · exact (legible symbol (by simp)).shown_inj (alsoLegible twin (by simp)) same.1
      · exact step (fun later member => legible later (by simp [member]))
          (fun later member => alsoLegible later (by simp [member])) same.2

/-- Only scopes that show the same have the same paragraphs: a paragraph ends where the next line
is not indented. -/
theorem showsAs_of_paragraphs {scopes twins : List Scope} {first : Nat}
    (legible : ∀ scope ∈ scopes, scope.Legible names)
    (alsoLegible : ∀ scope ∈ twins, scope.Legible others)
    (same : paragraphs names first scopes = paragraphs others first twins) :
    List.Forall₂ (Scope.ShowsAs names others) scopes twins := by
  induction scopes generalizing twins first with
  | nil =>
    cases twins with
    | nil => exact .nil
    | cons other more => simp [Scope.paragraph, paragraphs] at same
  | cons scope rest step =>
    cases twins with
    | nil => simp [Scope.paragraph, paragraphs] at same
    | cons other more =>
      simp only [paragraphs_cons, Scope.paragraph, List.cons_append, List.cons.injEq] at same
      obtain ⟨kind, parent⟩ := Scope.headline_inj same.1
      have indented : ∀ shown : List (Option String × Ty),
          ∀ line ∈ shown.map shownLine, Indented line :=
        fun shown => List.forall_mem_map.2 fun entry _ => indented_shownLine entry
      obtain ⟨symbols, further⟩ := append_inj_of_marked (indented _) (indented _)
        (not_indented_paragraphs names (first + 1) rest)
        (not_indented_paragraphs others (first + 1) more) same.2
      apply List.Forall₂.cons
      · exact ⟨kind, parent, shown_of_lines (legible scope (by simp)) (alsoLegible other (by simp))
          symbols⟩
      · exact step (fun later member => legible later (by simp [member]))
          (fun later member => alsoLegible later (by simp [member])) further

/-- Two forests whose names have texts of one line have dumps, and the dumps are the same text if
and only if there are as many scopes in both and, scope by scope, the kinds, the scopes around and
the texts and types of the symbols are the same, in the same order. -/
theorem Forest.dump_faithful (forest other : Forest) (names others : NameTable)
    (legible : forest.Legible names) (alsoLegible : other.Legible others) :
    ∃ text twin, forest.dump names = .ok text ∧ other.dump others = .ok twin ∧
      (text = twin ↔
        List.Forall₂ (Scope.ShowsAs names others) forest.scopes other.scopes) := by
  refine ⟨_, _, legible.dump, alsoLegible.dump, ?_⟩
  constructor
  · intro same
    have lines := join_lines_inj (paragraphs_clean legible) (paragraphs_clean alsoLegible) same
    exact showsAs_of_paragraphs legible alsoLegible lines
  · intro alike
    rw [paragraphs_congr 0 alike]

/-- A name with a colon and a blank in it, numbered differently by two tables. -/
theorem Forest.dump_faithful_renumbered :
    let names : NameTable := ⟨["total: int"], by decide⟩
    let others : NameTable := ⟨["item", "total: int"], by decide⟩
    let symbol : Symbol := ⟨⟨0⟩, .map .int (.list .string)⟩
    let twin : Symbol := ⟨⟨1⟩, .map .int (.list .string)⟩
    let forest : Forest := ⟨[⟨none, .root, ⟨[(⟨0⟩, symbol)], by decide⟩⟩]⟩
    let other : Forest := ⟨[⟨none, .root, ⟨[(⟨1⟩, twin)], by decide⟩⟩]⟩
    forest.Legible names ∧ other.Legible others ∧
      ∃ text, forest.dump names = .ok text ∧ other.dump others = .ok text := by
  intro names others symbol twin forest other
  have legible : forest.Legible names := by
    simp [Forest.Legible, Scope.Legible, SymbolTable.symbols, Symbol.Legible, NameTable.text?,
      forest, names, symbol]
  have alsoLegible : other.Legible others := by
    simp [Forest.Legible, Scope.Legible, SymbolTable.symbols, Symbol.Legible, NameTable.text?,
      other, others, twin]
  obtain ⟨text, twinText, dumped, twinDumped, same⟩ :=
    Forest.dump_faithful forest other names others legible alsoLegible
  have alike : List.Forall₂ (Scope.ShowsAs names others) forest.scopes other.scopes :=
    .cons ⟨rfl, rfl, rfl⟩ .nil
  exact ⟨legible, alsoLegible, text, dumped, same.2 alike ▸ twinDumped⟩

end ScopeTyping
