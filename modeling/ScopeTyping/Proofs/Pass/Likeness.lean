import ScopeTyping.Proofs.Pass.Mirror

/-! Resolutions of two stories that differ in their identifiers. They attach the same scopes to
the same nodes, and what one scope binds the other one binds, in the same order and under the
renamed text. If nothing is renamed, nobody can tell their dumps apart (`Renamed.dumps`); and if
one run went on with the names of the other one, they are equal (`Renamed.eq_of_grows`). -/
namespace ScopeTyping

/-- Scopes inside the same scope whose symbols stand for the same texts, after renaming. -/
structure Scope.Renamed (f : String → String) (names twins : NameTable) (found twin : Scope) :
    Prop where
  parent : twin.parent = found.parent
  kind : twin.kind = found.kind
  entries : List.Forall₂ (SameEntry f names twins) found.symbols.entries twin.symbols.entries

/-- Resolutions that give every node the same scope, and every scope the same symbols after
renaming. -/
structure Resolution.Renamed (f : String → String) (names twins : NameTable)
    (resolution twin : Resolution) : Prop where
  annotations : twin.annotations = resolution.annotations
  scopes : List.Forall₂ (Scope.Renamed f names twins) resolution.scopes.scopes twin.scopes.scopes

variable {f : String → String} {names twins one other : NameTable} {left right : Snapshot}
  {count : Nat}

/-- Scopes counted from the start of a story have one number in both stories. -/
theorem Paired.eq_of_initial {here there : ScopeId}
    (paired : Paired (.initial one) (.initial other) count here there) : there = here := by
  obtain ⟨offset, _, rfl, rfl⟩ := paired
  rfl

/-- Runs that mirror each other from the start of a story come to resolutions alike. -/
theorem Mirror.renamed (mirror : Mirror f (.initial one) (.initial other) left right count) :
    left.resolution.Renamed f left.names right.names right.resolution where
  annotations := by
    refine Annotations.ext_get? fun id => ?_
    rcases mirror.attached id with ⟨none, twinNone⟩ | ⟨_, _, here, there, held, twinHeld, paired⟩
    · exact twinNone.trans none.symm
    · exact twinHeld.trans ((congrArg some paired.eq_of_initial).trans held.symm)
  scopes := by
    have size : left.scopes.scopes.length = count := mirror.size.trans (Nat.zero_add count)
    have twinSize : right.scopes.scopes.length = count := mirror.twinSize.trans (Nat.zero_add count)
    refine List.forall₂_iff_get.2 ⟨size.trans twinSize.symm, fun index inside _ => ?_⟩
    obtain ⟨found, twin, held, twinHeld, same⟩ := mirror.opened index (size ▸ inside)
    have here : left.scopes.scopes[0 + index]? = some found := Forest.scope_eq_ok_iff.1 held
    have there : right.scopes.scopes[0 + index]? = some twin := Forest.scope_eq_ok_iff.1 twinHeld
    rw [Nat.zero_add] at here there
    obtain ⟨_, rfl⟩ := List.getElem?_eq_some_iff.1 here
    obtain ⟨_, rfl⟩ := List.getElem?_eq_some_iff.1 there
    refine ⟨?_, same.kind, same.entries⟩
    rcases optionRel_cases same.parent with ⟨alone, twinAlone⟩ | ⟨_, _, around, twinAround, paired⟩
    · exact twinAlone.trans alone.symm
    · exact twinAround.trans ((congrArg some paired.eq_of_initial).trans around.symm)

/-! ### Dumps -/

/-- Items that are answered alike one by one are answered alike together. -/
theorem mapM_alike {α β γ : Type} {answer : α → Except Fault γ} {twin : β → Except Fault γ}
    {items : List α} {others : List β}
    (alike : List.Forall₂ (fun item other => ∃ value, answer item = .ok value ∧
      twin other = .ok value) items others) :
    ∃ values, items.mapM answer = .ok values ∧ others.mapM twin = .ok values := by
  induction alike with
  | nil => exact ⟨[], rfl, rfl⟩
  | cons first _ step =>
    obtain ⟨value, known, twinKnown⟩ := first
    obtain ⟨values, rest, twinRest⟩ := step
    refine ⟨value :: values, ?_, ?_⟩
    · rw [List.mapM_cons, known, rest]
      rfl
    · rw [List.mapM_cons, twinKnown, twinRest]
      rfl

theorem forall₂_zipIdx {α β : Type} {R : α → β → Prop} {items : List α} {others : List β}
    (related : List.Forall₂ R items others) (start : Nat) :
    List.Forall₂ (fun item other => other.2 = item.2 ∧ R item.1 other.1) (items.zipIdx start)
      (others.zipIdx start) := by
  induction related generalizing start with
  | nil => exact .nil
  | cons first _ step => exact .cons ⟨rfl, first⟩ (step (start + 1))

/-- Scopes alike have the same lines. -/
theorem Scope.Renamed.lines {found twin : Scope}
    (same : Scope.Renamed (fun text => text) names twins found twin) (id : ScopeId) :
    ∃ lines, found.lines names id = .ok lines ∧ twin.lines twins id = .ok lines := by
  obtain ⟨lines, known, twinKnown⟩ : ∃ lines,
      found.symbols.symbols.mapM (Symbol.line names) = .ok lines ∧
      twin.symbols.symbols.mapM (Symbol.line twins) = .ok lines := by
    apply mapM_alike
    unfold SymbolTable.symbols
    rw [List.forall₂_map_left_iff, List.forall₂_map_right_iff]
    refine same.entries.imp fun entry twin alike => ?_
    obtain ⟨text, known, twinKnown⟩ := alike.named
    refine ⟨_, Symbol.line_of_text? (alike.own ▸ known), ?_⟩
    rw [Symbol.line_of_text? (alike.twinOwn ▸ twinKnown), alike.typed]
  refine ⟨found.headline id :: lines, by rw [Scope.lines, known]; rfl, ?_⟩
  rw [Scope.lines, twinKnown]
  unfold Scope.headline
  rw [same.kind, same.parent]
  rfl

/-- Resolutions alike have one dump, and it can be shown. -/
theorem Resolution.Renamed.dumps {resolution twin : Resolution}
    (same : Resolution.Renamed (fun text => text) names twins resolution twin) :
    ∃ text, resolution.scopes.dump names = .ok text ∧ twin.scopes.dump twins = .ok text := by
  obtain ⟨paragraphs, known, twinKnown⟩ : ∃ paragraphs,
      resolution.scopes.numbered.mapM (fun entry => entry.2.lines names entry.1) = .ok paragraphs ∧
      twin.scopes.numbered.mapM (fun entry => entry.2.lines twins entry.1) = .ok paragraphs := by
    apply mapM_alike
    unfold Forest.numbered
    rw [List.forall₂_map_left_iff, List.forall₂_map_right_iff]
    refine (forall₂_zipIdx same.scopes 0).imp fun (found, index) (twin, number) alike => ?_
    obtain ⟨rfl, scopes⟩ := alike
    exact scopes.lines ⟨number⟩
  refine ⟨_, by rw [Forest.dump, Forest.lines, known]; rfl, ?_⟩
  rw [Forest.dump, Forest.lines, twinKnown]
  rfl

/-! ### Names that both runs know -/

/-- Entries of one text are equal if one table has grown from the other one. -/
theorem SameEntry.eq_of_grows {entry twin : Name × Symbol}
    (same : SameEntry (fun text => text) names twins entry twin) (grown : names.Grows twins) :
    entry = twin := by
  obtain ⟨text, known, twinKnown⟩ := same.named
  obtain ⟨name, symbol⟩ := entry
  obtain ⟨twinName, twinSymbol⟩ := twin
  cases NameTable.name_unique (grown.text? known) twinKnown
  have own := same.own.trans same.twinOwn.symm
  have typed := same.typed
  cases symbol
  cases twinSymbol
  simp_all

theorem Scope.Renamed.eq_of_grows {found twin : Scope}
    (same : Scope.Renamed (fun text => text) names twins found twin) (grown : names.Grows twins) :
    found = twin := by
  obtain ⟨parent, kind, entries⟩ := same
  have equal := entries.imp fun _ _ entry => SameEntry.eq_of_grows entry grown
  rw [List.forall₂_eq_eq_eq] at equal
  obtain ⟨_, _, symbols⟩ := found
  obtain ⟨_, _, twinSymbols⟩ := twin
  cases symbols
  cases twinSymbols
  simp_all

/-- Resolutions alike are equal if the names of one have grown from those of the other one. -/
theorem Resolution.Renamed.eq_of_grows {resolution twin : Resolution}
    (same : Resolution.Renamed (fun text => text) names twins resolution twin)
    (grown : names.Grows twins) : resolution = twin := by
  have scopes := same.scopes.imp fun _ _ scope => Scope.Renamed.eq_of_grows scope grown
  rw [List.forall₂_eq_eq_eq] at scopes
  obtain ⟨⟨_⟩, _⟩ := resolution
  obtain ⟨⟨_⟩, _⟩ := twin
  cases scopes
  cases same.annotations
  rfl

end ScopeTyping
