import Mathlib.Data.List.Forall2
import Mathlib.Data.List.Nodup
import ScopeTyping.Proofs.Scope.Chain

/-! What can be seen from a scope, in texts instead of names. Two forests whose scopes show
the same sight cannot be told apart by looking names up, however the names are numbered. -/
namespace ScopeTyping

namespace NameTable

variable {table more later : NameTable} {name other : Name} {text : String}

/-- One table knows all that another one knows, under the same names. -/
def Grows (table more : NameTable) : Prop := table.texts <+: more.texts

theorem Grows.refl (table : NameTable) : table.Grows table := List.prefix_refl _

theorem Grows.trans (first : table.Grows more) (second : more.Grows later) : table.Grows later :=
  List.IsPrefix.trans first second

theorem grows_intern (table : NameTable) (text : String) : table.Grows (table.intern text).2 :=
  intern_extends table text

/-- A name keeps its text in a table that has grown. -/
theorem Grows.text? (grown : table.Grows more) (known : table.text? name = some text) :
    more.text? name = some text := by
  obtain ⟨added, same⟩ := grown
  have inside : name.index < table.texts.length := (List.getElem?_eq_some_iff.1 known).1
  simpa only [NameTable.text?, ← same, List.getElem?_append_left inside] using known

/-- A text has one name. -/
theorem name_unique (known : table.text? name = some text) (also : table.text? other = some text) :
    name = other := by
  unfold text? at known also
  obtain ⟨bound, here⟩ := List.getElem?_eq_some_iff.1 known
  obtain ⟨otherBound, there⟩ := List.getElem?_eq_some_iff.1 also
  have same : name.index = other.index :=
    (List.Nodup.getElem_inj_iff table.nodup).1 (here.trans there.symm)
  cases name
  cases other
  exact congrArg Name.mk same

/-- A text that has a name is given that name again. -/
theorem intern_of_text? (known : table.text? name = some text) :
    (table.intern text).1 = name :=
  name_unique (text?_intern table text) (text?_intern_of_text? known text)

end NameTable

/-- The bindings that a place sees, each text with its type, the innermost first. -/
abbrev Sight := List (String × Ty)

/-- A sight with other identifiers. -/
def Sight.rename (f : String → String) (sight : Sight) : Sight :=
  sight.map fun binding => (f binding.1, binding.2)

theorem Sight.lookup_rename {f : String → String} (injective : Function.Injective f)
    (sight : Sight) (text : String) : (sight.rename f).lookup (f text) = sight.lookup text := by
  induction sight with
  | nil => rfl
  | cons binding rest step =>
    obtain ⟨held, ty⟩ := binding
    by_cases same : text = held
    · simp [Sight.rename, same]
    · have apart : f text ≠ f held := fun equal => same (injective equal)
      simpa [Sight.rename, List.lookup_cons, beq_eq_false_iff_ne.2 same,
        beq_eq_false_iff_ne.2 apart] using step

theorem Sight.rename_append (f : String → String) (own outer : Sight) :
    Sight.rename f (own ++ outer) = own.rename f ++ outer.rename f := List.map_append ..

theorem Sight.texts_rename (f : String → String) (sight : Sight) :
    (sight.rename f).map Prod.fst = (sight.map Prod.fst).map f := by
  simp [Sight.rename]

/-- An entry of a symbol table, read with the texts of a name table. -/
def Reads (names : NameTable) (entry : Name × Symbol) (binding : String × Ty) : Prop :=
  names.text? entry.1 = some binding.1 ∧ entry.2.ty = binding.2

/-- A scope shows a sight: the entries of its chain, read one by one. -/
def Sees (forest : Forest) (names : NameTable) (scope : ScopeId) (sight : Sight) : Prop :=
  ∃ chain, Forest.Chain forest scope chain ∧
    List.Forall₂ (Reads names) (chain.flatMap fun link => link.2.symbols.entries) sight

/-- Every key of a forest has a text. -/
def Forest.Named (forest : Forest) (names : NameTable) : Prop :=
  ∀ id found, forest.scope id = .ok found → ∀ entry ∈ found.symbols.entries,
    ∃ text, names.text? entry.1 = some text

variable {forest : Forest} {names more : NameTable} {scope : ScopeId} {sight : Sight}
  {name : Name} {text : String}

theorem Reads.grow {entry : Name × Symbol} {binding : String × Ty}
    (reads : Reads names entry binding) (grown : names.Grows more) : Reads more entry binding :=
  ⟨grown.text? reads.1, reads.2⟩

/-- A sight stays what it is when other texts get names. -/
theorem Sees.grow (sees : Sees forest names scope sight) (grown : names.Grows more) :
    Sees forest more scope sight := by
  obtain ⟨chain, linked, reads⟩ := sees
  exact ⟨chain, linked, reads.imp fun _ _ read => read.grow grown⟩

/-- A scope with nothing around it shows its own entries. -/
theorem Sees.outermost {found : Scope} (held : forest.scope scope = .ok found)
    (alone : found.parent = none) (reads : List.Forall₂ (Reads names) found.symbols.entries sight) :
    Sees forest names scope sight := by
  refine ⟨_, .outermost held alone, ?_⟩
  rw [List.flatMap_singleton]
  exact reads

/-- A scope shows its own entries in front of what the scope around it shows. -/
theorem Sees.inside {found : Scope} {outer : ScopeId} {own : Sight}
    (around : Sees forest names outer sight) (held : forest.scope scope = .ok found)
    (parent : found.parent = some outer) (before : outer.index < scope.index)
    (reads : List.Forall₂ (Reads names) found.symbols.entries own) :
    Sees forest names scope (own ++ sight) := by
  obtain ⟨chain, linked, further⟩ := around
  refine ⟨_, .inside held parent before linked, ?_⟩
  rw [List.flatMap_cons]
  exact List.rel_append reads further

theorem forall₂_reads_exists {entries : List (Name × Symbol)}
    (named : ∀ entry ∈ entries, ∃ text, names.text? entry.1 = some text) :
    ∃ sight, List.Forall₂ (Reads names) entries sight := by
  induction entries with
  | nil => exact ⟨[], .nil⟩
  | cons entry rest step =>
    obtain ⟨sight, reads⟩ := step fun other member => named other (List.mem_cons_of_mem _ member)
    obtain ⟨text, known⟩ := named entry (List.mem_cons_self ..)
    exact ⟨(text, entry.2.ty) :: sight, .cons ⟨known, rfl⟩ reads⟩

/-- Every scope of a nested forest whose keys have texts shows a sight. -/
theorem Forest.Nested.sees_exists (nested : forest.Nested) (named : forest.Named names)
    (inside : scope.index < forest.size) : ∃ sight, Sees forest names scope sight := by
  obtain ⟨chain, linked⟩ := nested.chain_exists inside
  have texts : ∀ entry ∈ chain.flatMap (fun link => link.2.symbols.entries),
      ∃ text, names.text? entry.1 = some text := by
    intro entry member
    obtain ⟨link, among, held⟩ := List.mem_flatMap.1 member
    exact named link.1 link.2 (linked.scope_of_mem among).1 entry held
  obtain ⟨sight, reads⟩ := forall₂_reads_exists texts
  exact ⟨sight, chain, linked, reads⟩

/-! ### Looking up by name is looking up by text -/

theorem lookup_reads {entries : List (Name × Symbol)}
    (reads : List.Forall₂ (Reads names) entries sight) (known : names.text? name = some text) :
    (entries.lookup name).map Symbol.ty = sight.lookup text := by
  induction reads with
  | nil => rfl
  | @cons entry binding entries sight read rest step =>
    obtain ⟨key, symbol⟩ := entry
    obtain ⟨held, ty⟩ := binding
    obtain ⟨keyKnown, typed⟩ := read
    by_cases same : name = key
    · subst same
      have texts : held = text := Option.some.inj (keyKnown.symm.trans known)
      simp only [List.lookup_cons, texts, beq_self_eq_true, Option.map_some]
      exact congrArg some typed
    · have apart : text ≠ held := fun equal =>
        same (NameTable.name_unique known (equal ▸ keyKnown))
      simpa only [List.lookup_cons, beq_eq_false_iff_ne.2 same, beq_eq_false_iff_ne.2 apart]
        using step

theorem findSome?_lookup (chain : List (ScopeId × Scope)) (name : Name) :
    (chain.findSome? fun link => link.2.symbols.find? name) =
      (chain.flatMap fun link => link.2.symbols.entries).lookup name := by
  induction chain with
  | nil => rfl
  | cons link rest step =>
    rw [List.findSome?_cons, List.flatMap_cons, List.lookup_append, step]
    unfold SymbolTable.find?
    cases link.2.symbols.entries.lookup name <;> rfl

/-- What a lookup finds is what the sight shows for the text. -/
theorem Sees.lookup (sees : Sees forest names scope sight) (known : names.text? name = some text) :
    ∃ answer, forest.lookup scope name = .ok answer ∧ answer.map Symbol.ty = sight.lookup text := by
  obtain ⟨chain, linked, reads⟩ := sees
  refine ⟨_, linked.lookup_eq name, ?_⟩
  rw [findSome?_lookup]
  exact lookup_reads reads known

/-- The visible names are the texts of the sight, in order. -/
theorem Sees.visibleNames (sees : Sees forest names scope sight) :
    ∃ visible, forest.visibleNames scope = .ok visible ∧
      List.Forall₂ (fun name text => names.text? name = some text) visible (sight.map Prod.fst) := by
  obtain ⟨chain, linked, reads⟩ := sees
  refine ⟨_, linked.visibleNames_eq, ?_⟩
  have keys : (chain.flatMap fun link => link.2.symbols.keys) =
      (chain.flatMap fun link => link.2.symbols.entries).map Prod.fst := by
    rw [List.map_flatMap]
    rfl
  rw [keys, List.forall₂_map_left_iff, List.forall₂_map_right_iff]
  exact reads.imp fun _ _ read => read.1

theorem exists_reads_of_lookup {entries : List (Name × Symbol)}
    (reads : List.Forall₂ (Reads names) entries sight) {ty : Ty}
    (shown : sight.lookup text = some ty) : ∃ name, names.text? name = some text := by
  induction reads with
  | nil => cases shown
  | @cons entry binding entries sight read rest step =>
    by_cases same : text = binding.1
    · exact ⟨entry.1, same ▸ read.1⟩
    · rw [List.lookup_cons, beq_eq_false_iff_ne.2 same] at shown
      exact step shown

/-- What is shown has a name. -/
theorem Sees.name_exists (sees : Sees forest names scope sight) {ty : Ty}
    (shown : sight.lookup text = some ty) : ∃ name, names.text? name = some text := by
  obtain ⟨chain, linked, reads⟩ := sees
  exact exists_reads_of_lookup reads shown

/-- If every lookup that succeeds succeeds alike in another forest, then all that is shown
there is shown here. -/
theorem Sees.lookup_of_lookups {later : Forest} {wider : Sight}
    (sees : Sees forest names scope sight) (seesLater : Sees later more scope wider)
    (grown : names.Grows more)
    (kept : ∀ name symbol, forest.lookup scope name = .ok (some symbol) →
      later.lookup scope name = .ok (some symbol)) {ty : Ty}
    (shown : sight.lookup text = some ty) : wider.lookup text = some ty := by
  obtain ⟨name, known⟩ := sees.name_exists shown
  obtain ⟨answer, found, typed⟩ := sees.lookup known
  obtain ⟨answerLater, foundLater, typedLater⟩ := seesLater.lookup (grown.text? known)
  rw [shown] at typed
  obtain ⟨symbol, rfl, rfl⟩ := Option.map_eq_some_iff.1 typed
  rw [kept name symbol found, Except.ok.injEq] at foundLater
  subst foundLater
  exact typedLater.symm

end ScopeTyping
