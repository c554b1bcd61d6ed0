import ScopeTyping.Fault
import ScopeTyping.Scope.Table

/-! The forest of scopes. Each scope is known by its number and refers to the scope
around it by number; functions start trees of their own. Names are looked up from a
scope outwards, and the nearest binding counts.

The text of a forest is one paragraph per scope, with its symbols below it in the order in
which they were bound. -/
namespace ScopeTyping

/-- The number of a scope. -/
structure ScopeId where
  index : Nat
  deriving DecidableEq

/-- What opened a scope. -/
inductive ScopeKind where
  /-- A story. -/
  | root
  /-- An indented block, such as the body of a handler. -/
  | block
  /-- A loop over the items of a collection. -/
  | loop
  /-- A function, which sees nothing around it. -/
  | function
  deriving DecidableEq

/-- The word that dumps show for a kind of scope. -/
def ScopeKind.text : ScopeKind → String
  | .root => "root"
  | .block => "block"
  | .loop => "loop"
  | .function => "function"

/-- A scope: the scope around it, what opened it, and the symbols bound in it. -/
structure Scope where
  parent : Option ScopeId
  kind : ScopeKind
  symbols : SymbolTable
  deriving DecidableEq

/-- A scope in which nothing is bound yet. -/
def Scope.fresh (parent : Option ScopeId) (kind : ScopeKind) : Scope := ⟨parent, kind, .empty⟩

/-- Whether two scopes are alike but for the order of their symbols. -/
def Scope.agrees (left right : Scope) : Bool :=
  left.parent == right.parent && left.kind == right.kind && left.symbols.agrees right.symbols

/-- The scopes of a story in the order in which they were opened. -/
structure Forest where
  scopes : List Scope
  deriving DecidableEq

namespace Forest

/-- The forest without scopes. -/
def empty : Forest := ⟨[]⟩

/-- How many scopes there are. -/
def size (forest : Forest) : Nat := forest.scopes.length

/-- The scope of a number. -/
def scope (forest : Forest) (id : ScopeId) : Except Fault Scope :=
  match forest.scopes[id.index]? with
  | some found => .ok found
  | none => .error (.missingScope forest.size id.index)

/-- Opens a scope, with the next free number. -/
def create (forest : Forest) (parent : Option ScopeId) (kind : ScopeKind) : ScopeId × Forest :=
  (⟨forest.size⟩, ⟨forest.scopes ++ [.fresh parent kind]⟩)

/-- Opens a scope that sees nothing around it. -/
def createRoot (forest : Forest) (kind : ScopeKind) : ScopeId × Forest := forest.create none kind

/-- Opens a scope inside another one, which need not be there yet. -/
def createChild (forest : Forest) (parent : ScopeId) (kind : ScopeKind) : ScopeId × Forest :=
  forest.create (some parent) kind

/-- Binds a symbol under its own name, and answers with the symbol that it replaces. -/
def insert (forest : Forest) (id : ScopeId) (symbol : Symbol) :
    Except Fault (Option Symbol × Forest) :=
  (forest.scope id).map fun found =>
    (found.symbols.find? symbol.name,
      ⟨forest.scopes.set id.index { found with symbols := found.symbols.insert symbol.name symbol }⟩)

/-- The scopes from one outwards; the first argument bounds how many there may be. -/
def climb (forest : Forest) : Nat → ScopeId → Walk (ScopeId × Scope)
  | 0, _ => .stopped .endless
  | steps + 1, id =>
    match forest.scope id with
    | .error fault => .stopped fault
    | .ok found =>
      .cons (id, found) <| match found.parent with
        | none => .whole []
        | some parent => forest.climb steps parent

/-- The scopes from one outwards. A chain of parents that does not run in circles is
no longer than there are scopes. -/
def lineage (forest : Forest) (id : ScopeId) : Walk (ScopeId × Scope) :=
  forest.climb (forest.size + 1) id

/-- A scope and the scopes around it, the nearest first. -/
def ancestors (forest : Forest) (id : ScopeId) : Except Fault (List ScopeId) :=
  (forest.lineage id).toExcept.map (·.map Prod.fst)

/-- The symbol bound to a name in one scope. -/
def lookupLocal (forest : Forest) (id : ScopeId) (name : Name) : Except Fault (Option Symbol) :=
  (forest.scope id).map (·.symbols.find? name)

/-- The symbol bound to a name as seen from a scope. -/
def lookup (forest : Forest) (id : ScopeId) (name : Name) : Except Fault (Option Symbol) :=
  (forest.lineage id).findSome? fun (_, found) => found.symbols.find? name

/-- Every name visible from a scope, the innermost first, as often as it is bound. -/
def visibleNames (forest : Forest) (id : ScopeId) : Except Fault (List Name) :=
  (forest.lineage id).toExcept.map (·.flatMap fun (_, found) => found.symbols.keys)

/-- The scopes with their numbers. -/
def numbered (forest : Forest) : List (ScopeId × Scope) :=
  forest.scopes.zipIdx.map fun (found, index) => (⟨index⟩, found)

/-- The scopes that see nothing around them. -/
def roots (forest : Forest) : List ScopeId :=
  (forest.numbered.filter (·.2.parent.isNone)).map Prod.fst

/-- Whether two forests are alike but for the order of symbols within a scope. -/
def agrees (left right : Forest) : Bool :=
  left.size == right.size && (left.scopes.zip right.scopes).all fun (one, other) => one.agrees other

theorem scope_eq_ok_iff {forest : Forest} {id : ScopeId} {found : Scope} :
    forest.scope id = .ok found ↔ forest.scopes[id.index]? = some found := by
  unfold scope
  split <;> simp_all

theorem size_create (forest : Forest) (parent : Option ScopeId) (kind : ScopeKind) :
    (forest.create parent kind).2.size = forest.size + 1 := by
  simp [create, size]

theorem scope_create (forest : Forest) (parent : Option ScopeId) (kind : ScopeKind) :
    (forest.create parent kind).2.scope (forest.create parent kind).1 =
      .ok (.fresh parent kind) := by
  simp [create, scope, size]

theorem size_insert {forest after : Forest} {id : ScopeId} {symbol : Symbol}
    {replaced : Option Symbol} (done : forest.insert id symbol = .ok (replaced, after)) :
    after.size = forest.size := by
  unfold insert at done
  cases held : forest.scope id with
  | error fault => simp [held, Except.map] at done
  | ok found =>
    simp only [held, Except.map, Except.ok.injEq, Prod.mk.injEq] at done
    obtain ⟨_, rfl⟩ := done
    simp [size]

/-- Opening a scope leaves the others as they are. -/
theorem scope_create_of_ok {forest : Forest} {id : ScopeId} {found : Scope}
    (held : forest.scope id = .ok found) (parent : Option ScopeId) (kind : ScopeKind) :
    (forest.create parent kind).2.scope id = .ok found := by
  rw [scope_eq_ok_iff] at held ⊢
  have inside : id.index < forest.scopes.length := (List.getElem?_eq_some_iff.1 held).1
  simpa only [create, List.getElem?_append_left inside] using held

/-- Binding a symbol changes the table of one scope and nothing else. -/
theorem scope_insert {forest after : Forest} {id other : ScopeId} {symbol : Symbol}
    {replaced : Option Symbol} (done : forest.insert id symbol = .ok (replaced, after)) :
    after.scope other = (forest.scope other).map fun found =>
      if other = id then { found with symbols := found.symbols.insert symbol.name symbol }
      else found := by
  unfold insert at done
  cases held : forest.scope id with
  | error fault => simp [held, Except.map] at done
  | ok found =>
    simp only [held, Except.map, Except.ok.injEq, Prod.mk.injEq] at done
    obtain ⟨_, rfl⟩ := done
    have there := scope_eq_ok_iff.1 held
    have inside : id.index < forest.scopes.length := (List.getElem?_eq_some_iff.1 there).1
    by_cases same : other = id
    · subst same
      have replacing : (forest.scopes.set other.index
          { found with symbols := found.symbols.insert symbol.name symbol })[other.index]? =
            some { found with symbols := found.symbols.insert symbol.name symbol } := by
        simp [inside]
      simp only [held, Except.map, if_true]
      exact scope_eq_ok_iff.2 replacing
    · have apart : id.index ≠ other.index := fun equal => same (by
        cases other; cases id; simp_all)
      simp only [scope, size, List.getElem?_set_ne apart, List.length_set, same, if_false]
      split <;> rfl

end Forest

/-- The line of a symbol. A name without a text is a fault. -/
def Symbol.line (names : NameTable) (symbol : Symbol) : Except Fault String :=
  (names.text symbol.name).map fun text => "  " ++ text ++ ": " ++ symbol.ty.text

theorem Symbol.line_of_text? {names : NameTable} {symbol : Symbol} {text : String}
    (known : names.text? symbol.name = some text) :
    symbol.line names = .ok ("  " ++ text ++ ": " ++ symbol.ty.text) := by
  simp [Symbol.line, NameTable.text, known, Except.map]

/-- The line that opens a scope's paragraph. -/
def Scope.headline (id : ScopeId) (scope : Scope) : String :=
  "scope " ++ toString id.index ++ " (" ++ scope.kind.text ++ ")" ++
    (match scope.parent with
      | none => ""
      | some parent => " parent " ++ toString parent.index)

/-- The lines of a scope. -/
def Scope.lines (names : NameTable) (id : ScopeId) (scope : Scope) :
    Except Fault (List String) := do
  let symbols ← scope.symbols.symbols.mapM (Symbol.line names)
  pure (scope.headline id :: symbols)

/-- The lines of a forest. -/
def Forest.lines (names : NameTable) (forest : Forest) : Except Fault (List String) := do
  let paragraphs ← forest.numbered.mapM fun (id, scope) => scope.lines names id
  pure paragraphs.flatten

/-- The text of a forest: its lines, each with a line end. -/
def Forest.dump (names : NameTable) (forest : Forest) : Except Fault String :=
  (forest.lines names).map fun lines => String.join (lines.map (· ++ "\n"))

end ScopeTyping
