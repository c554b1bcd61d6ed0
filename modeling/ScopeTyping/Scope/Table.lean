import ScopeTyping.Name
import ScopeTyping.Ty.Basic

/-! Symbols and the tables that hold them. A table keeps its keys in the order in
which they were first put in; putting a key in again changes what it holds and not
where it stands (`keys_insert`, `find?_insert`). -/
namespace ScopeTyping

/-- A name with its type. -/
structure Symbol where
  name : Name
  ty : Ty
  deriving DecidableEq

/-- Symbols under their keys, no key twice, in the order of first insertion. -/
structure SymbolTable where
  entries : List (Name × Symbol)
  distinct : (entries.map Prod.fst).Nodup
  deriving DecidableEq

namespace SymbolTable

/-- The table without symbols. -/
def empty : SymbolTable := ⟨[], List.nodup_nil⟩

/-- The keys, in order. -/
def keys (table : SymbolTable) : List Name := table.entries.map Prod.fst

/-- The symbols, in order. -/
def symbols (table : SymbolTable) : List Symbol := table.entries.map Prod.snd

/-- What a key holds. -/
def find? (table : SymbolTable) (key : Name) : Option Symbol := table.entries.lookup key

/-- The entries with `symbol` under `key`: where the key stands, or else at the end. -/
def put (key : Name) (symbol : Symbol) : List (Name × Symbol) → List (Name × Symbol)
  | [] => [(key, symbol)]
  | (held, old) :: rest =>
    if held = key then (held, symbol) :: rest else (held, old) :: put key symbol rest

theorem keys_put (key : Name) (symbol : Symbol) (entries : List (Name × Symbol)) :
    (put key symbol entries).map Prod.fst =
      if key ∈ entries.map Prod.fst then entries.map Prod.fst
      else entries.map Prod.fst ++ [key] := by
  induction entries with
  | nil => simp [put]
  | cons entry rest step =>
    obtain ⟨held, old⟩ := entry
    by_cases same : held = key
    · simp [put, same]
    · by_cases present : key ∈ rest.map Prod.fst
      · simp [put, same, step, present]
      · simp [put, same, step, present, Ne.symm same]

theorem lookup_put (key other : Name) (symbol : Symbol) (entries : List (Name × Symbol)) :
    (put key symbol entries).lookup other =
      if other = key then some symbol else entries.lookup other := by
  induction entries with
  | nil =>
    by_cases found : other = key
    · simp [put, found]
    · have miss : (other == key) = false := beq_eq_false_iff_ne.2 found
      simp [put, List.lookup_cons, miss, found]
  | cons entry rest step =>
    obtain ⟨held, old⟩ := entry
    by_cases found : other = held
    · subst found
      by_cases same : other = key <;> simp [put, same]
    · have miss : (other == held) = false := beq_eq_false_iff_ne.2 found
      by_cases same : held = key
      · subst same
        simp [put, List.lookup_cons, miss, found]
      · simp [put, List.lookup_cons, same, miss, step]

/-- The table with `symbol` under `key`. -/
def insert (table : SymbolTable) (key : Name) (symbol : Symbol) : SymbolTable where
  entries := put key symbol table.entries
  distinct := by
    rw [keys_put]
    split
    · exact table.distinct
    · rename_i absent
      refine List.nodup_append.2 ⟨table.distinct, by simp, fun held memHeld other memOther same => ?_⟩
      rw [List.mem_singleton] at memOther
      exact absent (memOther ▸ same ▸ memHeld)

/-- The table of pairs put in one after another. -/
def ofList (pairs : List (Name × Symbol)) : SymbolTable :=
  pairs.foldl (fun table (key, symbol) => table.insert key symbol) empty

theorem find?_insert (table : SymbolTable) (key other : Name) (symbol : Symbol) :
    (table.insert key symbol).find? other = if other = key then some symbol else table.find? other :=
  lookup_put key other symbol table.entries

theorem keys_insert (table : SymbolTable) (key : Name) (symbol : Symbol) :
    (table.insert key symbol).keys = if key ∈ table.keys then table.keys else table.keys ++ [key] :=
  keys_put key symbol table.entries

/-- Whether two tables hold the same symbols under the same keys, in whatever order. -/
def agrees (left right : SymbolTable) : Bool :=
  left.entries.length == right.entries.length &&
    left.entries.all fun (key, symbol) => right.find? key == some symbol

end SymbolTable
end ScopeTyping
