import ScopeTyping.Proofs.Scope.Sight

/-! What a symbol table holds after a sequence of bindings, in texts instead of names. Each text
stands where it was bound first, with the type that it was bound to last (`Lists`). -/
namespace ScopeTyping

/-- One more item comes last, unless it was there already. -/
theorem eraseDups_concat {α : Type} [DecidableEq α] (items : List α) (item : α) :
    (items ++ [item]).eraseDups =
      if item ∈ items then items.eraseDups else items.eraseDups ++ [item] := by
  rw [List.eraseDups_append]
  by_cases known : item ∈ items <;> simp [List.removeAll, List.eraseDups_cons, known]

namespace SymbolTable

/-- The table is what one gets from binding texts to types one after another. -/
structure Lists (table : SymbolTable) (names : NameTable) (bindings : List (String × Ty)) : Prop where
  texts : table.keys.map names.text? = (bindings.map Prod.fst).eraseDups.map some
  types : ∀ name text, names.text? name = some text →
    table.find? name = (bindings.reverse.lookup text).map (Symbol.mk name)

variable {table : SymbolTable} {names later : NameTable} {bindings : List (String × Ty)}
  {name : Name} {text : String} {ty : Ty}

theorem Lists.nil (names : NameTable) : SymbolTable.empty.Lists names [] := ⟨rfl, fun _ _ _ => rfl⟩

theorem find?_eq_none_of_not_mem (absent : name ∉ table.keys) : table.find? name = none :=
  Option.not_isSome_iff_eq_none.1 fun found => absent ((table.find?_isSome_iff name).1 found)

/-- A key is the name of a text that was bound. -/
theorem Lists.text_of_key (lists : table.Lists names bindings) (member : name ∈ table.keys) :
    ∃ text ∈ bindings.map Prod.fst, names.text? name = some text := by
  have among := List.mem_map_of_mem (f := names.text?) member
  rw [lists.texts] at among
  obtain ⟨text, bound, same⟩ := List.mem_map.1 among
  exact ⟨text, List.mem_eraseDups.1 bound, same.symm⟩

/-- A text that was bound has a name, which is a key. -/
theorem Lists.key_of_text (lists : table.Lists names bindings)
    (bound : text ∈ bindings.map Prod.fst) :
    ∃ name ∈ table.keys, names.text? name = some text := by
  have among := List.mem_map_of_mem (f := some) (List.mem_eraseDups.2 bound)
  rw [← lists.texts] at among
  exact List.mem_map.1 among

theorem Lists.mem_keys_iff (lists : table.Lists names bindings)
    (known : names.text? name = some text) :
    name ∈ table.keys ↔ text ∈ bindings.map Prod.fst := by
  constructor
  · intro member
    obtain ⟨other, bound, named⟩ := lists.text_of_key member
    cases known.symm.trans named
    exact bound
  · intro bound
    obtain ⟨other, member, named⟩ := lists.key_of_text bound
    cases NameTable.name_unique known named
    exact member

/-- A text that was bound is found under its name. -/
theorem Lists.find?_exists (lists : table.Lists names bindings)
    (known : names.text? name = some text) (bound : text ∈ bindings.map Prod.fst) :
    ∃ symbol, table.find? name = some symbol := by
  cases found : table.find? name with
  | some symbol => exact ⟨symbol, rfl⟩
  | none =>
    have missing := List.lookup_eq_none_iff.1 found
    obtain ⟨entry, member, same⟩ := List.mem_map.1 ((lists.mem_keys_iff known).2 bound)
    exact absurd same.symm (bne_iff_ne.1 (missing entry member))

/-- Binding a text keeps its place if it has one, and gives it the last place if not. -/
theorem Lists.insert (lists : table.Lists names bindings) (known : names.text? name = some text) :
    (table.insert name ⟨name, ty⟩).Lists names (bindings ++ [(text, ty)]) := by
  constructor
  · rw [keys_insert, List.map_append, List.map_singleton, eraseDups_concat]
    by_cases bound : text ∈ bindings.map Prod.fst
    · rw [if_pos ((lists.mem_keys_iff known).2 bound), lists.texts, if_pos bound]
    · rw [if_neg (mt (lists.mem_keys_iff known).1 bound), if_neg bound, List.map_append,
        List.map_append, lists.texts, List.map_singleton, List.map_singleton, known]
  · intro other held otherKnown
    rw [find?_insert, List.reverse_append, List.reverse_singleton, List.singleton_append,
      List.lookup_cons]
    by_cases same : other = name
    · subst same
      cases known.symm.trans otherKnown
      simp
    · have apart : held ≠ text := fun equal =>
        same (NameTable.name_unique otherKnown (equal ▸ known))
      rw [if_neg same, beq_eq_false_iff_ne.2 apart]
      exact lists.types other held otherKnown

/-- Names that are handed out later change nothing. -/
theorem Lists.grow (lists : table.Lists names bindings) (grown : names.Grows later) :
    table.Lists later bindings := by
  constructor
  · rw [← lists.texts]
    refine List.map_congr_left fun name member => ?_
    obtain ⟨text, _, known⟩ := lists.text_of_key member
    rw [known, grown.text? known]
  · intro name text known
    by_cases bound : text ∈ bindings.map Prod.fst
    · obtain ⟨other, _, named⟩ := lists.key_of_text bound
      cases NameTable.name_unique known (grown.text? named)
      exact lists.types name text named
    · have absent : name ∉ table.keys := by
        intro member
        obtain ⟨held, among, named⟩ := lists.text_of_key member
        cases known.symm.trans (grown.text? named)
        exact bound among
      have unbound : bindings.reverse.lookup text = none := by
        rw [List.lookup_eq_none_iff]
        intro binding member
        refine bne_iff_ne.2 fun same => bound ?_
        exact List.mem_map.2 ⟨binding, List.mem_reverse.1 member, same.symm⟩
      rw [find?_eq_none_of_not_mem absent, unbound]
      rfl

end SymbolTable
end ScopeTyping
