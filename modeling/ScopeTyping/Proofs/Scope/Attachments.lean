import Mathlib.Data.List.Sort
import ScopeTyping.Scope.Annotations

/-! Tables of attached scopes by what they answer. A table holds no more than its answers, so
two tables that answer alike are one (`ext_get?`), and since a node has one entry at most, a
table is no larger than the range in which its nodes lie (`size_le`). -/
namespace ScopeTyping
namespace Annotations

variable {annotations other after : Annotations} {node : NodeId} {scope : ScopeId}

/-- No two entries are of one node. -/
theorem keys_nodup (annotations : Annotations) : (annotations.entries.map Prod.fst).Nodup := by
  rw [List.nodup_iff_pairwise_ne, List.pairwise_map]
  refine annotations.ordered.imp fun before same => ?_
  rw [same] at before
  exact Nat.lt_irrefl _ before

theorem mem_entries_iff :
    (node, scope) ∈ annotations.entries ↔ annotations.get? node = some scope := by
  constructor
  · intro member
    obtain ⟨before, later, split⟩ := List.append_of_mem member
    have keys := annotations.keys_nodup
    rw [split, List.map_append, List.nodup_append] at keys
    refine List.lookup_eq_some_iff.2 ⟨before, later, split, fun entry earlier => ?_⟩
    have apart := keys.2.2 entry.1 (List.mem_map_of_mem earlier) node (by simp)
    simpa using Ne.symm apart
  · intro held
    obtain ⟨before, later, split, _⟩ := List.lookup_eq_some_iff.1 held
    simp [split]

/-- Tables that give every node the same scope are the same. -/
theorem ext_get? (same : ∀ node, annotations.get? node = other.get? node) :
    annotations = other := by
  have antisymm : Std.Antisymm fun left right : NodeId × ScopeId => left.1.index < right.1.index :=
    ⟨fun _ _ before after => absurd (before.trans after) (Nat.lt_irrefl _)⟩
  have irrefl : Std.Irrefl fun left right : NodeId × ScopeId => left.1.index < right.1.index :=
    ⟨fun _ => Nat.lt_irrefl _⟩
  have entries : annotations.entries = other.entries := by
    refine annotations.ordered.eq_of_mem_iff other.ordered fun ⟨node, scope⟩ => ?_
    rw [mem_entries_iff, mem_entries_iff, same]
  cases annotations
  cases other
  cases entries
  rfl

/-- A node without a scope can get one. -/
theorem attach?_exists (free : annotations.get? node = none) (scope : ScopeId) :
    ∃ after, annotations.attach? node scope = some after := by
  unfold attach?
  split
  · rename_i held
    cases free.symm.trans held
  · exact ⟨_, rfl⟩

theorem attach?_of_held (held : annotations.get? node = some scope) (other : ScopeId) :
    annotations.attach? node other = none := by
  unfold attach?
  split
  · rfl
  · rename_i free
    cases free.symm.trans held

theorem size_attach? (done : annotations.attach? node scope = some after) :
    after.size = annotations.size + 1 := by
  have placed : ∀ entries, (place node scope entries).length = entries.length + 1 := by
    intro entries
    induction entries with
    | nil => rfl
    | cons entry rest step =>
      unfold place
      split
      · rfl
      · simp [step]
  unfold attach? at done
  split at done
  · cases done
  · cases done
    exact placed annotations.entries

/-- There are no more entries than places for nodes. -/
theorem size_le {bound : Nat}
    (inside : ∀ node scope, annotations.get? node = some scope → node.index < bound) :
    annotations.size ≤ bound := by
  have indices : (annotations.entries.map fun entry => entry.1.index).Nodup := by
    rw [List.nodup_iff_pairwise_ne, List.pairwise_map]
    exact annotations.ordered.imp Nat.ne_of_lt
  have within : annotations.entries.map (fun entry => entry.1.index) ⊆ List.range bound := by
    intro index member
    obtain ⟨⟨node, scope⟩, held, rfl⟩ := List.mem_map.1 member
    exact List.mem_range.2 (inside node scope (mem_entries_iff.1 held))
  simpa [size] using (List.subperm_of_subset indices within).length_le

end Annotations
end ScopeTyping
