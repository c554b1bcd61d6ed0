import ScopeTyping.Proofs.Scope.Chain

/-! What becomes of the scopes of a forest. A forest keeps another one but for some scopes if
all scopes of the other one are still there, inside the same scopes and of the same kinds, and
only the tables of those scopes may have changed. If there are none, whatever a scope showed it
still shows. -/
namespace ScopeTyping
namespace Forest

variable {forest before between after : Forest} {touched wider : ScopeId → Prop} {id : ScopeId}

/-- The scopes of one forest are kept in another one, but for the tables of some. -/
def KeptBut (touched : ScopeId → Prop) (before after : Forest) : Prop :=
  ∀ id found, before.scope id = .ok found → ∃ kept, after.scope id = .ok kept ∧
    kept.parent = found.parent ∧ kept.kind = found.kind ∧ (¬ touched id → kept = found)

namespace KeptBut

theorem refl (touched : ScopeId → Prop) (forest : Forest) : KeptBut touched forest forest :=
  fun _ found held => ⟨found, held, rfl, rfl, fun _ => rfl⟩

theorem trans (first : KeptBut touched before between) (second : KeptBut touched between after) :
    KeptBut touched before after := by
  intro id found held
  obtain ⟨kept, there, parent, kind, same⟩ := first id found held
  obtain ⟨last, atEnd, lastParent, lastKind, sameLater⟩ := second id kept there
  exact ⟨last, atEnd, lastParent.trans parent, lastKind.trans kind,
    fun untouched => (sameLater untouched).trans (same untouched)⟩

/-- Scopes that were not there before need not be counted among the touched ones. -/
theorem narrow (kept : KeptBut wider before after)
    (only : ∀ id, id.index < before.size → wider id → touched id) :
    KeptBut touched before after := by
  intro id found held
  obtain ⟨last, there, parent, kind, same⟩ := kept id found held
  exact ⟨last, there, parent, kind, fun untouched =>
    same fun changed => untouched (only id (lt_size_of_scope held) changed)⟩

theorem create (forest : Forest) (parent : Option ScopeId) (kind : ScopeKind) :
    KeptBut touched forest (forest.create parent kind).2 :=
  fun _ found held => ⟨found, scope_create_of_ok held parent kind, rfl, rfl, fun _ => rfl⟩

theorem insert {scope : ScopeId} {symbol : Symbol} {replaced : Option Symbol}
    (done : forest.insert scope symbol = .ok (replaced, after)) :
    KeptBut (· = scope) forest after := by
  intro id found held
  by_cases here : id = scope
  · subst here
    exact ⟨_, scope_insert_self done held, rfl, rfl, fun untouched => absurd rfl untouched⟩
  · exact ⟨found, scope_insert_of_ne done here held, rfl, rfl, fun _ => rfl⟩

/-- A scope that is not touched is still what it was. -/
theorem untouched (kept : KeptBut touched before after) (free : ¬ touched id) {found : Scope}
    (held : before.scope id = .ok found) : after.scope id = .ok found := by
  obtain ⟨last, there, _, _, same⟩ := kept id found held
  exact same free ▸ there

theorem size_le (kept : KeptBut touched before after) : before.size ≤ after.size := by
  refine Nat.le_of_not_lt fun shorter => ?_
  have inside : (⟨after.size⟩ : ScopeId).index < before.size := shorter
  obtain ⟨found, held⟩ := scope_exists inside
  obtain ⟨last, there, _⟩ := kept _ found held
  exact Nat.lt_irrefl _ (lt_size_of_scope there)

end KeptBut

/-- If every scope is kept as it is, a climb meets the scopes that it met before, and perhaps
more where it had to stop. -/
theorem KeptBut.climb (kept : KeptBut (fun _ => False) before after) {steps more : Nat}
    (enough : steps ≤ more) (id : ScopeId) :
    (before.climb steps id).items <+: (after.climb more id).items ∧
      ((before.climb steps id).fault = none → after.climb more id = before.climb steps id) := by
  induction steps generalizing more id with
  | zero => exact ⟨List.nil_prefix, fun whole => by cases whole⟩
  | succ steps step =>
    obtain ⟨more, rfl⟩ := Nat.exists_eq_add_one_of_ne_zero (Nat.ne_of_gt (Nat.zero_lt_of_lt enough))
    cases held : before.scope id with
    | error fault =>
      simp only [Forest.climb, held]
      exact ⟨List.nil_prefix, fun whole => by cases whole⟩
    | ok found =>
      have there := kept.untouched not_false held
      simp only [Forest.climb, held, there]
      cases found.parent with
      | none => exact ⟨List.prefix_refl _, fun _ => rfl⟩
      | some parent =>
        obtain ⟨shorter, whole⟩ := step (Nat.le_of_succ_le_succ enough) parent
        refine ⟨?_, fun ended => ?_⟩
        · simpa [Walk.cons] using shorter
        · dsimp only
          rw [whole ended]

/-- If every scope is kept as it is, every lookup that had an answer still has it. -/
theorem KeptBut.lookup (kept : KeptBut (fun _ => False) before after) {name : Name}
    {answer : Option Symbol} (seen : before.lookup id name = .ok answer) :
    after.lookup id name = .ok answer := by
  obtain ⟨shorter, whole⟩ := kept.climb (Nat.succ_le_succ kept.size_le) id
  unfold Forest.lookup Walk.findSome? at seen ⊢
  split at seen
  · rename_i symbol met
    obtain ⟨further, same⟩ := shorter
    unfold Forest.lineage at met ⊢
    rw [← same, List.findSome?_append, met]
    exact seen
  · rename_i met
    cases ended : (before.lineage id).fault with
    | some fault =>
      rw [ended] at seen
      cases seen
    | none =>
      rw [ended] at seen
      have same : after.lineage id = before.lineage id := whole ended
      rw [same, met, ended]
      exact seen

end Forest
end ScopeTyping
