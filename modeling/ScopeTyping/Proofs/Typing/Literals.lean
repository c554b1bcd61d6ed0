import ScopeTyping.Proofs.Ty.Join
import ScopeTyping.Proofs.Typing.Monotone

/-! The types of collection literals. What was found for a literal has room for all that its items
were found to be, because the common type of several types accepts each of them. The items are
typed on the way down from the literal, but a type that was found there is found from anywhere:
going deeper takes no answer back (`Upheld`). -/
namespace ScopeTyping

/-- What one typing computation finds, another one finds too, and leaves the same names. -/
def Upheld {α : Type} (typing further : Typing α) : Prop :=
  ∀ names value after, typing.outcome names = (.ok value, after) →
    further.outcome names = (.ok value, after)

/-- A type that was found is found too by who may go deeper. -/
theorem Typing.expressionWithin_upheld {view : View} {scope : ScopeId} (depth : Nat) (id : NodeId) :
    Upheld (expressionWithin view scope depth id) (expressionWithin view scope (depth + 1) id) := by
  intro names ty after ran
  have repeats : Repeats (expressionWithin view scope depth id)
      (expressionWithin view scope (depth + 1) id) :=
    expressionWithin_repeats rfl (fun _ _ offers => offers) (Nat.le_succ depth) id
  exact repeats.found ran

/-- An expression is found to have a type, whichever names are known before. -/
def View.Finds (view : View) (scope : ScopeId) (id : NodeId) (ty : Ty) : Prop :=
  ∃ names after, (Typing.expression view scope id).outcome names = (.ok ty, after)

/-- An expression was found to have a type that a slot accepts. -/
def View.Fits (view : View) (scope : ScopeId) (id : NodeId) (slot : Ty) : Prop :=
  ∃ ty, view.Finds scope id ty ∧ slot.accepts ty = true

namespace Typing

variable {view : View} {scope : ScopeId} {id : NodeId} {node : Node} {ty : Ty}

/-- What is found on the way down to a part is found at the part itself. -/
theorem finds_of_within {names after : NameTable}
    (ran : (expressionWithin view scope view.tree.size id).outcome names = (.ok ty, after)) :
    view.Finds scope id ty :=
  ⟨names, after, expressionWithin_upheld view.tree.size id names ty after ran⟩

theorem expression_list (held : view.tree.node id = .ok node) (literal : node.kind = .list) :
    expression view scope id = (node.children.mapM (expressionWithin view scope view.tree.size) >>=
      fun types => pure (.list (.joinAll types))) := by
  change expressionWith view scope (expressionWithin view scope view.tree.size) id = _
  simp only [expressionWith, View.node, held, Attempt.guard, pure_bind, literal]

theorem expression_map (held : view.tree.node id = .ok node) (literal : node.kind = .map) :
    expression view scope id = ((view.tree.childrenOfKind id .mapItem).mapM
        (entry view (expressionWithin view scope view.tree.size)) >>= fun entries =>
      pure (.map (.joinAll (entries.map Prod.fst)) (.joinAll (entries.map Prod.snd)))) := by
  change expressionWith view scope (expressionWithin view scope view.tree.size) id = _
  simp only [expressionWith, View.node, held, Attempt.guard, pure_bind, literal]

theorem twoChildren_found {names after : NameTable} {parts : NodeId × NodeId}
    (ran : (view.twoChildren id).outcome names = (.ok parts, after)) :
    ∃ node, view.tree.node id = .ok node ∧ node.children = [parts.1, parts.2] := by
  obtain ⟨node, held, parted⟩ := Attempt.guard_bind_ok ran
  refine ⟨node, held, ?_⟩
  split at parted
  · rename_i first second children
    cases parted
    exact children
  · exact absurd parted Attempt.malformed_fails

/-- The types of an entry are those that its key and its value were found to have. -/
theorem entry_found {names after : NameTable} {types : Ty × Ty}
    (ran : (entry view (expressionWithin view scope view.tree.size) id).outcome names =
      (.ok types, after)) :
    ∃ node key value, view.tree.node id = .ok node ∧ node.children = [key, value] ∧
      view.Finds scope key types.1 ∧ view.Finds scope value types.2 := by
  obtain ⟨parts, _, parted, ran⟩ := Fallible.outcome_bind_eq_ok.1 ran
  obtain ⟨keyTy, _, key, ran⟩ := Fallible.outcome_bind_eq_ok.1 ran
  obtain ⟨valueTy, _, value, ran⟩ := Fallible.outcome_bind_eq_ok.1 ran
  cases ran
  obtain ⟨node, held, children⟩ := twoChildren_found parted
  exact ⟨node, parts.1, parts.2, held, children, finds_of_within key, finds_of_within value⟩

/-- The type of a list literal is that of lists with room for each of its items. -/
theorem list_fits (found : view.Finds scope id ty) (held : view.tree.node id = .ok node)
    (literal : node.kind = .list) : ∃ element, ty = .list element ∧
      ∀ item ∈ node.children, view.Fits scope item element := by
  obtain ⟨names, after, ran⟩ := found
  rw [expression_list held literal] at ran
  obtain ⟨types, _, each, ran⟩ := Fallible.outcome_bind_eq_ok.1 ran
  cases ran
  refine ⟨Ty.joinAll types, rfl, fun item member => ?_⟩
  obtain ⟨part, among, before, later, answered⟩ := Attempt.outcome_mapM_eq_ok each item member
  exact ⟨part, finds_of_within answered, Ty.accepts_joinAll among⟩

/-- The type of a map literal is that of maps with room for each of its keys and values. -/
theorem map_fits (found : view.Finds scope id ty) (held : view.tree.node id = .ok node)
    (literal : node.kind = .map) : ∃ keyTy valueTy, ty = .map keyTy valueTy ∧
      ∀ item ∈ (view.tree.childrenOfKind id .mapItem).items, ∃ entry key value,
        view.tree.node item = .ok entry ∧ entry.children = [key, value] ∧
        view.Fits scope key keyTy ∧ view.Fits scope value valueTy := by
  obtain ⟨names, after, ran⟩ := found
  rw [expression_map held literal] at ran
  obtain ⟨entries, _, each, ran⟩ := Fallible.outcome_bind_eq_ok.1 ran
  cases ran
  refine ⟨_, _, rfl, fun item member => ?_⟩
  obtain ⟨types, among, before, later, answered⟩ := Attempt.outcome_mapM_walk_eq_ok each item member
  obtain ⟨entry, key, value, there, children, keyFound, valueFound⟩ := entry_found answered
  exact ⟨entry, key, value, there, children,
    ⟨_, keyFound, Ty.accepts_joinAll (List.mem_map_of_mem among)⟩,
    ⟨_, valueFound, Ty.accepts_joinAll (List.mem_map_of_mem among)⟩⟩

end Typing

namespace Ty

/-- Joining does not depend on the order of its operands or on how they are grouped, a type joined
with itself stays what it is, the dynamic type takes in everything, and what two types are joined
to accepts both. So the common type of a collection depends only on which types occur in it and
accepts each of them; and the type that was found for the literal of a list or a map has room for
each item, key and value in it, whatever their order. -/
theorem join_semilattice :
    (∀ left middle right : Ty, left.join right = right.join left ∧
      (left.join middle).join right = left.join (middle.join right) ∧
      left.join left = left ∧ left.join any = any ∧ (left.join right).accepts left = true) ∧
    (∀ types others : List Ty, (∀ ty, ty ∈ types ↔ ty ∈ others) →
      joinAll types = joinAll others) ∧
    (∀ types : List Ty, ∀ ty ∈ types, (joinAll types).accepts ty = true) ∧
    (∀ view scope id ty node, View.Finds view scope id ty → view.tree.node id = .ok node →
      (node.kind = .list → ∃ element, ty = list element ∧
        ∀ item ∈ node.children, view.Fits scope item element) ∧
      (node.kind = .map → ∃ key value, ty = map key value ∧
        ∀ item ∈ (view.tree.childrenOfKind id .mapItem).items, ∃ entry first second,
          view.tree.node item = .ok entry ∧ entry.children = [first, second] ∧
          view.Fits scope first key ∧ view.Fits scope second value)) := by
  refine ⟨fun left middle right => ?_, fun types others => joinAll_congr,
    fun types ty => accepts_joinAll, fun view scope id ty node found held => ?_⟩
  · refine ⟨join_comm left right, ?_, join_self left, join_any left, ?_⟩
    · exact sup_assoc left middle right
    · exact (Widens.join_left left right).accepts
  · constructor
    · exact Typing.list_fits found held
    · exact Typing.map_fits found held

end Ty

/-- The list of two maps: from `"a"` to an integer, and from `"b"` to a float. -/
def Tree.mixed : Tree where
  nodes := #[
    ⟨.string, .point 0, "a", []⟩, ⟨.number, .point 0, "1", []⟩,
    ⟨.mapItem, .point 0, "", [⟨0⟩, ⟨1⟩]⟩, ⟨.map, .point 0, "", [⟨2⟩]⟩,
    ⟨.string, .point 0, "b", []⟩, ⟨.number, .point 0, "2.5", []⟩,
    ⟨.mapItem, .point 0, "", [⟨4⟩, ⟨5⟩]⟩, ⟨.map, .point 0, "", [⟨6⟩]⟩,
    ⟨.list, .point 0, "", [⟨3⟩, ⟨7⟩]⟩]
  root := ⟨8⟩

/-- The list of an integer map and a float map is one of float maps, which accept both; the order
of the two and a repetition make no difference. -/
theorem Tree.mixed_joined :
    Ty.joinAll [.int, .float, .int] = Ty.joinAll [.float, .int] ∧
    (Ty.joinAll [.int, .float]).accepts .int = true ∧
    (∀ item : NodeId, item = ⟨3⟩ ∨ item = ⟨7⟩ →
      View.Fits ⟨Tree.mixed, .empty, .empty⟩ ⟨0⟩ item (.map .string .float)) ∧
    View.Fits ⟨Tree.mixed, .empty, .empty⟩ ⟨0⟩ ⟨5⟩ .float := by
  obtain ⟨_, unordered, accepted, literals⟩ := Ty.join_semilattice
  refine ⟨unordered _ _ (by simp [or_comm]), accepted _ _ (by simp), ?_, ?_⟩
  · have found : View.Finds ⟨Tree.mixed, .empty, .empty⟩ ⟨0⟩ ⟨8⟩ (.list (.map .string .float)) :=
      ⟨.empty, .empty, by rfl⟩
    obtain ⟨element, typed, fits⟩ := (literals _ _ _ _ _ found rfl).1 rfl
    cases typed
    rintro item (rfl | rfl)
    · exact fits _ (by decide)
    · exact fits _ (by decide)
  · have found : View.Finds ⟨Tree.mixed, .empty, .empty⟩ ⟨0⟩ ⟨7⟩ (.map .string .float) :=
      ⟨.empty, .empty, by rfl⟩
    obtain ⟨key, value, typed, fits⟩ := (literals _ _ _ _ _ found rfl).2 rfl
    cases typed
    obtain ⟨entry, first, second, held, children, _, fit⟩ := fits ⟨6⟩ (by decide)
    cases held
    cases children
    exact fit

end ScopeTyping
