import ScopeTyping.Proofs.Scope.Listing
import ScopeTyping.Proofs.Typing.Blame

/-! The names that go with an unknown one. The visible names within three slips of it are ranked by
how far away they are and, where that is the same, by where they are seen first. There is one such
ranking (`Ranking.unique`), and the error of a path whose head is not visible carries its first
three names (`Typing.path_suggests`). -/
namespace ScopeTyping
namespace Suggestions

variable {target one other : String} {candidates visible shown ranking rival : List String}

/-- Candidates stand in the order in which they are suggested: the closer one first, and of two
that are equally close the one that is seen first. -/
def Precedes (target : String) (candidates : List String) (one other : String) : Prop :=
  slips target one < slips target other ∨
    (slips target one = slips target other ∧ candidates.idxOf one < candidates.idxOf other)

/-- The candidates within three slips, each of them once, in the order in which they are
suggested. -/
structure Ranking (target : String) (candidates ranking : List String) : Prop where
  ordered : ranking.Pairwise (Precedes target candidates)
  members : ∀ name, name ∈ ranking ↔ name ∈ candidates ∧ slips target name ≤ 3

/-- The names that are shown with an unknown one, given those that are visible. -/
structure Suggests (target : String) (visible shown : List String) : Prop where
  few : shown.length ≤ 3
  distinct : shown.Nodup
  other : target ∉ shown
  near : ∀ name ∈ shown, name ∈ visible ∧ slips target name ≤ 3
  ranked : ∃ ranking, Ranking target visible ranking ∧ shown = ranking.take 3
  closest : ∀ name ∈ visible, ∀ further ∈ shown, slips target name < slips target further →
    name ∈ shown

theorem Precedes.asymm (before : Precedes target candidates one other) :
    ¬ Precedes target candidates other one := by
  unfold Precedes at before ⊢
  omega

theorem Ranking.nodup (ranked : Ranking target candidates ranking) : ranking.Nodup :=
  ranked.ordered.imp fun before same => (same ▸ before).asymm (same ▸ before)

/-- Candidates can be ranked in one way only. -/
theorem Ranking.unique (ranked : Ranking target candidates ranking)
    (also : Ranking target candidates rival) : ranking = rival := by
  have same : ranking.Perm rival := (List.perm_ext_iff_of_nodup ranked.nodup also.nodup).2
    fun name => (ranked.members name).trans (also.members name).symm
  exact same.eq_of_pairwise (fun _ _ _ _ before after => absurd after before.asymm)
    ranked.ordered also.ordered

/-- Without repetitions, texts stand in the order in which they come first. -/
theorem pairwise_idxOf_eraseDups (candidates : List String) :
    candidates.eraseDups.Pairwise fun one other =>
      candidates.idxOf one < candidates.idxOf other := by
  induction candidates using List.reverseRecOn with
  | nil => exact .nil
  | append_singleton rest last step =>
    have earlier : rest.eraseDups.Pairwise fun one other =>
        (rest ++ [last]).idxOf one < (rest ++ [last]).idxOf other := by
      refine step.imp_of_mem fun memOne memOther before => ?_
      rw [List.idxOf_append_of_mem (List.mem_eraseDups.1 memOne),
        List.idxOf_append_of_mem (List.mem_eraseDups.1 memOther)]
      exact before
    rw [eraseDups_concat]
    split
    · exact earlier
    · rename_i fresh
      refine List.pairwise_append.2 ⟨earlier, List.pairwise_singleton .., fun one memOne other isLast => ?_⟩
      rw [List.mem_singleton] at isLast
      subst isLast
      have known : one ∈ rest := List.mem_eraseDups.1 memOne
      rw [List.idxOf_append_of_mem known, List.idxOf_append_of_notMem fresh]
      exact Nat.lt_of_lt_of_le (List.idxOf_lt_length_of_mem known) (Nat.le_add_right ..)

theorem mem_atDistance {distance : Nat} :
    one ∈ atDistance target candidates distance ↔
      one ∈ candidates ∧ slips target one = distance := by
  simp [atDistance]

/-- Distance by distance, the candidates without repetitions are ranked. -/
theorem ranking_atDistance (target : String) (candidates : List String) :
    Ranking target candidates
      ((List.range (furthest + 1)).flatMap (atDistance target candidates.eraseDups)) := by
  constructor
  · refine List.pairwise_flatMap.2 ⟨fun distance _ => ?_, ?_⟩
    · refine List.Pairwise.imp_of_mem (fun memOne memOther before => .inr ⟨?_, before⟩)
        ((pairwise_idxOf_eraseDups candidates).filter _)
      exact (mem_atDistance.1 memOne).2.trans (mem_atDistance.1 memOther).2.symm
    · refine List.pairwise_lt_range.imp fun closer one memOne other memOther => .inl ?_
      rw [(mem_atDistance.1 memOne).2, (mem_atDistance.1 memOther).2]
      exact closer
  · intro name
    simp only [List.mem_flatMap, List.mem_range, mem_atDistance, List.mem_eraseDups, furthest]
    constructor
    · rintro ⟨distance, few, member, rfl⟩
      exact ⟨member, Nat.le_of_lt_succ few⟩
    · rintro ⟨member, few⟩
      exact ⟨slips target name, Nat.lt_succ_of_le few, member, rfl⟩

/-- What comes behind the names that are shown is no closer than they are. -/
theorem Ranking.closest (ranked : Ranking target visible ranking) {name further : String}
    (member : name ∈ ranking) (among : further ∈ ranking.take 3)
    (closer : slips target name < slips target further) : name ∈ ranking.take 3 := by
  have parts := ranked.ordered
  rw [← List.take_append_drop 3 ranking] at parts member
  rcases List.mem_append.1 member with early | late
  · exact early
  · have before := (List.pairwise_append.1 parts).2.2 further among name late
    unfold Precedes at before
    omega

/-- The suggestions for a name that is not visible. -/
theorem suggests (unseen : target ∉ visible) :
    Suggests target visible (suggestions target visible) := by
  have ranked := ranking_atDistance target visible
  have near : ∀ name ∈ suggestions target visible, name ∈ visible ∧ slips target name ≤ 3 :=
    fun name member => (ranked.members name).1 (List.mem_of_mem_take member)
  refine ⟨length_suggestions_le target visible, ranked.nodup.sublist (List.take_sublist ..),
    fun member => unseen (near target member).1, near, ⟨_, ranked, rfl⟩, ?_⟩
  intro name member further among closer
  have within : slips target name ≤ 3 := Nat.le_trans (Nat.le_of_lt closer) (near further among).2
  exact ranked.closest ((ranked.members name).2 ⟨member, within⟩) among closer

end Suggestions

/-! ### The texts visible from a scope -/

namespace Forest

variable {forest : Forest} {names more : NameTable} {scope : ScopeId} {texts : List String}

/-- The texts visible from a scope: those of the keys of the scopes from it outwards, scope by scope
in the order in which they were bound. -/
def Spells (forest : Forest) (names : NameTable) (scope : ScopeId) (texts : List String) : Prop :=
  ∃ around, forest.ancestors scope = .ok around ∧
    (around.flatMap fun id => (forest.tableIn id).keys).map names.text? = texts.map some

theorem Spells.grow (spells : forest.Spells names scope texts) (grown : names.Grows more) :
    forest.Spells more scope texts := by
  obtain ⟨around, climbed, spelled⟩ := spells
  refine ⟨around, climbed, spelled ▸ List.map_congr_left fun name member => ?_⟩
  have among := List.mem_map_of_mem (f := names.text?) member
  rw [spelled, List.mem_map] at among
  obtain ⟨text, _, same⟩ := among
  rw [← same]
  exact grown.text? same.symm

theorem Spells.visibleNames (spells : forest.Spells names scope texts) :
    ∃ visible, forest.visibleNames scope = .ok visible ∧
      List.Forall₂ (fun name text => names.text? name = some text) visible texts := by
  obtain ⟨around, climbed, spelled⟩ := spells
  rw [← List.forall₂_eq_eq_eq, List.forall₂_map_left_iff, List.forall₂_map_right_iff] at spelled
  exact ⟨_, visibleNames_of_ancestors climbed, spelled⟩

/-- If the way outwards comes to an end and all keys have texts, then texts are visible. -/
theorem spells_exists {around : List ScopeId} (climbed : forest.ancestors scope = .ok around)
    (named : forest.Named names) : ∃ texts, forest.Spells names scope texts := by
  have known : ∀ name ∈ around.flatMap fun id => (forest.tableIn id).keys,
      names.text? name = some ((names.text? name).getD "") := by
    intro name member
    obtain ⟨id, _, key⟩ := List.mem_flatMap.1 member
    unfold tableIn at key
    split at key
    · rename_i found held
      obtain ⟨entry, among, rfl⟩ := List.mem_map.1 key
      obtain ⟨text, known⟩ := named id found held entry among
      rw [known, Option.getD_some]
    · cases key
  refine ⟨(around.flatMap fun id => (forest.tableIn id).keys).map fun name =>
    (names.text? name).getD "", around, climbed, ?_⟩
  rw [List.map_map]
  exact List.map_congr_left known

/-- What a lookup from a scope finds is visible from it. -/
theorem Spells.lookup_eq_none (spells : forest.Spells names scope texts) {name : Name}
    {text : String} (known : names.text? name = some text) (unseen : text ∉ texts) :
    forest.lookup scope name = .ok none := by
  obtain ⟨around, climbed, spelled⟩ := spells
  obtain ⟨answer, looked, found⟩ :=
    lookup_of_visibleNames (visibleNames_of_ancestors climbed) name
  cases answer with
  | none => exact looked
  | some symbol =>
    have among := List.mem_map_of_mem (f := names.text?) (found.1 rfl)
    rw [spelled, known, List.mem_map] at among
    obtain ⟨other, member, same⟩ := among
    cases same
    exact absurd member unseen

end Forest

/-! ### The error of a path -/

namespace Typing

variable {view : View} {names : NameTable} {scope : ScopeId} {id head : NodeId} {node : Node}
  {mustExist : Bool}

/-- What becomes of a path whose head is not found. -/
theorem outcome_path_of_hidden (headed : view.tree.child? id .name = .ok (some head))
    (held : view.tree.node head = .ok node)
    (hidden : view.scopes.lookup scope (names.intern node.text).1 = .ok none)
    (asked : mustExist = true ∨ ∃ part, view.tree.child? id .pathFragment = .ok (some part)) :
    (path view scope id mustExist).outcome names =
      (unresolved view scope (names.intern node.text).1 head).outcome
        (names.intern node.text).2 := by
  have interned : (intern node.text).outcome names =
      (.ok (names.intern node.text).1, (names.intern node.text).2) := rfl
  unfold path pathWith Attempt.requiredChild
  simp only [headed, held, View.node, Attempt.guard, pure_bind, Fallible.outcome_bind, interned,
    hidden]
  cases mustExist with
  | true => rfl
  | false =>
    obtain ⟨part, first⟩ := asked.resolve_left Bool.false_ne_true
    have goesOn : (view.tree.childrenOfKind id .pathFragment).first? = .ok (some part) := first
    simp only [goesOn, Bool.false_eq_true, if_false, pure_bind]

/-- A path whose head is not visible ends with the error of an unknown variable, if it has to be
there or goes on behind its head. The names that come with it are the closest of those visible. -/
theorem path_suggests {visible : List String} (spells : view.scopes.Spells names scope visible)
    (unseen : node.text ∉ visible) (headed : view.tree.child? id .name = .ok (some head))
    (held : view.tree.node head = .ok node)
    (asked : mustExist = true ∨ ∃ part, view.tree.child? id .pathFragment = .ok (some part)) :
    ∃ shown, (path view scope id mustExist).outcome names =
        (.error (.error ⟨.unresolvedVariable node.text shown, head, node.span⟩),
          (names.intern node.text).2) ∧
      Suggestions.Suggests node.text visible shown := by
  have known := NameTable.text?_intern names node.text
  have spellsLater := spells.grow (NameTable.grows_intern names node.text)
  obtain ⟨seen, listed, spelled⟩ := spellsLater.visibleNames
  have hidden := spellsLater.lookup_eq_none known unseen
  refine ⟨suggestions node.text visible, ?_, Suggestions.suggests unseen⟩
  rw [outcome_path_of_hidden headed held hidden asked, outcome_unresolved listed spelled known held]

end Typing

/-- A path that starts with `cout`. -/
def Tree.misspelt : Tree where
  nodes := #[⟨.name, .point 0, "cout", []⟩, ⟨.path, .point 0, "", [⟨0⟩]⟩]
  root := ⟨1⟩

/-- A block with `mount` and `count` in a story with another `count`, `court`, `total` and `cut`. -/
def Forest.market : Forest where
  scopes := [⟨none, .root, .ofList [(⟨1⟩, ⟨⟨1⟩, .int⟩), (⟨2⟩, ⟨⟨2⟩, .int⟩), (⟨3⟩, ⟨⟨3⟩, .int⟩),
      (⟨4⟩, ⟨⟨4⟩, .int⟩)]⟩,
    ⟨some ⟨0⟩, .block, .ofList [(⟨0⟩, ⟨⟨0⟩, .int⟩), (⟨1⟩, ⟨⟨1⟩, .string⟩)]⟩]

/-- Three of the visible names are one slip away and `mount` is two, so it is left out. -/
theorem Forest.market_suggests :
    (Typing.path ⟨Tree.misspelt, .market, .empty⟩ ⟨1⟩ ⟨1⟩ true).outcome
        ⟨["mount", "count", "court", "total", "cut"], by decide⟩ =
      (.error (.error ⟨.unresolvedVariable "cout" ["count", "court", "cut"], ⟨0⟩, .point 0⟩),
        ⟨["mount", "count", "court", "total", "cut", "cout"], by decide⟩) ∧
    Suggestions.Suggests "cout" ["mount", "count", "count", "court", "total", "cut"]
      ["count", "court", "cut"] := by
  have spells : Forest.market.Spells ⟨["mount", "count", "court", "total", "cut"], by decide⟩ ⟨1⟩
      ["mount", "count", "count", "court", "total", "cut"] := ⟨[⟨1⟩, ⟨0⟩], rfl, rfl⟩
  refine ⟨rfl, ?_⟩
  obtain ⟨shown, fails, suggests⟩ := @Typing.path_suggests ⟨Tree.misspelt, .market, .empty⟩ _ ⟨1⟩
    ⟨1⟩ ⟨0⟩ ⟨.name, .point 0, "cout", []⟩ true _ spells (by decide) rfl rfl (.inl rfl)
  cases fails
  exact suggests

example : suggestions "cout" ["mount", "count", "count", "court", "total", "cut"] =
    ["count", "court", "cut"] := by decide +kernel

end ScopeTyping
