import Mathlib.Data.Finset.Card
import Mathlib.Logic.Relation
import ScopeTyping.Tree.Basic

/-! Walking down a tree. In a sound tree every child is there and no walk comes back to
where it started, so the nodes below a node bound how long a walk from it can be
(`height_lt`). In a tree that places every node once, a node has one parent. In any tree, what
stands below two children of one node can be reached in more than one way (`children_apart`). -/
namespace ScopeTyping

/-- The first item of a walk that reaches its end is known, if only to be missing. -/
theorem Walk.first?_exists {α : Type} {walk : Walk α} (whole : walk.fault = none) :
    ∃ answer, walk.first? = .ok answer := by
  unfold first? findSome?
  rw [whole]
  split
  · exact ⟨_, rfl⟩
  · exact ⟨_, rfl⟩

namespace Tree

variable {tree : Tree} {id child parent : NodeId} {kind : Kind}

/-- One node is among the children of another. -/
def ChildOf (tree : Tree) (child parent : NodeId) : Prop :=
  ∃ node, tree.node parent = .ok node ∧ child ∈ node.children

instance (tree : Tree) (child parent : NodeId) : Decidable (tree.ChildOf child parent) :=
  match held : tree.node parent with
  | .ok node => decidable_of_iff (child ∈ node.children)
      ⟨fun member => ⟨node, held, member⟩, fun ⟨_, there, member⟩ => by
        cases held.symm.trans there
        exact member⟩
  | .error _ => isFalse fun ⟨_, there, _⟩ => by cases held.symm.trans there

/-- One node is another one or stands below it. -/
def Under (tree : Tree) : NodeId → NodeId → Prop := Relation.ReflTransGen tree.ChildOf

/-- Every child is in the tree, and no node stands below itself. -/
structure Sound (tree : Tree) : Prop where
  inside : ∀ child parent, tree.ChildOf child parent → child.index < tree.size
  acyclic : ∀ id, ¬ Relation.TransGen tree.ChildOf id id

/-- No node occurs twice as a child, be it of two nodes or of one. -/
def PlacesOnce (tree : Tree) : Prop := (tree.nodes.toList.flatMap Node.children).Nodup

/-- A node is there. -/
theorem lt_size_of_node {node : Node} (held : tree.node id = .ok node) : id.index < tree.size := by
  rw [node_eq_ok_iff] at held
  exact (Array.getElem?_eq_some_iff.1 held).1

theorem node_exists (inside : id.index < tree.size) : ∃ node, tree.node id = .ok node :=
  ⟨_, node_of_lt inside⟩

theorem kind_of_node {node : Node} (held : tree.node id = .ok node) :
    tree.kind id = .ok node.kind := by
  simp [Tree.kind, held, Except.map]

theorem node_of_kind (known : tree.kind id = .ok kind) :
    ∃ node, tree.node id = .ok node ∧ node.kind = kind := by
  unfold Tree.kind at known
  cases held : tree.node id with
  | error fault => simp [held, Except.map] at known
  | ok node =>
    simp only [held, Except.map, Except.ok.injEq] at known
    exact ⟨node, rfl, known⟩

theorem childOf_of_mem {node : Node} (held : tree.node parent = .ok node)
    (member : child ∈ node.children) : tree.ChildOf child parent := ⟨node, held, member⟩

/-! ### Children of a kind -/

theorem mem_items_ofKind {ids : List NodeId} (member : id ∈ (tree.ofKind kind ids).items) :
    id ∈ ids ∧ tree.kind id = .ok kind := by
  induction ids with
  | nil => simp [ofKind, Walk.whole] at member
  | cons head rest step =>
    unfold ofKind at member
    split at member
    · simp [Walk.stopped] at member
    · rename_i found known
      split at member
      · rename_i same
        rcases List.mem_cons.1 member with rfl | later
        · exact ⟨List.mem_cons_self .., same ▸ known⟩
        · exact ⟨List.mem_cons_of_mem _ (step later).1, (step later).2⟩
      · exact ⟨List.mem_cons_of_mem _ (step member).1, (step member).2⟩

/-- The children of a kind are children and have the kind. -/
theorem mem_items_childrenOfKind (member : child ∈ (tree.childrenOfKind parent kind).items) :
    tree.ChildOf child parent ∧ tree.kind child = .ok kind := by
  unfold childrenOfKind at member
  split at member
  · simp [Walk.stopped] at member
  · rename_i found held
    have facts := mem_items_ofKind member
    exact ⟨⟨found, held, facts.1⟩, facts.2⟩

theorem fault_ofKind {ids : List NodeId} (inside : ∀ id ∈ ids, id.index < tree.size) :
    (tree.ofKind kind ids).fault = none := by
  induction ids with
  | nil => rfl
  | cons head rest step =>
    obtain ⟨node, held⟩ := node_exists (inside head (List.mem_cons_self ..))
    have others := step fun id member => inside id (List.mem_cons_of_mem _ member)
    simp only [ofKind, kind_of_node held]
    split
    · exact others
    · exact others

/-- In a sound tree the children of a kind are met without a fault. -/
theorem Sound.fault_childrenOfKind (sound : tree.Sound) (inside : id.index < tree.size)
    (kind : Kind) : (tree.childrenOfKind id kind).fault = none := by
  obtain ⟨node, held⟩ := node_exists inside
  simp only [childrenOfKind, held]
  exact fault_ofKind fun child member => sound.inside child id ⟨node, held, member⟩

theorem child?_eq_ok_some (found : tree.child? parent kind = .ok (some child)) :
    tree.ChildOf child parent ∧ tree.kind child = .ok kind := by
  apply mem_items_childrenOfKind
  unfold child? Walk.first? Walk.findSome? at found
  split at found
  · rename_i item first
    cases found
    obtain ⟨item, member, same⟩ := List.exists_of_findSome?_eq_some first
    cases same
    exact member
  · split at found <;> cases found

/-- In a sound tree it is known whether a node has a child of a kind. -/
theorem Sound.child?_exists (sound : tree.Sound) (inside : id.index < tree.size) (kind : Kind) :
    ∃ answer, tree.child? id kind = .ok answer :=
  Walk.first?_exists (sound.fault_childrenOfKind inside kind)

/-! ### How far down a walk can go -/

open Classical in
/-- How many nodes stand below a node. -/
noncomputable def height (tree : Tree) (id : NodeId) : Nat :=
  ((Finset.range tree.size).filter fun index =>
    Relation.TransGen tree.ChildOf ⟨index⟩ id).card

theorem height_le (tree : Tree) (id : NodeId) : tree.height id ≤ tree.size := by
  classical
  exact (Finset.card_filter_le _ _).trans_eq (Finset.card_range _)

/-- A walk loses height with every step. -/
theorem Sound.height_lt (sound : tree.Sound) (below : tree.ChildOf child parent) :
    tree.height child < tree.height parent := by
  classical
  apply Finset.card_lt_card
  rw [Finset.ssubset_iff_of_subset]
  · refine ⟨child.index, ?_, ?_⟩
    · simp only [Finset.mem_filter, Finset.mem_range]
      exact ⟨sound.inside child parent below, .single below⟩
    · simp only [Finset.mem_filter, not_and]
      exact fun _ => sound.acyclic child
  · intro index member
    simp only [Finset.mem_filter] at member ⊢
    exact ⟨member.1, member.2.tail below⟩

/-- A child is there, and a walk that reaches its parent has less far to go from it. -/
theorem Sound.lower (sound : tree.Sound) (below : tree.ChildOf child parent) {depth : Nat}
    (deep : tree.height parent < depth + 1) :
    child.index < tree.size ∧ tree.height child < depth := by
  have shorter := sound.height_lt below
  exact ⟨sound.inside child parent below, by omega⟩

theorem Sound.height_lt_of_transGen (sound : tree.Sound)
    (below : Relation.TransGen tree.ChildOf child parent) :
    tree.height child < tree.height parent := by
  induction below with
  | single step => exact sound.height_lt step
  | tail _ step shorter => exact shorter.trans (sound.height_lt step)

/-- Where children stand before their parents, so does all that is below. -/
theorem lt_of_ascending (ascending : ∀ place (inside : place < tree.nodes.size),
      ∀ child ∈ tree.nodes[place].children, child.index < place)
    (below : Relation.TransGen tree.ChildOf child parent) : child.index < parent.index := by
  have lower : ∀ child parent, tree.ChildOf child parent → child.index < parent.index := by
    rintro child parent ⟨node, held, member⟩
    rw [node_eq_ok_iff] at held
    obtain ⟨inside, here⟩ := Array.getElem?_eq_some_iff.1 held
    exact ascending parent.index inside child (here ▸ member)
  induction below with
  | single step => exact lower _ _ step
  | tail _ step shorter => exact shorter.trans (lower _ _ step)

/-- Children that stand before their parents make a sound tree. -/
theorem sound_of_ascending (ascending : ∀ place (inside : place < tree.nodes.size),
    ∀ child ∈ tree.nodes[place].children, child.index < place) : tree.Sound := by
  constructor
  · intro child parent below
    have ⟨node, held, _⟩ := below
    exact (lt_of_ascending ascending (.single below)).trans (lt_size_of_node held)
  · intro id cycle
    exact Nat.lt_irrefl _ (lt_of_ascending ascending cycle)

/-! ### Trees that place every node once -/

theorem PlacesOnce.children_nodup (once : tree.PlacesOnce) {node : Node}
    (held : tree.node parent = .ok node) : node.children.Nodup := by
  rw [node_eq_ok_iff] at held
  have member : node ∈ tree.nodes.toList := Array.mem_toList_iff.2 (Array.mem_of_getElem? held)
  exact (List.nodup_flatMap.1 once).1 node member

/-- A node that is placed once has one parent. -/
theorem PlacesOnce.parent_unique (once : tree.PlacesOnce) {other : NodeId}
    (below : tree.ChildOf child parent) (also : tree.ChildOf child other) : parent = other := by
  obtain ⟨node, held, member⟩ := below
  obtain ⟨twin, there, same⟩ := also
  rw [node_eq_ok_iff, ← Array.getElem?_toList] at held there
  by_contra apart
  have differ : parent.index ≠ other.index := fun equal => apart (by
    cases parent; cases other; simp_all)
  have disjoint := List.pairwise_iff_getElem.1 (List.nodup_flatMap.1 once).2
  obtain ⟨bound, atParent⟩ := List.getElem?_eq_some_iff.1 held
  obtain ⟨otherBound, atOther⟩ := List.getElem?_eq_some_iff.1 there
  rcases Nat.lt_or_gt_of_ne differ with before | after
  · have apartHere := disjoint parent.index other.index bound otherBound before
    rw [atParent, atOther] at apartHere
    exact apartHere member same
  · have apartHere := disjoint other.index parent.index otherBound bound after
    rw [atParent, atOther] at apartHere
    exact apartHere same member

/-- In a tree that places every node once, two nodes above a node stand one above the other. -/
theorem PlacesOnce.under_total (once : tree.PlacesOnce) {one other : NodeId}
    (under : tree.Under id one) (also : tree.Under id other) :
    tree.Under one other ∨ tree.Under other one :=
  Relation.ReflTransGen.total_of_right_unique (fun _ _ _ => once.parent_unique) under also

/-- No node stands below one of its children. -/
theorem Sound.not_under_child (sound : tree.Sound) (below : tree.ChildOf child parent) :
    ¬ tree.Under parent child :=
  fun under => sound.acyclic child (.head' below under)

/-! ### Ways from the root -/

/-- A way from the root to a node, by the positions of the children that it takes. The last
one of them comes first. -/
inductive Leads (tree : Tree) : List Nat → NodeId → Prop where
  | root : Leads tree [] tree.root
  | child {way : List Nat} {parent child : NodeId} {node : Node} {position : Nat}
      (leads : Leads tree way parent) (held : tree.node parent = .ok node)
      (there : node.children[position]? = some child) : Leads tree (position :: way) child

/-- More than one way leads to a node. -/
def Shared (tree : Tree) (id : NodeId) : Prop :=
  ∃ one other, one ≠ other ∧ tree.Leads one id ∧ tree.Leads other id

/-- What stands below both of two nodes is shared. -/
def Apart (tree : Tree) (one other : NodeId) : Prop :=
  ∀ below, tree.Under below one → tree.Under below other → tree.Shared below

/-- A way to a node goes on to what stands below it. -/
theorem Leads.onwards {way : List Nat} (leads : tree.Leads way parent)
    (under : tree.Under id parent) : ∃ more, tree.Leads (more ++ way) id := by
  induction under using Relation.ReflTransGen.head_induction_on with
  | refl => exact ⟨[], leads⟩
  | head below _ step =>
    obtain ⟨more, reached⟩ := step
    obtain ⟨node, held, member⟩ := below
    obtain ⟨position, there⟩ := List.mem_iff_getElem?.1 member
    exact ⟨position :: more, .child reached held there⟩

/-- Children at two places of a node are apart, also if they are the same node. -/
theorem children_apart {node : Node} (under : tree.Under parent tree.root)
    (held : tree.node parent = .ok node) : node.children.Pairwise tree.Apart := by
  obtain ⟨way, leads⟩ := Leads.root.onwards under
  refine List.pairwise_iff_getElem.2 fun i j first second before below one other => ?_
  obtain ⟨more, there⟩ := (leads.child held (List.getElem?_eq_getElem first)).onwards one
  obtain ⟨rest, also⟩ := (leads.child held (List.getElem?_eq_getElem second)).onwards other
  refine ⟨_, _, fun same => ?_, there, also⟩
  obtain ⟨_, tails⟩ := List.append_inj' same rfl
  cases tails
  exact Nat.lt_irrefl _ before

/-- A story with a function that assigns its parameter to a variable and returns it. -/
def sample : Tree where
  nodes := #[
    ⟨.name, .point 9, "x", []⟩, ⟨.types, .point 11, "int", []⟩,
    ⟨.typedArgument, .point 9, "", [⟨0⟩, ⟨1⟩]⟩, ⟨.types, .point 23, "int", []⟩,
    ⟨.functionOutput, .point 15, "", [⟨3⟩]⟩, ⟨.name, .point 7, "f", []⟩,
    ⟨.functionStatement, .point 0, "", [⟨5⟩, ⟨2⟩, ⟨4⟩]⟩,
    ⟨.name, .point 29, "y", []⟩, ⟨.path, .point 29, "", [⟨7⟩]⟩, ⟨.name, .point 33, "x", []⟩,
    ⟨.path, .point 33, "", [⟨9⟩]⟩, ⟨.baseExpression, .point 33, "", [⟨10⟩]⟩,
    ⟨.assignmentFragment, .point 31, "", [⟨11⟩]⟩, ⟨.assignment, .point 29, "", [⟨8⟩, ⟨12⟩]⟩,
    ⟨.name, .point 44, "y", []⟩, ⟨.path, .point 44, "", [⟨14⟩]⟩,
    ⟨.baseExpression, .point 44, "", [⟨15⟩]⟩, ⟨.returnStatement, .point 37, "", [⟨16⟩]⟩,
    ⟨.nestedBlock, .point 29, "", [⟨13⟩, ⟨17⟩]⟩, ⟨.functionBlock, .point 0, "", [⟨6⟩, ⟨18⟩]⟩,
    ⟨.start, .point 0, "", [⟨19⟩]⟩]
  root := ⟨20⟩

theorem sample_sound : sample.Sound := sound_of_ascending (by decide +kernel)

/-- A story that assigns a variable, in a conditional a second one, in a loop one beside the
loop variable, in a handler one more, and that ends with the function of the sample. -/
def tour : Tree where
  nodes := #[
    ⟨.name, .point 0, "total", []⟩, ⟨.path, .point 0, "", [⟨0⟩]⟩, ⟨.number, .point 0, "0", []⟩,
    ⟨.baseExpression, .point 0, "", [⟨2⟩]⟩, ⟨.assignmentFragment, .point 0, "", [⟨3⟩]⟩,
    ⟨.assignment, .point 0, "", [⟨1⟩, ⟨4⟩]⟩,
    ⟨.boolean, .point 1, "true", []⟩, ⟨.baseExpression, .point 1, "", [⟨6⟩]⟩,
    ⟨.ifStatement, .point 1, "", [⟨7⟩]⟩, ⟨.name, .point 1, "seen", []⟩,
    ⟨.path, .point 1, "", [⟨9⟩]⟩, ⟨.string, .point 1, "yes", []⟩,
    ⟨.baseExpression, .point 1, "", [⟨11⟩]⟩, ⟨.assignmentFragment, .point 1, "", [⟨12⟩]⟩,
    ⟨.assignment, .point 1, "", [⟨10⟩, ⟨13⟩]⟩, ⟨.nestedBlock, .point 1, "", [⟨14⟩]⟩,
    ⟨.ifBlock, .point 1, "", [⟨8⟩, ⟨15⟩]⟩,
    ⟨.number, .point 2, "1", []⟩, ⟨.list, .point 2, "", [⟨17⟩]⟩,
    ⟨.baseExpression, .point 2, "", [⟨18⟩]⟩, ⟨.name, .point 2, "item", []⟩,
    ⟨.output, .point 2, "", [⟨20⟩]⟩, ⟨.foreachStatement, .point 2, "", [⟨19⟩, ⟨21⟩]⟩,
    ⟨.name, .point 2, "last", []⟩, ⟨.path, .point 2, "", [⟨23⟩]⟩, ⟨.name, .point 2, "item", []⟩,
    ⟨.path, .point 2, "", [⟨25⟩]⟩, ⟨.baseExpression, .point 2, "", [⟨26⟩]⟩,
    ⟨.assignmentFragment, .point 2, "", [⟨27⟩]⟩, ⟨.assignment, .point 2, "", [⟨24⟩, ⟨28⟩]⟩,
    ⟨.nestedBlock, .point 2, "", [⟨29⟩]⟩, ⟨.foreachBlock, .point 2, "", [⟨22⟩, ⟨30⟩]⟩,
    ⟨.nestedBlock, .point 3, "", []⟩, ⟨.name, .point 3, "note", []⟩,
    ⟨.path, .point 3, "", [⟨33⟩]⟩, ⟨.string, .point 3, "no", []⟩,
    ⟨.baseExpression, .point 3, "", [⟨35⟩]⟩, ⟨.assignmentFragment, .point 3, "", [⟨36⟩]⟩,
    ⟨.assignment, .point 3, "", [⟨34⟩, ⟨37⟩]⟩, ⟨.nestedBlock, .point 3, "", [⟨38⟩]⟩,
    ⟨.catchStatement, .point 3, "", []⟩, ⟨.catchBlock, .point 3, "", [⟨40⟩, ⟨39⟩]⟩,
    ⟨.tryBlock, .point 3, "", [⟨32⟩, ⟨41⟩]⟩,
    ⟨.name, .point 4, "x", []⟩, ⟨.types, .point 4, "int", []⟩,
    ⟨.typedArgument, .point 4, "", [⟨43⟩, ⟨44⟩]⟩, ⟨.types, .point 4, "int", []⟩,
    ⟨.functionOutput, .point 4, "", [⟨46⟩]⟩, ⟨.name, .point 4, "f", []⟩,
    ⟨.functionStatement, .point 4, "", [⟨48⟩, ⟨45⟩, ⟨47⟩]⟩, ⟨.name, .point 4, "y", []⟩,
    ⟨.path, .point 4, "", [⟨50⟩]⟩, ⟨.name, .point 4, "x", []⟩, ⟨.path, .point 4, "", [⟨52⟩]⟩,
    ⟨.baseExpression, .point 4, "", [⟨53⟩]⟩, ⟨.assignmentFragment, .point 4, "", [⟨54⟩]⟩,
    ⟨.assignment, .point 4, "", [⟨51⟩, ⟨55⟩]⟩, ⟨.name, .point 4, "y", []⟩,
    ⟨.path, .point 4, "", [⟨57⟩]⟩, ⟨.baseExpression, .point 4, "", [⟨58⟩]⟩,
    ⟨.returnStatement, .point 4, "", [⟨59⟩]⟩, ⟨.nestedBlock, .point 4, "", [⟨56⟩, ⟨60⟩]⟩,
    ⟨.functionBlock, .point 4, "", [⟨49⟩, ⟨61⟩]⟩,
    ⟨.start, .point 0, "", [⟨5⟩, ⟨16⟩, ⟨31⟩, ⟨42⟩, ⟨62⟩]⟩]
  root := ⟨63⟩

theorem tour_sound : tour.Sound := sound_of_ascending (by decide +kernel)

theorem tour_placesOnce : tour.PlacesOnce := by
  unfold PlacesOnce
  decide +kernel

end Tree
end ScopeTyping
