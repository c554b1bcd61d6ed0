import Mathlib.Algebra.Order.Group.Multiset
import ScopeTyping.Proofs.Program.Drafting
import ScopeTyping.Proofs.Program.Standing

/-! What building lays out. Nodes are only added, children before their parents, and a node that
is a child somewhere is not free to be a child again (`Laid`). The rules for `Build.Lays` follow
a step of building action by action and keep account of the nodes that are free. -/
namespace ScopeTyping

/-! ### More nodes -/

/-- Nodes that are there stay where they are. -/
def Extends (nodes more : Array Node) : Prop :=
  ∀ (place : Nat) (node : Node), nodes[place]? = some node → more[place]? = some node

section Extends
variable {nodes more most : Array Node} {id : NodeId}

theorem Extends.refl (nodes : Array Node) : Extends nodes nodes := fun _ _ held => held

theorem Extends.trans (first : Extends nodes more) (second : Extends more most) :
    Extends nodes most := fun place node held => second place node (first place node held)

theorem Extends.push (nodes : Array Node) (node : Node) : Extends nodes (nodes.push node) := by
  intro place found held
  obtain ⟨inside, _⟩ := Array.getElem?_eq_some_iff.1 held
  rw [Array.getElem?_push_lt inside, ← held]
  exact (Array.getElem?_eq_getElem inside).symm

variable (extended : Extends nodes more)
include extended

theorem Shows.mono {kind : Kind} {text : String} {children : List NodeId}
    (shows : Shows nodes id kind text children) : Shows more id kind text children := by
  obtain ⟨span, held⟩ := shows
  exact ⟨span, extended _ _ held⟩

theorem NameAt.mono {text : String} (stands : NameAt nodes text id) : NameAt more text id :=
  Shows.mono extended stands

theorem WrittenAt.mono {written : Written} (stands : WrittenAt nodes written id) :
    WrittenAt more written id := by
  induction stands using WrittenAt.induct with
  | mk shows _ later => exact .mk (shows.mono extended) (later.imp fun _ _ ⟨_, stands⟩ => stands)

section
variable {stands : Expr → NodeId → Prop}

theorem EntryAt.mono {entry : Expr × Expr} (held : EntryAt nodes stands entry id) :
    EntryAt more stands entry id := by
  cases held with
  | mk shows first second => exact .mk (shows.mono extended) first second

theorem KeyAt.mono {key : Key Expr} (held : KeyAt nodes stands key id) :
    KeyAt more stands key id := by
  cases held with
  | field shows named => exact .field (shows.mono extended) (named.mono extended)
  | index shows inner => exact .index (shows.mono extended) inner

end

theorem ExprAt.mono {expr : Expr} (stands : ExprAt nodes expr id) : ExprAt more expr id := by
  induction stands using ExprAt.induct with
  | literal shows leaf => exact .literal (shows.mono extended) leaf
  | wrapped shows _ later => exact .wrapped (shows.mono extended) later
  | list shows _ later =>
    exact .list (shows.mono extended) (later.imp fun _ _ ⟨_, stands⟩ => stands)
  | map shows _ later =>
    exact .map (shows.mono extended)
      (later.imp fun _ _ entry => (entry.mono extended).imp fun _ _ ⟨_, stands⟩ => stands)
  | path shows named _ later =>
    exact .path (shows.mono extended) (named.mono extended)
      (later.imp fun _ _ key => (key.mono extended).imp fun _ _ ⟨_, stands⟩ => stands)
  | binary shows _ _ first second => exact .binary (shows.mono extended) first second
  | unary shows _ later => exact .unary (shows.mono extended) later

theorem HeaderAt.mono {header : Header} {heads : List NodeId} (stands : HeaderAt nodes header heads) :
    HeaderAt more header heads := by
  cases stands with
  | silent silent => exact .silent silent
  | opener opener shows inner => exact .opener opener (shows.mono extended) (inner.mono extended)

theorem ParameterAt.mono {param : String × Written} (stands : ParameterAt nodes param id) :
    ParameterAt more param id := by
  cases stands with
  | mk shows named typed =>
    exact .mk (shows.mono extended) (named.mono extended) (typed.mono extended)

theorem OutputAt.mono {written : Written} (stands : OutputAt nodes written id) :
    OutputAt more written id := by
  cases stands with
  | mk shows typed => exact .mk (shows.mono extended) (typed.mono extended)

theorem OpeningAt.mono {opening : Opening} (stands : OpeningAt nodes opening id) :
    OpeningAt more opening id := by
  cases stands with
  | foreachBlock shows inner outputs named =>
    exact .foreachBlock (shows.mono extended) (inner.mono extended) (outputs.mono extended)
      (named.imp fun _ _ named => named.mono extended)
  | functionBlock shows named parameters returns =>
    exact .functionBlock (shows.mono extended) (named.mono extended)
      (parameters.imp fun _ _ stands => stands.mono extended)
      (returns.imp fun _ _ stands => stands.mono extended)

theorem PartAt.mono {part : Part} (stands : PartAt nodes part id) : PartAt more part id := by
  induction stands using PartAt.induct with
  | slot shows slot _ later => exact .slot (shows.mono extended) slot later
  | assignment shows left right inner =>
    exact .assignment (shows.mono extended) (left.mono extended) (right.mono extended)
      (inner.mono extended)
  | returned shows inner =>
    exact .returned (shows.mono extended) (inner.imp fun _ _ stands => stands.mono extended)
  | evaluated shows inner => exact .evaluated (shows.mono extended) (inner.mono extended)
  | shared shows headed branched held _ _ later others =>
    exact .shared (shows.mono extended) (headed.mono extended) branched (held.mono extended)
      (later.imp fun _ _ ⟨_, stands⟩ => stands) (others.imp fun _ _ ⟨_, stands⟩ => stands)
  | block shows _ later =>
    exact .block (shows.mono extended) (later.imp fun _ _ ⟨_, stands⟩ => stands)
  | catchBlock shows caught named _ later =>
    exact .catchBlock (shows.mono extended) (caught.mono extended)
      (named.imp fun _ _ named => named.mono extended) later
  | finallyBlock shows _ later => exact .finallyBlock (shows.mono extended) later
  | opening headed shows opened held _ later =>
    exact .opening headed (shows.mono extended) (opened.mono extended) (held.mono extended)
      (later.imp fun _ _ ⟨_, stands⟩ => stands)

end Extends

/-! ### Nodes that are laid out -/

theorem free_cons (id : NodeId) (ids : List NodeId) (rest : Multiset NodeId) :
    ((id :: ids : List NodeId) + rest : Multiset NodeId) = id ::ₘ (ids + rest) := by
  rw [← Multiset.cons_coe, Multiset.cons_add]

theorem free_nil (rest : Multiset NodeId) :
    (([] : List NodeId) + rest : Multiset NodeId) = rest := zero_add rest

theorem free_single (id : NodeId) (rest : Multiset NodeId) :
    (([id] : List NodeId) + rest : Multiset NodeId) = id ::ₘ rest := by
  rw [free_cons, free_nil]

/-- Two free nodes, the one that was laid out last in front. -/
theorem free_pair (first second : NodeId) (rest : Multiset NodeId) :
    (([first, second] : List NodeId) + rest : Multiset NodeId) = second ::ₘ first ::ₘ rest := by
  rw [free_cons, free_cons, free_nil, Multiset.cons_swap]

/-- Children lie before their parents, and no node is a child twice or both a child and free. -/
structure Laid (nodes : Array Node) (free : Multiset NodeId) : Prop where
  ascending : ∀ place (inside : place < nodes.size), ∀ child ∈ nodes[place].children,
    child.index < place
  inside : ∀ id ∈ free, id.index < nodes.size
  once : ((nodes.toList.flatMap Node.children : List NodeId) + free : Multiset NodeId).Nodup

namespace Laid

variable {nodes : Array Node} {rest : Multiset NodeId} {node : Node}

theorem empty : Laid #[] 0 := by
  constructor
  · intro place inside
    exact absurd inside (Nat.not_lt_zero _)
  · simp
  · simp

/-- A child is a node that is there. -/
theorem child_inside (laid : Laid nodes rest) {child : NodeId}
    (member : child ∈ nodes.toList.flatMap Node.children) : child.index < nodes.size := by
  obtain ⟨node, there, among⟩ := List.mem_flatMap.1 member
  obtain ⟨place, inside, rfl⟩ := List.getElem_of_mem there
  have bound : place < nodes.size := by simpa using inside
  exact (laid.ascending place bound child (by simpa using among)).trans bound

/-- A node over free nodes takes their place. -/
theorem push (laid : Laid nodes (node.children + rest)) :
    Laid (nodes.push node) (⟨nodes.size⟩ ::ₘ rest) := by
  constructor
  · intro place inside child member
    rw [Array.size_push] at inside
    rw [Array.getElem_push] at member
    split at member
    · exact laid.ascending place _ child member
    · have last : place = nodes.size := by omega
      rw [last]
      exact laid.inside child (Multiset.mem_add.2 (.inl member))
  · intro id member
    rw [Array.size_push]
    rcases Multiset.mem_cons.1 member with rfl | among
    · exact Nat.lt_succ_self _
    · exact (laid.inside id (Multiset.mem_add.2 (.inr among))).trans (Nat.lt_succ_self _)
  · have account : (((nodes.push node).toList.flatMap Node.children : List NodeId) +
        (⟨nodes.size⟩ ::ₘ rest) : Multiset NodeId) =
        ⟨nodes.size⟩ ::ₘ (nodes.toList.flatMap Node.children : List NodeId) +
          ((node.children : Multiset NodeId) + rest) := by
      rw [Array.toList_push, List.flatMap_append, ← Multiset.coe_add, Multiset.cons_add,
        Multiset.add_cons, List.flatMap_singleton, add_assoc]
    rw [account, Multiset.cons_add]
    refine Multiset.nodup_cons.2 ⟨fun member => ?_, laid.once⟩
    rcases Multiset.mem_add.1 member with child | free
    · exact Nat.lt_irrefl _ (laid.child_inside child)
    · exact Nat.lt_irrefl _ (laid.inside _ free)

variable {root : NodeId}

/-- What is laid out makes a sound tree. -/
theorem sound (laid : Laid nodes rest) : Tree.Sound ⟨nodes, root⟩ :=
  Tree.sound_of_ascending laid.ascending

/-- What is laid out places every node once. -/
theorem placesOnce (laid : Laid nodes rest) : Tree.PlacesOnce ⟨nodes, root⟩ :=
  Multiset.coe_nodup.1 (Multiset.nodup_add.1 laid.once).1

end Laid

/-! ### Rules -/

namespace Build

variable {α β ι : Type} {build : Build α} {nodes : Array Node} {free rest : Multiset NodeId}
  {done : α → Array Node → Multiset NodeId → Prop}

/-- After a step of building that starts from some nodes, some of them free, there are the same
nodes and perhaps more, and what was made and the nodes that are free then are so related. -/
def Lays (build : Build α) (nodes : Array Node) (free : Multiset NodeId)
    (done : α → Array Node → Multiset NodeId → Prop) : Prop :=
  ∀ builder value after, builder.nodes = nodes → build.run builder = .ok (value, after) →
    Laid nodes free → Extends nodes after.nodes ∧
      ∃ left, Laid after.nodes left ∧ done value after.nodes left

theorem Lays.weaken {weaker : α → Array Node → Multiset NodeId → Prop}
    (lays : build.Lays nodes free done)
    (value : ∀ value after left, Extends nodes after → done value after left →
      weaker value after left) : build.Lays nodes free weaker := by
  intro builder made after same ran laid
  obtain ⟨extended, left, laidAfter, holds⟩ := lays builder made after same ran laid
  exact ⟨extended, left, laidAfter, value made after.nodes left extended holds⟩

theorem lays_pure {value : α} (holds : done value nodes free) :
    (pure value : Build α).Lays nodes free done := by
  intro builder made after same ran laid
  cases ran
  subst same
  exact ⟨.refl _, free, laid, holds⟩

theorem Lays.bind {next : α → Build β} {result : β → Array Node → Multiset NodeId → Prop}
    (first : build.Lays nodes free done)
    (second : ∀ value after left, Extends nodes after → done value after left →
      (next value).Lays after left result) : (build >>= next).Lays nodes free result := by
  intro builder made after same ran laid
  rw [StateT.run_bind] at ran
  cases begun : build.run builder with
  | error fault =>
    rw [begun] at ran
    cases ran
  | ok answer =>
    rcases answer with ⟨value, between⟩
    rw [begun] at ran
    obtain ⟨extended, left, laidBetween, holds⟩ := first builder value between same begun laid
    obtain ⟨further, last, laidAfter, result⟩ :=
      second value between.nodes left extended holds between made after rfl ran laidBetween
    exact ⟨extended.trans further, last, laidAfter, result⟩

/-! ### Actions -/

/-- A leaf is free. -/
theorem lays_token (kind : Kind) (text : String) :
    (token kind text).Lays nodes rest fun id after left =>
      Shows after id kind text [] ∧ left = id ::ₘ rest := by
  intro builder value after same ran laid
  cases ran
  subst same
  rw [← free_nil rest] at laid
  exact ⟨.push _ _, _, laid.push, ⟨Builder.tokenSpan builder.offset text, by simp⟩, rfl⟩

/-- A node is looked at. -/
theorem lays_node (id : NodeId) : (node id).Lays nodes free fun found after left =>
    nodes[id.index]? = some found ∧ after = nodes ∧ left = free := by
  intro builder value after same ran laid
  subst same
  have looked : (node id).run builder = (builder.node id).map fun found => (found, builder) := by
    unfold node
    cases found : builder.node id <;> simp [StateT.run_bind, found] <;> rfl
  rw [looked, Builder.node] at ran
  cases there : builder.nodes[id.index]? with
  | none =>
    rw [there] at ran
    cases ran
  | some found =>
    rw [there] at ran
    cases ran
    exact ⟨.refl _, free, laid, rfl, rfl, rfl⟩

/-- A node over free nodes is free in their place. -/
theorem lays_labelled (kind : Kind) (text : String) (children : List NodeId) :
    (labelled kind text children).Lays nodes (children + rest) fun id after left =>
      Shows after id kind text children ∧ left = id ::ₘ rest := by
  have looks : (children.mapM span).Lays nodes (children + rest) fun _ after left =>
      after = nodes ∧ left = children + rest := by
    generalize (children : Multiset NodeId) + rest = free
    induction children with
    | nil => exact lays_pure ⟨rfl, rfl⟩
    | cons child others step =>
      have looks : (span child).Lays nodes free fun _ after left => after = nodes ∧ left = free :=
        (lays_node child).bind fun _ _ _ _ ⟨_, same, kept⟩ => lays_pure ⟨same, kept⟩
      rw [List.mapM_cons]
      refine looks.bind ?_
      rintro span after left _ ⟨rfl, rfl⟩
      exact step.bind fun spans after left _ kept => lays_pure kept
  refine looks.bind ?_
  rintro spans after left _ ⟨rfl, rfl⟩
  intro builder value final same ran laid
  cases ran
  subst same
  exact ⟨.push _ _, _, laid.push, ⟨Builder.spanOver builder.offset spans, by simp⟩, rfl⟩

/-- Items are built one after another, each out of free nodes of its own. -/
theorem lays_mapM {items : List ι} {each : ι → Build NodeId} {takes : ι → List NodeId}
    (stands : Array Node → ι → NodeId → Prop)
    (mono : ∀ {nodes more item id}, Extends nodes more → stands nodes item id → stands more item id)
    (step : ∀ item ∈ items, ∀ after rest, Extends nodes after →
      (each item).Lays after (takes item + rest) fun id after left =>
        stands after item id ∧ left = id ::ₘ rest) :
    (items.mapM each).Lays nodes ((items.flatMap takes : List NodeId) + rest) fun ids after left =>
      List.Forall₂ (stands after) items ids ∧ left = ids + rest := by
  induction items generalizing nodes rest with
  | nil => exact lays_pure ⟨.nil, rfl⟩
  | cons item items others =>
    rw [List.mapM_cons, List.flatMap_cons, ← Multiset.coe_add, add_assoc]
    refine (step item (by simp) nodes _ (.refl _)).bind ?_
    rintro id between left extended ⟨first, rfl⟩
    rw [← Multiset.add_cons]
    refine (others fun item member after rest further =>
      step item (by simp [member]) after rest (extended.trans further)).bind ?_
    rintro ids after left further ⟨inner, rfl⟩
    refine lays_pure ⟨.cons (mono further first) inner, ?_⟩
    rw [Multiset.add_cons, free_cons]

/-- An expression gets a wrapper, unless it has one. -/
theorem lays_wrap {expr : Expr} {inner : NodeId} (stands : ExprAt nodes expr inner) :
    (wrap inner).Lays nodes (inner ::ₘ rest) fun id after left =>
      ExprAt after expr.wrap id ∧ left = id ::ₘ rest := by
  refine (lays_node inner).bind ?_
  rintro found after left _ ⟨held, rfl, rfl⟩
  have known : ∀ {kind text children}, Shows after inner kind text children → found.kind = kind := by
    rintro kind text children ⟨span, there⟩
    rw [held] at there
    cases there
    rfl
  have bare : found.kind ≠ .baseExpression → expr.core = expr →
      (if found.kind = .baseExpression then pure inner else branch .baseExpression [inner]).Lays
        after (inner ::ₘ rest) fun id after left => ExprAt after expr.wrap id ∧ left = id ::ₘ rest := by
    intro other same
    rw [if_neg other]
    refine (lays_labelled .baseExpression "" [inner]).weaken ?_
    rintro id more left extended ⟨shows, kept⟩
    refine ⟨.wrapped shows ?_, kept⟩
    rw [same]
    exact stands.mono extended
  cases stands with
  | wrapped shows stands =>
    rw [if_pos (known shows)]
    exact lays_pure ⟨.wrapped shows stands, rfl⟩
  | literal shows leaf =>
    refine bare (fun same => ?_) rfl
    rw [← known shows, same] at leaf
    cases leaf
  | list shows => exact bare (by simp [known shows]) rfl
  | map shows => exact bare (by simp [known shows]) rfl
  | path shows => exact bare (by simp [known shows]) rfl
  | binary shows => exact bare (by simp [known shows]) rfl
  | unary shows => exact bare (by simp [known shows]) rfl

/-- A statement gets its slot. -/
theorem lays_statement {part : Part} {inner : NodeId} (stands : PartAt nodes part inner) :
    (statement inner).Lays nodes (inner ::ₘ rest) fun id after left =>
      PartAt after part id ∧ left = id ::ₘ rest := by
  have slot : ∀ {nodes : Array Node} {inner : NodeId} {kind : Kind}, kind = .block ∨ kind = .rules →
      PartAt nodes part inner → (branch kind [inner]).Lays nodes (inner ::ₘ rest)
        fun id after left => PartAt after part id ∧ left = id ::ₘ rest := by
    intro nodes inner kind isSlot stands
    refine (lays_labelled kind "" [inner]).weaken ?_
    rintro id after left extended ⟨shows, kept⟩
    exact ⟨.slot shows isSlot (stands.mono extended), kept⟩
  refine (lays_node inner).bind ?_
  rintro found after left _ ⟨held, rfl, rfl⟩
  have simple : (branch .rules [inner] >>= fun inner => branch .block [inner]).Lays after
      (inner ::ₘ rest) fun id after left => PartAt after part id ∧ left = id ::ₘ rest := by
    refine (slot (.inr rfl) stands).bind ?_
    rintro id more left _ ⟨stands, rfl⟩
    exact slot (.inl rfl) stands
  split
  · exact simple
  · exact simple
  · exact simple
  · exact slot (.inl rfl) stands

end Build
end ScopeTyping
