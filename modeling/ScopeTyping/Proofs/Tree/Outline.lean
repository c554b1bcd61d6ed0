import Mathlib.Data.List.Forall2
import ScopeTyping.Proofs.Scope.Dump
import ScopeTyping.Proofs.Tree.Descent
import ScopeTyping.Tree.Outline

/-! What an outline tells. A sound tree unfolds to one shape, and its outline has one line for each
way down from the root, indented by the length of the way, in the order in which the ways are met
depth first (`Unfolds.lists`). A line tells its level, its kind and its text, and the lines below a
node end where the next line is no deeper than the node, so the lines tell the shape
(`lines_append_inj`). -/
namespace ScopeTyping

/-! ### Lines -/

theorem Kind.ruleName_visible (kind : Kind) : kind.ruleName.toList ≠ [] ∧
    ∀ c ∈ kind.ruleName.toList, c ≠ ' ' ∧ c ≠ '\n' := by
  have visible : kind.ruleName.toList ≠ [] ∧
      kind.ruleName.toList.all (fun c => c != ' ' && c != '\n') = true := by
    cases kind <;> decide
  simpa using visible

theorem Kind.ruleName_inj {kind twin : Kind} (same : kind.ruleName = twin.ruleName) :
    kind = twin := by
  have known := congrArg Kind.ofRuleName? same
  rw [Kind.ofRuleName?_ruleName, Kind.ofRuleName?_ruleName] at known
  exact Option.some.inj known

namespace Outline

/-- What a line shows behind the kind: nothing, or a text behind a blank. -/
def ending (text : String) : List Char := if text = "" then [] else ' ' :: text.toList

theorem ending_inj {text twin : String} (same : ending text = ending twin) : text = twin := by
  unfold ending at same
  split at same <;> split at same <;> simp_all [String.toList_inj]

theorem toList_line (depth : Nat) (kind : Kind) (text : String) : (line depth kind text).toList =
    List.replicate (depth * 2) ' ' ++ (kind.ruleName.toList ++ ending text) := by
  have indent : (String.join (List.replicate depth "  ")).toList =
      List.replicate (depth * 2) ' ' := by
    rw [String.toList_join, List.flatMap_replicate]
    exact List.flatten_replicate_replicate (m := 2)
  unfold line ending
  rw [String.toList_append, String.toList_append, indent, List.append_assoc]
  split <;> simp

/-- A line tells how deep its node is, and the kind and the text of the node. -/
theorem line_inj {depth level : Nat} {kind twin : Kind} {text other : String}
    (same : line depth kind text = line level twin other) :
    depth = level ∧ kind = twin ∧ text = other := by
  have blanks : ∀ count, ∀ c ∈ List.replicate count ' ', c = ' ' := by simp
  have visible : ∀ (kind : Kind) (text : String),
      ∀ c ∈ (kind.ruleName.toList ++ ending text).head?, ¬ c = ' ' := by
    intro kind text c first
    obtain ⟨some, others⟩ := kind.ruleName_visible
    rw [List.head?_append_of_ne_nil _ some] at first
    exact (others c (List.mem_of_mem_head? first)).1
  have ends : ∀ text, ∀ c ∈ (ending text).head?, ¬ c ≠ ' ' := by
    intro text
    unfold ending
    split <;> simp
  have chars := congrArg String.toList same
  rw [toList_line, toList_line] at chars
  obtain ⟨indents, shown⟩ := append_inj_of_marked (blanks _) (blanks _) (visible _ _) (visible _ _)
    chars
  obtain ⟨kinds, texts⟩ := append_inj_of_marked
    (fun c member => (kind.ruleName_visible.2 c member).1)
    (fun c member => (twin.ruleName_visible.2 c member).1) (ends text) (ends other) shown
  have levels := congrArg List.length indents
  simp only [List.length_replicate] at levels
  exact ⟨by omega, Kind.ruleName_inj (String.toList_inj.1 kinds), ending_inj texts⟩

theorem newline_not_mem_line {depth : Nat} {kind : Kind} {text : String}
    (clean : '\n' ∉ text.toList) : '\n' ∉ (line depth kind text).toList := by
  have name : '\n' ∉ kind.ruleName.toList := fun member => (kind.ruleName_visible.2 _ member).2 rfl
  rw [toList_line]
  unfold ending
  split <;> simp [name, clean]

/-! ### Shapes from lines -/

theorem induct {motive : Outline → Prop}
    (node : ∀ kind text children, (∀ child ∈ children, motive child) →
      motive (.node kind text children)) (shape : Outline) : motive shape :=
  @Outline.rec motive (fun shapes => ∀ child ∈ shapes, motive child) node (by simp)
    (fun _ _ first others => by simpa using ⟨first, others⟩) shape

/-- The first of some lines, if there is one, is less deep. -/
def Shallower (depth : Nat) (lines : List String) : Prop :=
  ∀ first ∈ lines.head?, ∃ level kind text, level < depth ∧ first = line level kind text

theorem not_shallower {depth : Nat} {kind : Kind} {text : String} {rest : List String} :
    ¬ Shallower depth (line depth kind text :: rest) := by
  intro shallower
  obtain ⟨level, _, _, less, same⟩ := shallower _ rfl
  obtain ⟨rfl, -⟩ := line_inj same
  exact Nat.lt_irrefl _ less

theorem Shallower.succ {depth : Nat} {shapes : List Outline} {rest : List String}
    (shallower : Shallower depth rest) :
    Shallower (depth + 1) (linesOfAll depth shapes ++ rest) := by
  cases shapes with
  | nil =>
    intro first here
    obtain ⟨level, kind, text, less, same⟩ := shallower first here
    exact ⟨level, kind, text, by omega, same⟩
  | cons shape others =>
    cases shape with
    | node kind text children =>
      intro first here
      simp only [linesOfAll, lines, List.cons_append, List.head?_cons, Option.mem_some_iff] at here
      exact ⟨depth, kind, text, Nat.lt_succ_self _, here.symm⟩

/-- Shapes that stand side by side are told from their lines if each of them is. -/
theorem linesOfAll_append_inj {shapes twins : List Outline} {depth : Nat} {rest more : List String}
    (each : ∀ shape ∈ shapes, ∀ (twin : Outline) (rest more : List String),
      Shallower (depth + 1) rest → Shallower (depth + 1) more →
      shape.lines depth ++ rest = twin.lines depth ++ more → shape = twin ∧ rest = more)
    (ends : Shallower depth rest) (alsoEnds : Shallower depth more)
    (same : linesOfAll depth shapes ++ rest = linesOfAll depth twins ++ more) :
    shapes = twins ∧ rest = more := by
  induction shapes generalizing twins with
  | nil =>
    cases twins with
    | nil => exact ⟨rfl, same⟩
    | cons twin others =>
      cases twin
      simp only [linesOfAll, lines, List.nil_append, List.cons_append] at same
      exact absurd (same ▸ ends) not_shallower
  | cons shape shapes step =>
    cases twins with
    | nil =>
      cases shape
      simp only [linesOfAll, lines, List.nil_append, List.cons_append] at same
      exact absurd (same ▸ alsoEnds) not_shallower
    | cons twin twins =>
      simp only [linesOfAll, List.append_assoc] at same
      obtain ⟨rfl, behind⟩ := each shape (by simp) twin _ _ ends.succ alsoEnds.succ same
      obtain ⟨rfl, rest⟩ := step (fun other member => each other (by simp [member])) behind
      exact ⟨rfl, rest⟩

/-- A shape is told from its lines, if no line behind them is as deep as those below its node. -/
theorem lines_append_inj (shape twin : Outline) (depth : Nat) (rest more : List String)
    (ends : Shallower (depth + 1) rest) (alsoEnds : Shallower (depth + 1) more)
    (same : shape.lines depth ++ rest = twin.lines depth ++ more) :
    shape = twin ∧ rest = more := by
  induction shape using Outline.induct generalizing twin depth rest more with
  | node kind text children step =>
    cases twin with
    | node twinKind twinText twins =>
      simp only [lines, List.cons_append, List.cons.injEq] at same
      obtain ⟨-, rfl, rfl⟩ := line_inj same.1
      obtain ⟨rfl, behind⟩ := linesOfAll_append_inj
        (fun child member twin rest more => step child member twin (depth + 1) rest more)
        ends alsoEnds same.2
      exact ⟨rfl, behind⟩

theorem lines_inj {shape twin : Outline} (same : shape.lines 0 = twin.lines 0) : shape = twin := by
  have nothing : Shallower 1 [] := by simp [Shallower]
  exact (lines_append_inj shape twin 0 [] [] nothing nothing (by simpa using same)).1

end Outline

/-! ### Unfolding -/

namespace Tree

variable {tree : Tree} {id : NodeId} {shape : Outline}

/-- A node unfolds to a shape. -/
inductive Unfolds (tree : Tree) : Outline → NodeId → Prop where
  | node {id : NodeId} {found : Node} {shapes : List Outline} (held : tree.node id = .ok found)
      (inner : List.Forall₂ (Unfolds tree) shapes found.children) :
      Unfolds tree (.node found.kind found.text shapes) id

/-- Induction over a node and all that is below it. -/
theorem Unfolds.induct {motive : ∀ shape id, tree.Unfolds shape id → Prop}
    (node : ∀ {id found shapes} (held : tree.node id = .ok found)
      (inner : List.Forall₂ (Unfolds tree) shapes found.children),
      List.Forall₂ (fun shape id => ∃ unfolds, motive shape id unfolds) shapes found.children →
      motive (.node found.kind found.text shapes) id (.node held inner))
    {shape : Outline} {id : NodeId} (unfolds : tree.Unfolds shape id) : motive shape id unfolds :=
  @Unfolds.rec tree motive
    (fun shapes ids _ =>
      List.Forall₂ (fun shape id => ∃ unfolds, motive shape id unfolds) shapes ids)
    node .nil (fun unfolds _ first others => .cons ⟨unfolds, first⟩ others) shape id unfolds

/-- In a sound tree every node unfolds. -/
theorem Sound.unfold_exists (sound : tree.Sound) {depth : Nat} (inside : id.index < tree.size)
    (deep : tree.height id < depth) :
    ∃ shape, tree.unfold depth id = .ok shape ∧ tree.Unfolds shape id := by
  induction depth generalizing id with
  | zero => exact absurd deep (Nat.not_lt_zero _)
  | succ depth step =>
    obtain ⟨found, held⟩ := node_exists inside
    have each : ∀ child ∈ found.children,
        ∃ shape, tree.unfold depth child = .ok shape ∧ tree.Unfolds shape child := by
      intro child member
      obtain ⟨inside, lower⟩ := sound.lower (childOf_of_mem held member) deep
      exact step inside lower
    have all : ∃ shapes, found.children.mapM (tree.unfold depth) = .ok shapes ∧
        List.Forall₂ (Unfolds tree) shapes found.children := by
      generalize found.children = ids at each
      clear * - each
      induction ids with
      | nil => exact ⟨[], rfl, .nil⟩
      | cons child others step =>
        obtain ⟨shape, first, unfolds⟩ := each child (by simp)
        obtain ⟨shapes, further, inner⟩ := step fun other member => each other (by simp [member])
        refine ⟨shape :: shapes, ?_, .cons unfolds inner⟩
        rw [List.mapM_cons, first, further]
        rfl
    obtain ⟨shapes, unfolded, inner⟩ := all
    refine ⟨.node found.kind found.text shapes, ?_, .node held inner⟩
    simp only [unfold, held, unfolded, bind, Except.bind, pure, Except.pure]

/-- A node unfolds to one shape. -/
theorem Unfolds.unique {twin : Outline} (unfolds : tree.Unfolds shape id)
    (also : tree.Unfolds twin id) : shape = twin := by
  induction unfolds using Unfolds.induct generalizing twin with
  | @node id found shapes held _ step =>
    cases also with
    | @node _ other twins there inner =>
      cases held.symm.trans there
      have same : shapes = twins := by
        generalize found.children = ids at step inner
        clear * - step inner
        induction step generalizing twins with
        | nil =>
          cases inner
          rfl
        | cons first _ others =>
          cases inner with
          | cons twin rest =>
            obtain ⟨_, unique⟩ := first
            rw [unique twin, others rest]
      rw [same]

/-! ### Occurrences -/

/-- A way down from a node to a node, by the positions of the children that it takes. The first
one of them comes first. -/
inductive Descends (tree : Tree) : NodeId → List Nat → NodeId → Prop where
  | here {id : NodeId} : Descends tree id [] id
  | down {id child below : NodeId} {found : Node} {position : Nat} {way : List Nat}
      (held : tree.node id = .ok found) (there : found.children[position]? = some child)
      (rest : Descends tree child way below) : Descends tree id (position :: way) below

theorem Descends.snoc {below child : NodeId} {found : Node} {position : Nat} {way : List Nat}
    (descends : tree.Descends id way below) (held : tree.node below = .ok found)
    (there : found.children[position]? = some child) :
    tree.Descends id (way ++ [position]) child := by
  induction descends with
  | here => exact .down held there .here
  | down above first _ step => exact .down above first (step held)

/-- The ways down from the root are the ways that lead to nodes. -/
theorem descends_root_iff {way : List Nat} :
    tree.Descends tree.root way id ↔ tree.Leads way.reverse id := by
  constructor
  · have onwards : ∀ {start below : NodeId} {before way : List Nat}, tree.Leads before start →
        tree.Descends start way below → tree.Leads (way.reverse ++ before) below := by
      intro start below before way leads descends
      induction descends generalizing before with
      | here => exact leads
      | down held there _ step => simpa using step (leads.child held there)
    intro descends
    simpa using onwards .root descends
  · have turned : ∀ {way : List Nat} {id : NodeId}, tree.Leads way id →
        tree.Descends tree.root way.reverse id := by
      intro way id leads
      induction leads with
      | root => exact .here
      | child _ held there step => simpa using step.snoc held there
    intro leads
    simpa using turned leads

/-- Some ways and where they end: all that there are, each of them once, and depth first. A way
comes before those that go on from it and before those that turn off to a later child. -/
structure Lists (reached : List Nat → NodeId → Prop) (occurrences : List (List Nat × NodeId)) :
    Prop where
  complete : ∀ way id, (way, id) ∈ occurrences ↔ reached way id
  ordered : occurrences.Pairwise fun one other => List.Lex (· < ·) one.1 other.1

/-- A line shows where a way ends, at the level that it leads to. -/
def ShownAt (tree : Tree) (depth : Nat) (occurrence : List Nat × NodeId) (line : String) : Prop :=
  ∃ found, tree.node occurrence.2 = .ok found ∧
    line = Outline.line (depth + occurrence.1.length) found.kind found.text

/-- The lines of shapes side by side list the ways through the nodes that unfold to them. -/
theorem lists_side_by_side {shapes : List Outline} {ids : List NodeId} (depth first : Nat)
    (each : List.Forall₂ (fun shape id => ∃ occurrences, Lists (tree.Descends id) occurrences ∧
      List.Forall₂ (tree.ShownAt (depth + 1)) occurrences (shape.lines (depth + 1))) shapes ids) :
    ∃ occurrences, Lists (fun way below => ∃ position child rest, way = (first + position) :: rest ∧
        ids[position]? = some child ∧ tree.Descends child rest below) occurrences ∧
      List.Forall₂ (tree.ShownAt depth) occurrences (Outline.linesOfAll (depth + 1) shapes) := by
  induction each generalizing first with
  | nil => exact ⟨[], ⟨by simp, .nil⟩, .nil⟩
  | @cons shape id shapes ids one _ step =>
    obtain ⟨here, lists, shown⟩ := one
    obtain ⟨others, further, alsoShown⟩ := step (first + 1)
    refine ⟨here.map (fun (way, below) => (first :: way, below)) ++ others, ⟨?_, ?_⟩, ?_⟩
    · intro way below
      rw [List.mem_append, further.complete]
      constructor
      · rintro (member | ⟨position, child, rest, rfl, there, descends⟩)
        · obtain ⟨⟨rest, _⟩, among, same⟩ := List.mem_map.1 member
          cases same
          exact ⟨0, id, rest, rfl, rfl, (lists.complete _ _).1 among⟩
        · exact ⟨position + 1, child, rest, by simp; omega, there, descends⟩
      · rintro ⟨position, child, rest, rfl, there, descends⟩
        cases position with
        | zero =>
          cases there
          exact .inl (List.mem_map.2 ⟨(rest, below), (lists.complete _ _).2 descends, rfl⟩)
        | succ position =>
          exact .inr ⟨position, child, rest, by simp; omega, there, descends⟩
    · rw [List.pairwise_append]
      refine ⟨?_, further.ordered, ?_⟩
      · rw [List.pairwise_map]
        exact lists.ordered.imp fun before => .cons before
      · intro one member other among
        obtain ⟨_, _, rfl⟩ := List.mem_map.1 member
        obtain ⟨position, _, _, turned, _⟩ := (further.complete other.1 other.2).1 among
        rw [turned]
        exact .rel (by omega)
    · refine List.rel_append ?_ alsoShown
      rw [List.forall₂_map_left_iff]
      refine shown.imp fun occurrence line ⟨found, held, same⟩ => ⟨found, held, ?_⟩
      rw [same, List.length_cons, Nat.add_right_comm, Nat.add_assoc]

/-- The lines of what a node unfolds to list the ways down from the node. -/
theorem Unfolds.lists (unfolds : tree.Unfolds shape id) (depth : Nat) :
    ∃ occurrences, Lists (tree.Descends id) occurrences ∧
      List.Forall₂ (tree.ShownAt depth) occurrences (shape.lines depth) := by
  induction unfolds using Unfolds.induct generalizing depth with
  | @node id found shapes held _ step =>
    obtain ⟨below, lists, shown⟩ := lists_side_by_side depth 0
      (step.imp fun _ _ ⟨_, lists⟩ => lists (depth + 1))
    refine ⟨([], id) :: below, ⟨?_, ?_⟩, .cons ⟨found, held, rfl⟩ shown⟩
    · intro way last
      rw [List.mem_cons, lists.complete]
      constructor
      · rintro (same | ⟨position, child, rest, rfl, there, descends⟩)
        · cases same
          exact .here
        · rw [Nat.zero_add]
          exact .down held there descends
      · intro descends
        cases descends with
        | here => exact .inl rfl
        | down above there rest =>
          cases held.symm.trans above
          exact .inr ⟨_, _, _, by rw [Nat.zero_add], there, rest⟩
    · refine List.pairwise_cons.2 ⟨fun other member => ?_, lists.ordered⟩
      obtain ⟨_, _, _, turned, _⟩ := (lists.complete other.1 other.2).1 member
      rw [turned]
      exact .nil

/-! ### Outlines -/

/-- A sound tree with its root in it, in which every text is of one line. -/
structure Legible (tree : Tree) : Prop where
  sound : tree.Sound
  rooted : tree.root.index < tree.size
  clean : ∀ node ∈ tree.nodes, '\n' ∉ node.text.toList

theorem Legible.newline_not_mem (legible : tree.Legible) {depth : Nat} {line : String}
    {occurrence : List Nat × NodeId} (shown : tree.ShownAt depth occurrence line) :
    '\n' ∉ line.toList := by
  obtain ⟨found, held, rfl⟩ := shown
  rw [node_eq_ok_iff] at held
  exact Outline.newline_not_mem_line (legible.clean found (Array.mem_of_getElem? held))

/-- The text of an outline: one line for each way down from the root, in the order in which the
ways are met depth first, two spaces deeper with every step. -/
def OutlinedAs (tree : Tree) (text : String) : Prop :=
  ∃ (occurrences : List (List Nat × NodeId)) (lines : List String),
    Lists (fun way id => tree.Leads way.reverse id) occurrences ∧
      List.Forall₂ (tree.ShownAt 0) occurrences lines ∧ (∀ line ∈ lines, '\n' ∉ line.toList) ∧
      text = String.join (lines.map (· ++ "\n"))

/-- A legible tree has an outline, that of the shape that it unfolds to. -/
theorem Legible.outline (legible : tree.Legible) : ∃ shape, tree.Unfolds shape tree.root ∧
    tree.outline = .ok shape.text ∧ (∀ line ∈ shape.lines 0, '\n' ∉ line.toList) ∧
      tree.OutlinedAs shape.text := by
  obtain ⟨shape, unfolded, unfolds⟩ :=
    legible.sound.unfold_exists legible.rooted (Nat.lt_succ_of_le (tree.height_le tree.root))
  obtain ⟨occurrences, lists, shown⟩ := unfolds.lists 0
  have clean : ∀ line ∈ shape.lines 0, '\n' ∉ line.toList := by
    intro line member
    obtain ⟨index, inside, rfl⟩ := List.getElem_of_mem member
    exact legible.newline_not_mem (shown.get (shown.length_eq ▸ inside) inside)
  refine ⟨shape, unfolds, ?_, clean, occurrences, shape.lines 0, ?_, shown, clean, rfl⟩
  · rw [Tree.outline, Tree.shape, unfolded]
    rfl
  · exact ⟨fun way id => (lists.complete way id).trans descends_root_iff, lists.ordered⟩

/-- Two legible trees have outlines, and the outlines are the same text if and only if the trees
unfold from their roots to the same shape. An outline has one line for each way down from the root
to a node, in depth-first order, with two spaces for each step of the way. -/
theorem outline_faithful (tree twin : Tree) (legible : tree.Legible) (alsoLegible : twin.Legible) :
    ∃ text other, tree.outline = .ok text ∧ twin.outline = .ok other ∧
      (text = other ↔ ∃ shape, tree.Unfolds shape tree.root ∧ twin.Unfolds shape twin.root) ∧
      tree.OutlinedAs text ∧ twin.OutlinedAs other := by
  obtain ⟨shape, unfolds, outline, clean, listed⟩ := legible.outline
  obtain ⟨other, alsoUnfolds, alsoOutline, alsoClean, alsoListed⟩ := alsoLegible.outline
  refine ⟨shape.text, other.text, outline, alsoOutline, ⟨fun same => ?_, ?_⟩, listed, alsoListed⟩
  · have lines := join_lines_inj clean alsoClean same
    cases Outline.lines_inj lines
    exact ⟨shape, unfolds, alsoUnfolds⟩
  · rintro ⟨common, first, second⟩
    rw [unfolds.unique first, alsoUnfolds.unique second]

/-- A text that looks like a line of its own, at a node with two ways to it and at two nodes. -/
theorem outline_faithful_shared :
    let tree : Tree := ⟨#[⟨.name, .point 0, "  name x", []⟩,
      ⟨.list, .point 0, "", [⟨0⟩, ⟨0⟩]⟩], ⟨1⟩⟩
    let twin : Tree := ⟨#[⟨.name, .point 0, "  name x", []⟩, ⟨.name, .point 9, "  name x", []⟩,
      ⟨.list, .point 0, "", [⟨0⟩, ⟨1⟩]⟩], ⟨2⟩⟩
    tree.Legible ∧ twin.Legible ∧ ∃ text, tree.outline = .ok text ∧ twin.outline = .ok text := by
  intro tree twin
  have legible : tree.Legible := ⟨sound_of_ascending (by decide), by decide, by decide⟩
  have alsoLegible : twin.Legible := ⟨sound_of_ascending (by decide), by decide, by decide⟩
  obtain ⟨text, other, outline, alsoOutline, same, -⟩ :=
    outline_faithful tree twin legible alsoLegible
  have leaf : ∀ (tree : Tree) (id : NodeId) (span : Span),
      tree.node id = .ok ⟨.name, span, "  name x", []⟩ →
      tree.Unfolds (.node .name "  name x" []) id := fun _ _ _ held => .node held .nil
  have list : ∀ (tree : Tree) (id one two : NodeId) (span : Span),
      tree.node id = .ok ⟨.list, span, "", [one, two]⟩ →
      tree.Unfolds (.node .name "  name x" []) one → tree.Unfolds (.node .name "  name x" []) two →
      tree.Unfolds (.node .list "" [.node .name "  name x" [], .node .name "  name x" []]) id :=
    fun _ _ _ _ _ held first second => .node held (.cons first (.cons second .nil))
  have alike : text = other := same.2 ⟨_, list _ _ _ _ _ rfl (leaf _ _ _ rfl) (leaf _ _ _ rfl),
    list _ _ _ _ _ rfl (leaf _ _ _ rfl) (leaf _ _ _ rfl)⟩
  exact ⟨legible, alsoLegible, text, outline, alike ▸ alsoOutline⟩

end Tree
end ScopeTyping
