import Mathlib.Data.List.Forall2
import ScopeTyping.Proofs.Outcome
import ScopeTyping.Proofs.Program.Layout
import ScopeTyping.Proofs.Tree.Spans
import ScopeTyping.Proofs.Ty.Settled
import ScopeTyping.Typing.Expression

/-! Written types are read exactly. Reading one succeeds with a type if and only if the node and
the written types below it spell that type; otherwise it ends at the first node, arguments before
what takes them, that spells none of the ten signatures. -/
namespace ScopeTyping

variable {tree : Tree} {id : NodeId} {ty : Ty}

/-! ### Types as they are written -/

namespace Ty

/-- The base names that stand for types, with the number of arguments that each of them takes. -/
def signatures : List (String × Nat) :=
  [("any", 0), ("boolean", 0), ("int", 0), ("float", 0), ("string", 0), ("time", 0),
    ("regexp", 0), ("object", 0), ("List", 1), ("Map", 2)]

/-- How a type is written. -/
def written : Ty → Written
  | list element => .mk "List" [element.written]
  | map key value => .mk "Map" [key.written, value.written]
  | simple => .mk simple.text []

/-- The nodes of a written type, arguments before what takes them. -/
def build : Ty → Build NodeId
  | list element => do
    let element ← element.build
    (Construct.types "List" [element]).build
  | map key value => do
    let key ← key.build
    let value ← value.build
    (Construct.types "Map" [key, value]).build
  | simple => (Construct.types simple.text []).build

theorem ofSignature?_isSome_iff (base : String) (args : List Ty) :
    (ofSignature? base args).isSome ↔ (base, args.length) ∈ signatures := by
  constructor
  · intro known
    unfold ofSignature? at known
    split at known
    all_goals simp [signatures] at known ⊢
  · intro member
    simp only [signatures, List.mem_cons, List.not_mem_nil, or_false, Prod.mk.injEq,
      List.length_eq_zero_iff, List.length_eq_one_iff, List.length_eq_two] at member
    rcases member with ⟨rfl, rfl⟩ | ⟨rfl, rfl⟩ | ⟨rfl, rfl⟩ | ⟨rfl, rfl⟩ | ⟨rfl, rfl⟩ | ⟨rfl, rfl⟩ |
      ⟨rfl, rfl⟩ | ⟨rfl, rfl⟩ | ⟨rfl, _, rfl⟩ | ⟨rfl, _, _, rfl⟩
    all_goals rfl

/-- A signature spells the type that it stands for. -/
theorem written_of_ofSignature? {base : String} {args : List Ty}
    (known : ofSignature? base args = some ty) : ty.written = .mk base (args.map written) := by
  unfold ofSignature? at known
  split at known
  all_goals cases known
  all_goals rfl

end Ty

/-! ### What nodes spell -/

namespace Tree

/-- A node and the written types below it spell a written type. Children of other kinds do not
count. -/
inductive Spells (tree : Tree) : Written → NodeId → Prop where
  | mk {id : NodeId} {node : Node} {ids : List NodeId} {args : List Written}
      (held : tree.node id = .ok node) (below : tree.childrenOfKind id .types = .whole ids)
      (inner : List.Forall₂ (Spells tree) args ids) : Spells tree (.mk node.text args) id

/-- The nodes of a written type, the arguments from left to right and then what takes them. -/
inductive PostOrder (tree : Tree) : NodeId → List NodeId → Prop where
  | mk {id : NodeId} {ids : List NodeId} {orders : List (List NodeId)}
      (below : tree.childrenOfKind id .types = .whole ids)
      (inner : List.Forall₂ (PostOrder tree) ids orders) :
      PostOrder tree id (orders.flatten ++ [id])

/-- How many type arguments are written at a node. -/
def arity (tree : Tree) (id : NodeId) : Nat := (tree.childrenOfKind id .types).items.length

/-- The text of a node and its type arguments make none of the signatures. -/
def isUnknownType (tree : Tree) (id : NodeId) : Bool :=
  match tree.node id with
  | .ok node => decide ((node.text, tree.arity id) ∉ Ty.signatures)
  | .error _ => false

theorem Sound.childrenOfKind_eq (sound : tree.Sound) (inside : id.index < tree.size) (kind : Kind) :
    tree.childrenOfKind id kind = .whole (tree.childrenOfKind id kind).items :=
  congrArg (Walk.mk _) (sound.fault_childrenOfKind inside kind)

theorem Spells.inv {base : String} {args : List Written} (spells : tree.Spells (.mk base args) id) :
    ∃ node ids, tree.node id = .ok node ∧ node.text = base ∧
      tree.childrenOfKind id .types = .whole ids ∧ List.Forall₂ tree.Spells args ids := by
  cases spells with
  | mk held below inner => exact ⟨_, _, held, rfl, below, inner⟩

/-- Where a written type stands, the nodes spell it. -/
theorem spells_of_writtenAt {written : Written} (stands : WrittenAt tree.nodes written id) :
    tree.Spells written id := by
  induction stands using WrittenAt.induct with
  | @mk id base ids args shows _ step =>
    obtain ⟨_, held⟩ := shows.node
    refine .mk held ?_ (step.imp fun _ _ ⟨_, spells⟩ => spells)
    refine Shows.childrenOfKind [] ids [] (by simpa using shows) (by simp) ?_ (by simp)
    refine forall_of_forall₂ step fun _ _ ⟨stands, _⟩ => ?_
    cases stands with
    | mk shows => exact shows.kind

end Tree

namespace Typing

variable {α β : Type} {attempt : Typing α} {order others : List NodeId} {done : α → Prop}
  {view : View}

/-! ### Reading in order -/

/-- Going through nodes in an order succeeds with a value that is so, unless one of the nodes is no
signature: then it ends with the error of the first such node. No text is given a name. -/
inductive Scans (tree : Tree) (order : List NodeId) (attempt : Typing α) (done : α → Prop) :
    Prop where
  | reads {value : α} (search : order.find? tree.isUnknownType = none) (holds : done value)
      (ran : ∀ names, attempt.outcome names = (.ok value, names)) : Scans tree order attempt done
  | fails {first : NodeId} {node : Node} (search : order.find? tree.isUnknownType = some first)
      (held : tree.node first = .ok node) (ran : ∀ names, attempt.outcome names =
        (.error (.error ⟨.typeNameUnknown (unknownTypeName node.text (tree.arity first)), first,
          node.span⟩), names)) : Scans tree order attempt done

theorem scans_pure {value : α} (holds : done value) : Scans tree [] (pure value : Typing α) done :=
  .reads rfl holds fun _ => rfl

/-- What comes first is read first. -/
theorem Scans.bind {next : α → Typing β} {result : β → Prop} (first : Scans tree order attempt done)
    (second : ∀ value, done value → Scans tree others (next value) result) :
    Scans tree (order ++ others) (attempt >>= next) result := by
  cases first with
  | fails search held ran =>
    exact .fails (by simp [search]) held fun names => by rw [Fallible.outcome_bind, ran]
  | @reads value search holds ran =>
    have goes : ∀ names, (attempt >>= next).outcome names = (next value).outcome names :=
      fun names => by rw [Fallible.outcome_bind, ran]
    cases second value holds with
    | reads further holds ran =>
      exact .reads (by simp [search, further]) holds fun names => by rw [goes, ran]
    | fails further held ran =>
      exact .fails (by simp [search, further]) held fun names => by rw [goes, ran]

/-- Items are read one after another. -/
theorem scans_mapM {ids : List NodeId} {each : NodeId → Typing α} {done : α → NodeId → Prop}
    (step : ∀ id ∈ ids, ∃ order, tree.PostOrder id order ∧ Scans tree order (each id) (done · id)) :
    ∃ orders, List.Forall₂ tree.PostOrder ids orders ∧
      Scans tree orders.flatten (ids.mapM each) fun values => List.Forall₂ done values ids := by
  induction ids with
  | nil => exact ⟨[], .nil, scans_pure .nil⟩
  | cons id rest later =>
    obtain ⟨order, post, scans⟩ := step id (by simp)
    obtain ⟨orders, posts, others⟩ := later fun other member => step other (by simp [member])
    refine ⟨order :: orders, .cons post posts, ?_⟩
    rw [List.mapM_cons, List.flatten_cons, ← List.append_nil orders.flatten]
    refine scans.bind fun value holds => others.bind fun values all => ?_
    exact scans_pure (.cons holds all)

/-- What a node is read as, once the written types below it are read. -/
def signatureAt (tree : Tree) (id : NodeId) (base : String) (types : List Ty) : Typing Ty :=
  match Ty.ofSignature? base types with
  | some ty => pure ty
  | none => Attempt.report tree id (.typeNameUnknown (unknownTypeName base types.length))

theorem declaredWithin_succ {node : Node} {ids : List NodeId} (held : view.tree.node id = .ok node)
    (below : view.tree.childrenOfKind id .types = .whole ids) (depth : Nat) :
    declaredWithin view (depth + 1) id =
      ids.mapM (declaredWithin view depth) >>= signatureAt view.tree id node.text := by
  show declaredWith view (declaredWithin view depth) id = _
  unfold declaredWith
  rw [below]
  simp only [Walk.mapM, Walk.whole, bind_pure, View.node, held, Attempt.guard, pure_bind]
  rfl

/-- The node's own signature comes last. -/
theorem scans_signatureAt {node : Node} {ids : List NodeId} {types : List Ty}
    (held : tree.node id = .ok node) (below : tree.childrenOfKind id .types = .whole ids)
    (settled : ∀ ty ∈ types, ty.Settled)
    (spells : List.Forall₂ (fun ty id => tree.Spells ty.written id) types ids) :
    Scans tree [id] (signatureAt tree id node.text types) fun ty =>
      ty.Settled ∧ tree.Spells ty.written id := by
  have long : tree.arity id = types.length := by
    rw [Tree.arity, below, spells.length_eq, Walk.items_whole]
  have signed := Ty.ofSignature?_isSome_iff node.text types
  unfold signatureAt
  cases known : Ty.ofSignature? node.text types with
  | some ty =>
    have search : [id].find? tree.isUnknownType = none := by
      simp [Tree.isUnknownType, held, long, signed.1 (by simp [known])]
    refine .reads search ⟨Ty.settled_ofSignature? settled known, ?_⟩ fun _ => rfl
    rw [Ty.written_of_ofSignature? known]
    exact .mk held below (List.forall₂_map_left_iff.2 spells)
  | none =>
    have unsigned : (node.text, types.length) ∉ Ty.signatures := fun member => by
      simpa [known] using signed.2 member
    have search : [id].find? tree.isUnknownType = some id := by
      simp [Tree.isUnknownType, held, long, unsigned]
    refine .fails search held fun names => ?_
    simp only [Attempt.report, SemanticError.atNode, held, Except.map, long]
    rfl

/-- A node is read in post-order. -/
theorem declaredWithin_scans (sound : view.tree.Sound) (inside : id.index < view.tree.size)
    {depth : Nat} (deep : view.tree.height id < depth) :
    ∃ order, view.tree.PostOrder id order ∧ Scans view.tree order (declaredWithin view depth id)
      fun ty => ty.Settled ∧ view.tree.Spells ty.written id := by
  induction depth generalizing id with
  | zero => exact absurd deep (Nat.not_lt_zero _)
  | succ depth step =>
    obtain ⟨node, held⟩ := Tree.node_exists inside
    have below := sound.childrenOfKind_eq inside .types
    obtain ⟨orders, posts, args⟩ := scans_mapM fun child met =>
      have ⟨inside, lower⟩ := sound.lower (Tree.mem_items_childrenOfKind met).1 deep
      step inside lower
    refine ⟨orders.flatten ++ [id], .mk below posts, ?_⟩
    rw [declaredWithin_succ held below]
    refine args.bind fun types all => ?_
    obtain ⟨settled, spells⟩ := (List.forall₂_and_left ..).1 all
    exact scans_signatureAt held below settled spells

/-! ### Reading what is spelled -/

/-- Nodes that are each read as a value are read as these values. -/
theorem mapM_eq_of_forall₂ {each : NodeId → Typing α} {values : List α} {ids : List NodeId}
    (reads : List.Forall₂ (fun value id => each id = pure value) values ids) :
    ids.mapM each = pure values := by
  induction reads with
  | nil => rfl
  | cons first _ others =>
    rw [List.mapM_cons, first, others]
    rfl

/-- A node is read as the type of its signature if the nodes below it are read as the arguments. -/
theorem declaredWithin_of_parts (sound : view.tree.Sound) (base : String) (parts : List Ty)
    (known : Ty.ofSignature? base parts = some ty)
    (spells : view.tree.Spells (.mk base (parts.map Ty.written)) id)
    (step : ∀ part ∈ parts, ∀ (child : NodeId) (depth : Nat), view.tree.Spells part.written child →
      view.tree.height child < depth → declaredWithin view depth child = pure part)
    {depth : Nat} (deep : view.tree.height id < depth) :
    declaredWithin view depth id = pure ty := by
  obtain ⟨node, ids, held, rfl, below, inner⟩ := spells.inv
  cases depth with
  | zero => exact absurd deep (Nat.not_lt_zero _)
  | succ depth =>
    have lower : ∀ child ∈ ids, view.tree.height child < depth := by
      intro child member
      have met : child ∈ (view.tree.childrenOfKind id .types).items := by rwa [below]
      exact (sound.lower (Tree.mem_items_childrenOfKind met).1 deep).2
    have each := (List.forall₂_and_left ..).2
      ⟨step, forall₂_and_right (List.forall₂_map_left_iff.1 inner) lower⟩
    have args : ids.mapM (declaredWithin view depth) = pure parts :=
      mapM_eq_of_forall₂ (each.imp fun _ child ⟨reads, spells, lower⟩ =>
        reads child depth spells lower)
    rw [declaredWithin_succ held below, args, pure_bind, signatureAt, known]

/-- Nodes that spell a settled type are read as that type. -/
theorem declaredWithin_of_spells (sound : view.tree.Sound) (settled : ty.Settled)
    (spells : view.tree.Spells ty.written id) {depth : Nat} (deep : view.tree.height id < depth) :
    declaredWithin view depth id = pure ty := by
  induction ty generalizing id depth with
  | absent => exact settled.elim
  | list element step =>
    refine declaredWithin_of_parts sound "List" [element] rfl spells ?_ deep
    simp only [List.forall_mem_singleton]
    exact fun _ _ inner lower => step settled inner lower
  | map key value keyStep valueStep =>
    refine declaredWithin_of_parts sound "Map" [key, value] rfl spells ?_ deep
    simp only [List.forall_mem_cons, List.not_mem_nil, false_imp_iff, implies_true, and_true]
    exact ⟨fun _ _ inner lower => keyStep settled.1 inner lower,
      fun _ _ inner lower => valueStep settled.2 inner lower⟩
  | any | boolean | int | float | string | time | regexp | object =>
    exact declaredWithin_of_parts sound _ [] (by rfl) spells (by simp) deep

theorem declared_of_spells (sound : view.tree.Sound) (settled : ty.Settled)
    (spells : view.tree.Spells ty.written id) : declared view id = pure ty :=
  declaredWithin_of_spells sound settled spells (Nat.lt_succ_of_le (view.tree.height_le id))

end Typing

/-! ### Types that are built -/

namespace Build

variable {builder : Builder}

/-- A written type is built over arguments that stand. -/
theorem adds_types (base : String) {args : List Written} {ids : List NodeId}
    (inner : List.Forall₂ (WrittenAt builder.nodes) args ids)
    (known : ∀ id ∈ ids, builder.Has id) :
    (Construct.types base ids).build.Adds builder [] fun id after =>
      after.Has id ∧ WrittenAt after.nodes (.mk base args) id := by
  obtain ⟨spans, ran, _⟩ := run_labelled .types base known
  refine ⟨_, _, [], ran, .labelled .rest known ran, rfl, by simp [Builder.Has], ?_⟩
  exact .mk ⟨_, Array.getElem?_push_size ..⟩ (inner.imp fun _ _ => WrittenAt.mono (.push _ _))

end Build

/-- The nodes of a type are built over whatever is there, and the type stands at the last one. -/
theorem Ty.build_adds (ty : Ty) (builder : Builder) : ty.build.Adds builder [] fun id after =>
    after.Has id ∧ WrittenAt after.nodes ty.written id := by
  induction ty generalizing builder with
  | list element step =>
    refine (step builder).bind fun element between _ ⟨has, stands⟩ => ?_
    exact Build.adds_types "List" (.cons stands .nil) (by simpa using has)
  | map key value keyStep valueStep =>
    refine (keyStep builder).bind fun key between _ ⟨has, stands⟩ => ?_
    refine (valueStep between).bind fun value after more ⟨also, other⟩ => ?_
    exact Build.adds_types "Map" (.cons (stands.mono more) (.cons other .nil))
      (by simpa using ⟨more.has has, also⟩)
  | _ => exact Build.adds_types _ .nil (by simp)

namespace Typing

/-- Declared types are read exactly. The nodes that are built for a settled type are read as that
type. At any node of a sound tree, a type is read if and only if it is settled and the node and the
written types below it spell it; what is read otherwise is the error of the first node, arguments
before what takes them, that spells none of the signatures. -/
theorem declared_exact :
    (∀ (builder : Builder) (ids : List NodeId) (texts : List String) (ty : Ty),
      builder.History ids texts → ty.Settled →
        ∃ id after, ty.build.run builder = .ok (id, after) ∧ ∀ (view : View) (root : NodeId),
          view.tree = after.finish root →
            ∀ names, (declared view id).outcome names = (.ok ty, names)) ∧
    ∀ (view : View) (id : NodeId), view.tree.Sound → id.index < view.tree.size →
      (∀ ty names after, (declared view id).outcome names = (.ok ty, after) ↔
        ty.Settled ∧ view.tree.Spells ty.written id ∧ after = names) ∧
      ∃ order, view.tree.PostOrder id order ∧ Scans view.tree order (declared view id)
        fun ty => ty.Settled ∧ view.tree.Spells ty.written id := by
  constructor
  · intro builder ids texts ty history settled
    obtain ⟨⟨tokens, grows, _⟩, _⟩ := history.grown
    obtain ⟨id, after, others, ran, further, _, _, stands⟩ := ty.build_adds builder
    refine ⟨id, after, ran, fun view root same names => ?_⟩
    have sound : view.tree.Sound := same ▸ (grows.trans further).fitted_of_empty.sound root
    have spells : view.tree.Spells ty.written id := Tree.spells_of_writtenAt (by rwa [same])
    rw [declared_of_spells sound settled spells, Fallible.outcome_pure]
  · intro view id sound inside
    obtain ⟨order, post, scans⟩ :=
      declaredWithin_scans sound inside (Nat.lt_succ_of_le (view.tree.height_le id))
    refine ⟨fun ty names after => ⟨fun ran => ?_, ?_⟩, order, post, scans⟩
    · cases scans with
      | reads _ holds reads =>
        cases (reads names).symm.trans ran
        exact ⟨holds.1, holds.2, rfl⟩
      | fails _ _ fails => cases (fails names).symm.trans ran
    · rintro ⟨settled, spells, rfl⟩
      rw [declared_of_spells sound settled spells, Fallible.outcome_pure]

end Typing

namespace Tree

/-- A list with a name among its arguments, below a map with an argument too many whose second
and third arguments are no types. -/
def glossary : Tree where
  nodes := #[⟨.types, .point 0, "int", []⟩, ⟨.name, .point 1, "of", []⟩,
    ⟨.types, .point 2, "List", [⟨1⟩, ⟨0⟩]⟩, ⟨.types, .point 3, "List", []⟩,
    ⟨.types, .point 4, "text", []⟩, ⟨.types, .point 5, "Map", [⟨2⟩, ⟨3⟩, ⟨4⟩]⟩]
  root := ⟨5⟩

theorem glossary_exact :
    (∃ id after, (Ty.map .string (.list .int)).build.run .empty = .ok (id, after) ∧
      (Typing.declared ⟨after.finish id, .empty, .empty⟩ id).outcome .empty =
        (.ok (.map .string (.list .int)), .empty)) ∧
    glossary.Sound ∧ glossary.Spells (Ty.list .int).written ⟨2⟩ ∧
      (Typing.declared ⟨glossary, .empty, .empty⟩ ⟨5⟩).outcome .empty =
        (.error (.error ⟨.typeNameUnknown "List", ⟨3⟩, .point 3⟩), .empty) := by
  have sound : glossary.Sound := sound_of_ascending (by decide +kernel)
  refine ⟨?_, sound, ?_, by rfl⟩
  · obtain ⟨id, after, ran, reads⟩ :=
      Typing.declared_exact.1 .empty [] [] (.map .string (.list .int)) .empty ⟨trivial, trivial⟩
    exact ⟨id, after, ran, reads _ id rfl _⟩
  · obtain ⟨reads, -⟩ :=
      Typing.declared_exact.2 ⟨glossary, .empty, .empty⟩ ⟨2⟩ sound (by decide)
    exact ((reads (.list .int) .empty .empty).1 (by rfl)).2.1

end Tree
end ScopeTyping
