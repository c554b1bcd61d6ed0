import Mathlib.Data.Multiset.AddSub
import ScopeTyping.Proofs.Program.Syntax
import ScopeTyping.Tree.Construct

/-! Stories that are built as they are meant to be. A step of building takes nodes that were
built before, in the places that are meant for what they are, and makes a piece of a program
(`Construct.Makes`). No node is taken twice (`Drafted`). A tree tells a program if it is the story
over statements that were built so (`Tree.Tells`). -/
namespace ScopeTyping

/-- What a step of building makes. -/
inductive Piece where
  | expr (expr : Expr)
  | types (written : Written)
  | statement (part : Part)
  /-- A branch of an `if`. -/
  | branch (part : Part)
  /-- A handler of a `try`. -/
  | handler (part : Part)

/-- Something that was built, and its outermost node. -/
structure Placed (α : Type) where
  id : NodeId
  item : α

/-- The same, in a form that has room for other things. -/
def Placed.as {α β : Type} (form : α → β) (placed : Placed α) : Placed β :=
  ⟨placed.id, form placed.item⟩

/-- The expression inside one wrapper. -/
def Expr.wrap (expr : Expr) : Expr := .wrapped expr.core

namespace Construct

/-- The kind and the text of the leaf that a literal is. -/
def literal? : Construct → Option (Kind × String)
  | .int value => some (.number, Literal.ofInt value)
  | .float value => some (.number, Literal.ofBinary64 value)
  | .string text => some (.string, Literal.ofString text)
  | .boolean value => some (.boolean, Literal.ofBool value)
  | .null => some (.void, "null")
  | .time text => some (.time, text)
  | .regexp pattern => some (.regexp, Literal.ofPattern pattern)
  | _ => none

/-- A step of building makes a piece out of what it takes. -/
inductive Makes : Construct → List (Placed Piece) → Piece → Prop where
  | literal {construct : Construct} {kind : Kind} {text : String}
      (known : construct.literal? = some (kind, text)) :
      Makes construct [] (.expr (.literal kind text))
  | list (items : List (Placed Expr)) :
      Makes (.list (items.map Placed.id)) (items.map (Placed.as .expr))
        (.expr (.list (items.map fun item => item.item.wrap)))
  | map (entries : List (Placed Expr × Placed Expr)) :
      Makes (.map (entries.map fun (key, value) => (key.id, value.id)))
        (entries.flatMap fun (key, value) => [key.as .expr, value.as .expr])
        (.expr (.map (entries.map fun (key, value) => (key.item.wrap, value.item.wrap))))
  | path (head : String) : Makes (.path head) [] (.expr (.path head []))
  | indexedPath (head : String) (indices : List (Placed Expr)) :
      Makes (.indexedPath head (indices.map Placed.id)) (indices.map (Placed.as .expr))
        (.expr (.path head (indices.map fun index => .index index.item.wrap)))
  | dottedPath (head : String) (fields : List String) :
      Makes (.dottedPath head fields) [] (.expr (.path head (fields.map .field)))
  | binary (op : String) (left right : Placed Expr) :
      Makes (.binary op left.id right.id) [left.as .expr, right.as .expr]
        (.expr (.binary op left.item right.item))
  | unary (op : String) (operand : Placed Expr) :
      Makes (.unary op operand.id) [operand.as .expr] (.expr (.unary op operand.item))
  | wrapped (inner : Placed Expr) :
      Makes (.wrapped inner.id) [inner.as .expr] (.expr inner.item.wrap)
  | types (base : String) (args : List (Placed Written)) :
      Makes (.types base (args.map Placed.id)) (args.map (Placed.as .types))
        (.types (.mk base (args.map Placed.item)))
  | assignment (target : NodeId) (head : String) (keys : List (Key Expr)) (value : Placed Expr) :
      Makes (.assignment target value.id) [⟨target, .expr (.path head keys)⟩, value.as .expr]
        (.statement (.assignment head keys value.item.core))
  | assign (head : String) (value : Placed Expr) :
      Makes (.assign head value.id) [value.as .expr]
        (.statement (.assignment head [] value.item.core))
  | returnStatement (value : Option (Placed Expr)) :
      Makes (.returnStatement (value.map Placed.id)) (value.toList.map (Placed.as .expr))
        (.statement (.returned (value.map fun value => value.item.core)))
  | absoluteExpression (value : Placed Expr) :
      Makes (.absoluteExpression value.id) [value.as .expr] (.statement (.evaluated value.item.core))
  | nestedBlock (body : List (Placed Part)) :
      Makes (.nestedBlock (body.map Placed.id)) (body.map (Placed.as .statement))
        (.statement (.scoped .block (body.map Placed.item)))
  | ifBlock (condition : Placed Expr) (body branches : List (Placed Part)) :
      Makes (.ifBlock condition.id (body.map Placed.id) (branches.map Placed.id))
        (condition.as .expr :: (body.map (Placed.as .statement) ++ branches.map (Placed.as .branch)))
        (.statement (.shared (.ifBlock condition.item.core) (body.map Placed.item)
          (branches.map Placed.item)))
  | elseifBlock (condition : Placed Expr) (body : List (Placed Part)) :
      Makes (.elseifBlock condition.id (body.map Placed.id))
        (condition.as .expr :: body.map (Placed.as .statement))
        (.branch (.shared (.elseifBlock condition.item.core) (body.map Placed.item) []))
  | elseBlock (body : List (Placed Part)) :
      Makes (.elseBlock (body.map Placed.id)) (body.map (Placed.as .statement))
        (.branch (.shared .elseBlock (body.map Placed.item) []))
  | whileBlock (condition : Placed Expr) (body : List (Placed Part)) :
      Makes (.whileBlock condition.id (body.map Placed.id))
        (condition.as .expr :: body.map (Placed.as .statement))
        (.statement (.shared (.whileBlock condition.item.core) (body.map Placed.item) []))
  | whenBlock (subject : Placed Expr) (body : List (Placed Part)) :
      Makes (.whenBlock subject.id (body.map Placed.id))
        (subject.as .expr :: body.map (Placed.as .statement))
        (.statement (.shared (.whenBlock subject.item.core) (body.map Placed.item) []))
  | foreachBlock (iterable : Placed Expr) (names : List String) (body : List (Placed Part)) :
      Makes (.foreachBlock iterable.id names (body.map Placed.id))
        (iterable.as .expr :: body.map (Placed.as .statement))
        (.statement (.scoped (.foreachBlock iterable.item.core names) (body.map Placed.item)))
  | tryBlock (body handlers : List (Placed Part)) :
      Makes (.tryBlock (body.map Placed.id) (handlers.map Placed.id))
        (body.map (Placed.as .statement) ++ handlers.map (Placed.as .handler))
        (.statement (.shared .tryBlock (body.map Placed.item) (handlers.map Placed.item)))
  | catchBlock (binding : Option String) (body : List (Placed Part)) :
      Makes (.catchBlock binding (body.map Placed.id)) (body.map (Placed.as .statement))
        (.handler (.scoped (.catchBlock binding) (body.map Placed.item)))
  | finallyBlock (body : List (Placed Part)) :
      Makes (.finallyBlock (body.map Placed.id)) (body.map (Placed.as .statement))
        (.handler (.scoped .finallyBlock (body.map Placed.item)))
  | functionBlock (name : String) (params : List (String × Placed Written))
      (output : Option (Placed Written)) (body : List (Placed Part)) :
      Makes (.functionBlock name (params.map fun (param, type) => (param, type.id))
          (output.map Placed.id) (body.map Placed.id))
        (params.map (fun (_, type) => type.as .types) ++ output.toList.map (Placed.as .types) ++
          body.map (Placed.as .statement))
        (.statement (.scoped (.functionBlock name
          (params.map fun (param, type) => (param, type.item)) (output.map Placed.item))
          (body.map Placed.item)))

end Construct

/-- A builder with the pieces that were built and have not been taken yet. -/
inductive Drafted : Builder → Multiset (Placed Piece) → Prop where
  | empty : Drafted .empty 0
  | add {builder after : Builder} {construct : Construct} {taken : List (Placed Piece)}
      {rest : Multiset (Placed Piece)} {piece : Piece} {id : NodeId}
      (drafted : Drafted builder (taken + rest)) (makes : construct.Makes taken piece)
      (built : builder.add construct = .ok (id, after)) : Drafted after (⟨id, piece⟩ ::ₘ rest)

/-- A tree is the story over statements that were built as they are meant to be. -/
def Tree.Tells (tree : Tree) (program : List Part) : Prop :=
  ∃ (builder : Builder) (body : List (Placed Part)) (rest : Multiset (Placed Piece)),
    Drafted builder ((body.map (Placed.as .statement) : List (Placed Piece)) + rest) ∧
      body.map Placed.item = program ∧ builder.story (body.map Placed.id) = .ok tree

/-! ### Stories from plans -/

/-- The builder after some steps, and the node that each step answered with. -/
def Builder.addAll (builder : Builder) : List Construct → Except Fault (List NodeId × Builder)
  | [] => .ok ([], builder)
  | construct :: rest => do
    let (id, between) ← builder.add construct
    let (ids, after) ← between.addAll rest
    pure (id :: ids, after)

/-- Steps that answer with some nodes make pieces out of pieces, one step after another. -/
inductive Plans : List Construct → List NodeId → List (Placed Piece) → List (Placed Piece) → Prop where
  | done {pieces : List (Placed Piece)} : Plans [] [] pieces pieces
  | step {construct : Construct} {constructs : List Construct} {id : NodeId} {ids : List NodeId}
      {taken rest pieces last : List (Placed Piece)} {piece : Piece}
      (makes : construct.Makes taken piece) (split : pieces = taken ++ rest)
      (later : Plans constructs ids (⟨id, piece⟩ :: rest) last) :
      Plans (construct :: constructs) (id :: ids) pieces last

/-- A plan that is carried out drafts what it makes. -/
theorem Drafted.addAll {builder after : Builder} {constructs : List Construct} {ids : List NodeId}
    {pieces last : List (Placed Piece)} (drafted : Drafted builder pieces)
    (plans : Plans constructs ids pieces last) (built : builder.addAll constructs = .ok (ids, after)) :
    Drafted after last := by
  induction plans generalizing builder with
  | done =>
    cases built
    exact drafted
  | @step construct constructs id ids taken rest pieces last piece makes split _ step =>
    subst split
    rw [Builder.addAll] at built
    cases added : builder.add construct with
    | error fault =>
      rw [added] at built
      cases built
    | ok answer =>
      rcases answer with ⟨first, between⟩
      rw [added] at built
      cases further : between.addAll constructs with
      | error fault => simp [further, bind, Except.bind] at built
      | ok rest =>
        rcases rest with ⟨others, afterwards⟩
        simp only [further, bind, Except.bind, pure, Except.pure, Except.ok.injEq, Prod.mk.injEq,
          List.cons.injEq] at built
        obtain ⟨⟨rfl, rfl⟩, rfl⟩ := built
        exact step (.add (by rwa [Multiset.coe_add]) makes added) further

/-- The story that some steps build, over some of the nodes that they answered with. -/
def Tree.build (constructs : List Construct) (statements : List NodeId) : Except Fault Tree := do
  let (_, builder) ← Builder.empty.addAll constructs
  builder.story statements

/-- The story that some steps build, if they can be carried out. -/
def Tree.planned (constructs : List Construct) (statements : List NodeId) : Tree :=
  match Tree.build constructs statements with
  | .ok tree => tree
  | .error _ => ⟨#[], ⟨0⟩⟩

/-- The story of a plan tells the program that the plan makes. -/
theorem Tree.planned_tells {constructs : List Construct} {ids : List NodeId}
    (body : List (Placed Part)) (rest : List (Placed Piece))
    (plans : Plans constructs ids [] (body.map (Placed.as .statement) ++ rest))
    (answers : (Builder.empty.addAll constructs).map Prod.fst = .ok ids)
    (succeeds : (Tree.build constructs (body.map Placed.id)).isOk = true) :
    (Tree.planned constructs (body.map Placed.id)).Tells (body.map Placed.item) := by
  unfold Tree.planned
  unfold Tree.build at succeeds ⊢
  cases added : Builder.empty.addAll constructs with
  | error fault =>
    rw [added] at answers
    cases answers
  | ok answer =>
    rcases answer with ⟨found, builder⟩
    rw [added] at answers succeeds
    cases answers
    have drafted : Drafted builder ((body.map (Placed.as .statement) ++ rest : List (Placed Piece)) :
        Multiset (Placed Piece)) := Drafted.addAll .empty plans added
    rw [← Multiset.coe_add] at drafted
    refine ⟨builder, body, rest, drafted, rfl, ?_⟩
    cases built : builder.story (body.map Placed.id) with
    | ok tree => simp [built, bind, Except.bind]
    | error fault => simp [built, bind, Except.bind, Except.isOk, Except.toBool] at succeeds

end ScopeTyping
