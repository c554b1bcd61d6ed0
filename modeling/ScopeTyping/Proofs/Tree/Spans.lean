import Mathlib.Order.Bounds.Basic
import Mathlib.Order.Lattice
import ScopeTyping.Proofs.Tree.Building
import ScopeTyping.Proofs.Tree.Descent

/-! Where built nodes lie. Spans are ordered by what they hold, and the span of a node over
children is the least one above theirs (`Builder.isLUB_spanOver`), so a node holds all that
stands below it. Tokens lie one behind the other for as long as there are offsets left. -/
namespace ScopeTyping

namespace Span

/-- A span is below another one that reaches at least as far to both sides. -/
instance : SemilatticeSup Span where
  le inner outer := outer.start ≤ inner.start ∧ inner.stop ≤ outer.stop
  le_refl _ := ⟨le_rfl, le_rfl⟩
  le_trans _ _ _ first second := ⟨second.1.trans first.1, first.2.trans second.2⟩
  le_antisymm := by
    rintro ⟨_, _⟩ ⟨_, _⟩ ⟨left, right⟩ ⟨lower, upper⟩
    exact congrArg₂ Span.mk (le_antisymm lower left) (le_antisymm right upper)
  sup := cover
  le_sup_left _ _ := ⟨min_le_left .., le_max_left ..⟩
  le_sup_right _ _ := ⟨min_le_right .., le_max_right ..⟩
  sup_le _ _ _ left right := ⟨le_min left.1 right.1, max_le left.2 right.2⟩

/-- The span does not stop before it starts. -/
def Forward (span : Span) : Prop := span.start ≤ span.stop

/-- Whatever holds a span that runs forward runs forward. -/
theorem Forward.mono {inner outer : Span} (forward : inner.Forward) (holds : inner ≤ outer) :
    outer.Forward := holds.1.trans (forward.trans holds.2)

end Span

/-! ### Single nodes -/

namespace Builder

variable {offset : Nat} {first : Span} {spans : List Span}

theorem spanOver_le_iff {bound : Span} :
    spanOver offset (first :: spans) ≤ bound ↔ ∀ span ∈ first :: spans, span ≤ bound := by
  induction spans generalizing first with
  | nil => simp [spanOver]
  | cons next rest step =>
    -- the first two spans count as one
    have reach : spanOver offset (first :: next :: rest) =
      spanOver offset ((first ⊔ next) :: rest) := rfl
    rw [reach, step]
    simp [and_assoc]

/-- The span of a node is the least one above those of its children. -/
theorem isLUB_spanOver : IsLUB {span | span ∈ first :: spans} (spanOver offset (first :: spans)) :=
  isLUB_iff_le_iff.2 fun _ => spanOver_le_iff

theorem forward_spanOver (forward : ∀ span ∈ spans, span.Forward) :
    (spanOver offset spans).Forward := by
  cases spans with
  | nil => exact Nat.le_refl offset
  | cons first rest => exact (forward first (by simp)).mono (isLUB_spanOver.1 (by simp))

theorem forward_tokenSpan (inside : offset ≤ Span.limit) (text : String) :
    (tokenSpan offset text).Forward :=
  le_min (Nat.le_add_right ..) inside

/-- Short of the limit, a token is as long as its text. -/
theorem tokenSpan_eq {text : String} (short : offset + text.utf8ByteSize ≤ Span.limit) :
    tokenSpan offset text = ⟨offset, offset + text.utf8ByteSize⟩ := by
  rw [tokenSpan, min_eq_left short]

end Builder

/-- A node lies where its children put it: behind them in the array, with a span that runs forward
and holds no more than theirs do. -/
structure Node.Fits (nodes : Array Node) (id : NodeId) (node : Node) : Prop where
  ascending : ∀ child ∈ node.children, child.index < id.index
  forward : node.span.Forward
  tight : node.children ≠ [] →
    IsLUB {span | ∃ child ∈ node.children, spanAt nodes child = some span} node.span

/-- Every node lies where its children put it. -/
def Fitted (nodes : Array Node) : Prop :=
  ∀ (id : NodeId) (node : Node), nodes[id.index]? = some node → node.Fits nodes id

section Push

variable {nodes : Array Node} {node other : Node} {id : NodeId} {span : Span}

theorem spanAt_of_some (held : nodes[id.index]? = some node) : spanAt nodes id = some node.span :=
  congrArg (Option.map Node.span) held

theorem spanAt_push (inside : id.index < nodes.size) :
    spanAt (nodes.push other) id = spanAt nodes id := by
  rw [spanAt, spanAt, Array.getElem?_push, if_neg inside.ne]

theorem spanAt_push_of_some (held : spanAt nodes id = some span) :
    spanAt (nodes.push other) id = some span := by
  obtain ⟨node, there, _⟩ := Option.map_eq_some_iff.1 held
  rw [spanAt_push (Array.getElem?_eq_some_iff.1 there).1, held]

theorem spanAt_push_size : spanAt (nodes.push other) ⟨nodes.size⟩ = some other.span := by
  simp [spanAt]

/-- A node stays where it lies when another one is added. -/
theorem Node.Fits.push (fits : node.Fits nodes id) (inside : id.index ≤ nodes.size) :
    node.Fits (nodes.push other) id := by
  refine ⟨fits.ascending, fits.forward, fun parent => ?_⟩
  have same : {span | ∃ child ∈ node.children, spanAt (nodes.push other) child = some span} =
      {span | ∃ child ∈ node.children, spanAt nodes child = some span} := by
    ext span
    refine exists_congr fun child => and_congr_right fun member => ?_
    rw [spanAt_push ((fits.ascending child member).trans_le inside)]
  rw [same]
  exact fits.tight parent

theorem Fitted.push (fitted : Fitted nodes) (fits : other.Fits nodes ⟨nodes.size⟩) :
    Fitted (nodes.push other) := by
  intro id node held
  rw [Array.getElem?_push] at held
  split at held
  · rename_i last
    cases held
    obtain ⟨index⟩ := id
    cases last
    exact fits.push le_rfl
  · exact (fitted id node held).push (Array.getElem?_eq_some_iff.1 held).1.le

/-- A node over children that are there lies where they put it. -/
theorem Fitted.fits_over (fitted : Fitted nodes) {kind : Kind} {text : String} {offset : Nat}
    {children : List NodeId} {spans : List Span}
    (there : children.map (spanAt nodes) = spans.map some) :
    Node.Fits nodes ⟨nodes.size⟩ ⟨kind, Builder.spanOver offset spans, text, children⟩ := by
  have held : ∀ span, (∃ child ∈ children, spanAt nodes child = some span) ↔ span ∈ spans := by
    intro span
    rw [← List.mem_map, there]
    simp
  have found : ∀ child ∈ children, ∃ span ∈ spans, spanAt nodes child = some span := by
    intro child member
    obtain ⟨span, known, same⟩ := List.mem_map.1 (there ▸ List.mem_map_of_mem member)
    exact ⟨span, known, same.symm⟩
  constructor
  · intro child member
    obtain ⟨span, _, known⟩ := found child member
    obtain ⟨node, there, _⟩ := Option.map_eq_some_iff.1 known
    exact (Array.getElem?_eq_some_iff.1 there).1
  · refine Builder.forward_spanOver fun span member => ?_
    obtain ⟨child, _, known⟩ := (held span).2 member
    obtain ⟨node, there, rfl⟩ := Option.map_eq_some_iff.1 known
    exact (fitted child node there).forward
  · intro parent
    simp only [held]
    cases spans with
    | nil => exact absurd (List.map_eq_nil_iff.1 there) parent
    | cons first rest => exact Builder.isLUB_spanOver

theorem fits_token {kind : Kind} {text : String} {offset : Nat} (inside : offset ≤ Span.limit) :
    Node.Fits nodes id ⟨kind, Builder.tokenSpan offset text, text, []⟩ :=
  ⟨by simp, Builder.forward_tokenSpan inside text, by simp⟩

end Push

/-! ### Tokens in a row -/

/-- The bytes that texts take up, each with the gap behind it. -/
def room : List String → Nat
  | [] => 0
  | text :: rest => text.utf8ByteSize + 1 + room rest

theorem room_append (texts others : List String) :
    room (texts ++ others) = room texts + room others := by
  induction texts with
  | nil => simp [room]
  | cons text rest step => simp [room, step, Nat.add_assoc]

namespace Token

/-- A token is a leaf with its text, and its span is as long as the text. -/
def Laid (nodes : Array Node) (token : Token) : Prop :=
  ∃ kind span, nodes[token.id.index]? = some ⟨kind, span, token.text, []⟩ ∧
    span.length = .ok token.text.utf8ByteSize

/-- A token was built before another one, and it ends before the other one starts. -/
def Before (nodes : Array Node) (earlier later : Token) : Prop :=
  earlier.id.index < later.id.index ∧ ∃ first second, spanAt nodes earlier.id = some first ∧
    spanAt nodes later.id = some second ∧ first.stop < second.start

variable {nodes : Array Node} {other : Node} {token earlier later : Token}

theorem Laid.push (laid : token.Laid nodes) : token.Laid (nodes.push other) := by
  obtain ⟨kind, span, held, long⟩ := laid
  exact ⟨kind, span, Extends.push _ _ _ _ held, long⟩

theorem Before.push (before : earlier.Before nodes later) :
    earlier.Before (nodes.push other) later := by
  obtain ⟨order, first, second, here, there, apart⟩ := before
  exact ⟨order, first, second, spanAt_push_of_some here, spanAt_push_of_some there, apart⟩

end Token

namespace Builder

variable {builder start after : Builder} {tokens : List Token} {ids : List NodeId}
  {texts : List String}

/-- The tokens lie one behind the other, and the next one will lie behind them. -/
structure Row (builder : Builder) (tokens : List Token) : Prop where
  offset : builder.offset = room (tokens.map Token.text)
  laid : ∀ token ∈ tokens, token.Laid builder.nodes
  past : ∀ token ∈ tokens, ∃ span, spanAt builder.nodes token.id = some span ∧
    span.stop < builder.offset
  apart : tokens.Pairwise (Token.Before builder.nodes)

theorem Row.labelled (row : builder.Row tokens) (node : Node) :
    Row ⟨builder.nodes.push node, builder.offset⟩ tokens where
  offset := row.offset
  laid token member := (row.laid token member).push
  past token member := by
    obtain ⟨span, held, past⟩ := row.past token member
    exact ⟨span, spanAt_push_of_some held, past⟩
  apart := row.apart.imp Token.Before.push

theorem Row.token (row : builder.Row tokens) {kind : Kind} {text : String} {id : NodeId}
    (added : (Build.token kind text).run builder = .ok (id, after))
    (short : room ((tokens ++ [Token.mk id text]).map Token.text) ≤ Span.limit) :
    after.Row (tokens ++ [⟨id, text⟩]) := by
  have total : room ((tokens ++ [Token.mk id text]).map Token.text) =
      builder.offset + (text.utf8ByteSize + 1) := by
    simp [room_append, room, row.offset]
  rw [total] at short
  rw [Build.run_token, tokenSpan_eq (by omega), min_eq_left (by omega)] at added
  cases added
  refine { offset := total.symm, laid := ?laid, past := ?past, apart := ?apart }
  case laid =>
    refine List.forall_mem_append.2 ⟨fun token member => (row.laid token member).push, ?_⟩
    rw [List.forall_mem_singleton]
    exact ⟨kind, _, Array.getElem?_push_size .., by simp [Span.length]⟩
  case past =>
    refine List.forall_mem_append.2 ⟨fun token member => ?_, ?_⟩
    · obtain ⟨span, held, past⟩ := row.past token member
      exact ⟨span, spanAt_push_of_some held, by dsimp only; omega⟩
    · rw [List.forall_mem_singleton]
      exact ⟨_, spanAt_push_size, by dsimp only; omega⟩
  case apart =>
    refine List.pairwise_append.2 ⟨row.apart.imp Token.Before.push, List.pairwise_singleton .., ?_⟩
    intro earlier member later last
    obtain ⟨kind, span, held, _⟩ := row.laid earlier member
    obtain ⟨span, there, past⟩ := row.past earlier member
    rw [List.mem_singleton.1 last]
    exact ⟨(Array.getElem?_eq_some_iff.1 held).1, span, _, spanAt_push_of_some there,
      spanAt_push_size, past⟩

/-! ### Whole builders -/

/-- Offsets stay within their limit and nodes where their children put them. -/
theorem Grows.fitted (grows : start.Grows tokens after) (fitted : Fitted start.nodes)
    (inside : start.offset ≤ Span.limit) : Fitted after.nodes ∧ after.offset ≤ Span.limit := by
  induction grows with
  | rest => exact ⟨fitted, inside⟩
  | token _ added step =>
    rw [Build.run_token] at added
    cases added
    exact ⟨step.1.push (fits_token step.2), min_le_right ..⟩
  | labelled _ known added step =>
    obtain ⟨spans, ran, there⟩ := Build.run_labelled _ _ known
    cases ran.symm.trans added
    exact ⟨step.1.push (step.1.fits_over there), step.2⟩

theorem Grows.fitted_of_empty (grows : empty.Grows tokens after) : Fitted after.nodes :=
  (grows.fitted (fun _ _ held => by simp [empty] at held) (Nat.zero_le _)).1

/-- Tokens that there is room for lie in a row. -/
theorem Grows.row (grows : empty.Grows tokens after)
    (short : room (tokens.map Token.text) ≤ Span.limit) : after.Row tokens := by
  induction grows with
  | rest => exact ⟨rfl, by simp, by simp, .nil⟩
  | token _ added step =>
    -- the tokens in front of the last one need less room
    refine (step ?_).token added short
    rw [List.map_append, room_append] at short
    omega
  | labelled _ known added step =>
    obtain ⟨spans, ran, _⟩ := Build.run_labelled _ _ known
    cases ran.symm.trans added
    exact (step short).labelled _

end Builder

namespace Fitted

variable {builder : Builder} {root below id : NodeId} {inner outer : Span}

theorem sound (fitted : Fitted builder.nodes) (root : NodeId) : (builder.finish root).Sound :=
  Tree.sound_of_ascending fun place inside child member =>
    (fitted ⟨place⟩ _ (Array.getElem?_eq_getElem inside)).ascending child member

/-- A node holds the places of all nodes that stand below it. -/
theorem covers (fitted : Fitted builder.nodes) (under : (builder.finish root).Under below id)
    (first : spanAt builder.nodes below = some inner)
    (second : spanAt builder.nodes id = some outer) : inner ≤ outer := by
  induction under generalizing outer with
  | refl =>
    cases first.symm.trans second
    exact le_rfl
  | tail _ step shorter =>
    obtain ⟨node, held, member⟩ := step
    obtain ⟨child, there⟩ := Tree.node_exists ((fitted.sound root).inside _ _ ⟨node, held, member⟩)
    rw [Tree.node_eq_ok_iff] at held there
    cases (spanAt_of_some held).symm.trans second
    have whole := (fitted _ node held).tight (List.ne_nil_of_mem member)
    exact (shorter (spanAt_of_some there)).trans (whole.1 ⟨_, member, spanAt_of_some there⟩)

end Fitted

namespace Builder

variable {builder : Builder} {ids : List NodeId} {texts : List String}

/-- What was built is well founded and well spanned, and it holds tokens of these texts in
order. -/
structure LaidOut (builder : Builder) (texts : List String) : Prop where
  /-- Every node lies where its children put it. -/
  fitted : Fitted builder.nodes
  /-- From whichever root, the tree is in range and does not run in circles. -/
  sound : ∀ root, (builder.finish root).Sound
  /-- A node holds the places of all nodes that stand below it. -/
  covers : ∀ root below id inner outer, (builder.finish root).Under below id →
    spanAt builder.nodes below = some inner → spanAt builder.nodes id = some outer → inner ≤ outer
  /-- It came about by adding single nodes, among them tokens of these texts. -/
  grown : ∃ tokens, empty.Grows tokens builder ∧ tokens.map Token.text = texts
  /-- The tokens are as long as their texts and lie one behind the other. -/
  tokens : ∀ tokens, empty.Grows tokens builder → tokens.map Token.text = texts →
    (∀ token ∈ tokens, token.Laid builder.nodes) ∧ tokens.Pairwise (Token.Before builder.nodes)

theorem Grows.laidOut {tokens : List Token} (grows : empty.Grows tokens builder)
    (read : tokens.map Token.text = texts) (short : room texts ≤ Span.limit) :
    builder.LaidOut texts := by
  have fitted := grows.fitted_of_empty
  refine ⟨fitted, fitted.sound, fun _ _ _ _ _ => fitted.covers, ⟨tokens, grows, read⟩, ?_⟩
  intro others grows read
  have row := grows.row (read ▸ short)
  exact ⟨row.laid, row.apart⟩

/-- Built trees are well founded and well spanned for as long as there are offsets left. Over nodes
that were built, the next construct succeeds, and so does the story that ends the building. -/
theorem History.well_laid (history : builder.History ids texts)
    (short : room texts ≤ Span.limit) :
    builder.LaidOut texts ∧ (∀ id ∈ ids, builder.Has id) ∧
      (∀ construct : Construct, (∀ arg ∈ construct.args, arg ∈ ids) →
        ∃ id after, builder.add construct = .ok (id, after)) ∧
      ∀ statements, (∀ id ∈ statements, id ∈ ids) →
        ∃ (root : NodeId) (after : Builder), builder.story statements = .ok (after.finish root) ∧
          after.Has root ∧ after.LaidOut texts := by
  obtain ⟨⟨tokens, grows, read⟩, has⟩ := history.grown
  refine ⟨grows.laidOut read short, has, fun construct known => ?_, fun statements known => ?_⟩
  · obtain ⟨id, after, _, ran, _⟩ := construct.gives fun arg member => has arg (known arg member)
    exact ⟨id, after, ran⟩
  · obtain ⟨root, after, others, ran, further, none, held⟩ :=
      Build.gives_start fun id member => has id (known id member)
    refine ⟨root, after, ?_, held, (grows.trans further).laidOut ?_ short⟩
    · rw [story, ran]
      rfl
    · rw [List.map_append, none, List.append_nil, read]

/-- A name of one character and two bytes, a type with nothing below it, a token without text, and
the two tokens below one node in the order opposite to the one they were built in. -/
def backwards : Builder where
  nodes := #[⟨.name, ⟨0, 2⟩, "é", []⟩, ⟨.types, .point 3, "int", []⟩, ⟨.name, .point 3, "", []⟩,
    ⟨.binaryExpression, ⟨0, 3⟩, "+", [⟨2⟩, ⟨0⟩]⟩]
  offset := 4

theorem backwards_laidOut : backwards.History [⟨0⟩, ⟨1⟩, ⟨2⟩, ⟨3⟩] ["é", ""] ∧
    room ["é", ""] ≤ Span.limit ∧ backwards.LaidOut ["é", ""] := by
  have named : Builder.History _ [⟨0⟩] ["é"] := History.empty.add (by simp [Construct.args])
    (show empty.add (.name "é") = .ok (⟨0⟩, _) from rfl)
  have typed : Builder.History _ [⟨0⟩, ⟨1⟩] ["é"] := named.add (by simp [Construct.args])
    (show Builder.add _ (.types "int" []) = .ok (⟨1⟩, _) from rfl)
  have blank : Builder.History _ [⟨0⟩, ⟨1⟩, ⟨2⟩] ["é", ""] := typed.add (by simp [Construct.args])
    (show Builder.add _ (.token .name "") = .ok (⟨2⟩, _) from rfl)
  have history : backwards.History [⟨0⟩, ⟨1⟩, ⟨2⟩, ⟨3⟩] ["é", ""] :=
    blank.add (by simp [Construct.args])
      (show Builder.add _ (.binary "+" ⟨2⟩ ⟨0⟩) = .ok (⟨3⟩, backwards) from rfl)
  have short : room ["é", ""] ≤ Span.limit := by decide
  exact ⟨history, short, (history.well_laid short).1⟩

end Builder
end ScopeTyping
