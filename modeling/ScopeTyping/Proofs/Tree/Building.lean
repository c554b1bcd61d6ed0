import ScopeTyping.Proofs.Program.Layout

/-! Builders that grow. Whatever a construct does comes down to nodes that are added one at a time,
each of them a token or a node over nodes that are there (`Builder.Grows`). A construct whose nodes
were all built before succeeds (`Construct.gives`), so a history of such constructs never stops. -/
namespace ScopeTyping

/-- The span of the node at a place. -/
def spanAt (nodes : Array Node) (id : NodeId) : Option Span := nodes[id.index]?.map Node.span

/-- A leaf that was laid out with source text. -/
structure Token where
  id : NodeId
  text : String

namespace Builder

/-- A node has been built. -/
def Has (builder : Builder) (id : NodeId) : Prop := id.index < builder.nodes.size

/-- From one builder to another one by single nodes, with the tokens among them in order. -/
inductive Grows (start : Builder) : List Token → Builder → Prop where
  | rest : Grows start [] start
  | token {tokens : List Token} {between after : Builder} {kind : Kind} {text : String}
      {id : NodeId}
      (grows : Grows start tokens between)
      (added : (Build.token kind text).run between = .ok (id, after)) :
      Grows start (tokens ++ [⟨id, text⟩]) after
  | labelled {tokens : List Token} {between after : Builder} {kind : Kind} {text : String}
      {children : List NodeId} {id : NodeId} (grows : Grows start tokens between)
      (known : ∀ child ∈ children, between.Has child)
      (added : (Build.labelled kind text children).run between = .ok (id, after)) :
      Grows start tokens after

end Builder

namespace Construct

/-- The nodes that a construct takes. -/
def args : Construct → List NodeId
  | .token .. | .name _ | .int _ | .float _ | .string _ | .boolean _ | .null | .time _ | .regexp _
  | .path _ | .dottedPath .. => []
  | .branch _ children | .labelled _ _ children => children
  | .list items => items
  | .map entries => entries.flatMap fun (key, value) => [key, value]
  | .indexedPath _ indices => indices
  | .binary _ left right => [left, right]
  | .unary _ operand => [operand]
  | .wrapped inner | .statement inner => [inner]
  | .assignment target value => [target, value]
  | .assign _ value | .absoluteExpression value => [value]
  | .returnStatement value => value.toList
  | .nestedBlock body | .elseBlock body | .catchBlock _ body | .finallyBlock body => body
  | .ifBlock condition body branches => condition :: (body ++ branches)
  | .elseifBlock condition body | .whileBlock condition body => condition :: body
  | .whenBlock subject body => subject :: body
  | .foreachBlock iterable _ body => iterable :: body
  | .tryBlock body handlers => body ++ handlers
  | .types _ args => args
  | .functionBlock _ params output body => params.map Prod.snd ++ (output.toList ++ body)

/-- The source texts that a construct lays out, in order. -/
def texts : Construct → List String
  | .token _ text | .name text | .time text => [text]
  | .int value => [Literal.ofInt value]
  | .float value => [Literal.ofBinary64 value]
  | .string text => [Literal.ofString text]
  | .boolean value => [Literal.ofBool value]
  | .null => ["null"]
  | .regexp pattern => [Literal.ofPattern pattern]
  | .path head | .indexedPath head _ | .assign head _ => [head]
  | .dottedPath head fields => head :: fields
  | .foreachBlock _ names _ => names
  | .catchBlock binding _ => binding.toList
  | .functionBlock called params _ _ => called :: params.map Prod.fst
  | .branch .. | .labelled .. | .list _ | .map _ | .binary .. | .unary .. | .wrapped _
  | .assignment .. | .returnStatement _ | .absoluteExpression _ | .statement _ | .nestedBlock _
  | .ifBlock .. | .elseifBlock .. | .elseBlock _ | .whileBlock .. | .whenBlock .. | .tryBlock ..
  | .finallyBlock _ | .types .. => []

end Construct

namespace Builder

/-- Constructs that were built one after another from nothing, each over nodes that earlier ones
answered with, and the source texts that they laid out. -/
inductive History : Builder → List NodeId → List String → Prop where
  | empty : History .empty [] []
  | add {builder after : Builder} {ids : List NodeId} {texts : List String}
      {construct : Construct} {id : NodeId} (history : History builder ids texts)
      (known : ∀ arg ∈ construct.args, arg ∈ ids)
      (added : builder.add construct = .ok (id, after)) :
      History after (ids ++ [id]) (texts ++ construct.texts)

variable {start between after : Builder} {tokens others : List Token}

theorem Grows.trans (first : start.Grows tokens between) (second : between.Grows others after) :
    start.Grows (tokens ++ others) after := by
  induction second with
  | rest => rwa [List.append_nil]
  | token _ added step =>
    rw [← List.append_assoc]
    exact .token step added
  | labelled _ known added step => exact .labelled step known added

end Builder

/-- What has been built stays there. -/
theorem Extends.has {builder after : Builder} {id : NodeId}
    (extended : Extends builder.nodes after.nodes) (has : builder.Has id) : after.Has id :=
  (Array.getElem?_eq_some_iff.1 (extended id.index _ (Array.getElem?_eq_getElem has))).1

namespace Build

variable {α β ι : Type} {build : Build α} {builder : Builder} {done : α → Builder → Prop}

/-- The second of two steps goes on from what the first one leaves. -/
theorem run_bind_of_ok {between : Builder} {value : α} {next : α → Build β}
    (ran : build.run builder = .ok (value, between)) :
    (build >>= next).run builder = (next value).run between := by
  rw [StateT.run_bind, ran]
  rfl

/-! ### Single nodes -/

theorem run_token (kind : Kind) (text : String) (builder : Builder) :
    (token kind text).run builder = .ok (⟨builder.nodes.size⟩,
      ⟨builder.nodes.push ⟨kind, Builder.tokenSpan builder.offset text, text, []⟩,
        min ((Builder.tokenSpan builder.offset text).stop + 1) Span.limit⟩) := rfl

theorem run_node {id : NodeId} {found : Node} (held : builder.nodes[id.index]? = some found) :
    (node id).run builder = .ok (found, builder) := by
  have known : builder.node id = .ok found := by simp [Builder.node, held]
  unfold node
  simp only [StateT.run_bind, StateT.run_get, pure_bind, known]
  rfl

theorem run_spans {children : List NodeId} (known : ∀ child ∈ children, builder.Has child) :
    ∃ spans, (children.mapM span).run builder =
        .ok (spans, builder) ∧ children.map (spanAt builder.nodes) = spans.map some := by
  induction children with
  | nil => exact ⟨[], rfl, rfl⟩
  | cons child rest step =>
    obtain ⟨spans, ran, there⟩ := step fun other member => known other (by simp [member])
    obtain ⟨found, held⟩ : ∃ found, builder.nodes[child.index]? = some found :=
      ⟨_, Array.getElem?_eq_getElem (known child (by simp))⟩
    refine ⟨found.span :: spans, ?_, by simp [spanAt, held, ← there]⟩
    have first : (span child).run builder = .ok (found.span, builder) :=
      run_bind_of_ok (run_node held)
    rw [List.mapM_cons, run_bind_of_ok first, run_bind_of_ok ran]
    rfl

/-- A node over nodes that are there gets the next place. -/
theorem run_labelled (kind : Kind) (text : String) {children : List NodeId}
    (known : ∀ child ∈ children, builder.Has child) :
    ∃ spans, (labelled kind text children).run builder = .ok (⟨builder.nodes.size⟩,
        ⟨builder.nodes.push ⟨kind, Builder.spanOver builder.offset spans, text, children⟩,
          builder.offset⟩) ∧ children.map (spanAt builder.nodes) = spans.map some := by
  obtain ⟨spans, ran, there⟩ := run_spans known
  refine ⟨spans, ?_, there⟩
  exact run_bind_of_ok ran

end Build

namespace Builder

variable {start after : Builder} {tokens : List Token}

/-- Nodes are only added. -/
theorem Grows.extends (grows : start.Grows tokens after) : Extends start.nodes after.nodes := by
  induction grows with
  | rest => exact .refl _
  | token _ added step =>
    cases added
    exact step.trans (.push _ _)
  | labelled _ known added step =>
    obtain ⟨spans, ran, _⟩ := Build.run_labelled _ _ known
    cases ran.symm.trans added
    exact step.trans (.push _ _)

end Builder

namespace Build

variable {α β ι : Type} {build : Build α} {builder : Builder} {done : α → Builder → Prop}
  {id inner : NodeId} {texts others : List String}

/-! ### Rules -/

/-- A step of building succeeds: it adds nodes to the ones that are there, among them tokens of
these texts, and what it made and the builder that it leaves are so related. -/
def Adds (build : Build α) (builder : Builder) (texts : List String)
    (done : α → Builder → Prop) : Prop :=
  ∃ value after tokens, build.run builder = .ok (value, after) ∧ builder.Grows tokens after ∧
    tokens.map Token.text = texts ∧ done value after

/-- A step of building succeeds and makes a node. -/
abbrev Gives (build : Build NodeId) (builder : Builder) (texts : List String) : Prop :=
  build.Adds builder texts fun id after => after.Has id

/-- A step of building succeeds and makes nodes. -/
abbrev GivesAll (build : Build (List NodeId)) (builder : Builder) (texts : List String) : Prop :=
  build.Adds builder texts fun ids after => ∀ id ∈ ids, after.Has id

theorem adds_pure {value : α} (holds : done value builder) :
    (pure value : Build α).Adds builder [] done :=
  ⟨value, builder, [], rfl, .rest, rfl, holds⟩

theorem Adds.bind {next : α → Build β} {result : β → Builder → Prop}
    (first : build.Adds builder texts done)
    (second : ∀ value after, Extends builder.nodes after.nodes → done value after →
      (next value).Adds after others result) :
    (build >>= next).Adds builder (texts ++ others) result := by
  obtain ⟨value, between, tokens, ran, grows, read, holds⟩ := first
  obtain ⟨answer, after, later, further, more, also, result⟩ :=
    second value between grows.extends holds
  refine ⟨answer, after, tokens ++ later, (run_bind_of_ok ran).trans further, grows.trans more, ?_,
    result⟩
  rw [List.map_append, read, also]

/-- A last step that lays out no text. -/
theorem Adds.close {next : α → Build β} {result : β → Builder → Prop}
    (first : build.Adds builder texts done)
    (second : ∀ value after, Extends builder.nodes after.nodes → done value after →
      (next value).Adds after [] result) : (build >>= next).Adds builder texts result := by
  have whole := first.bind second
  rwa [List.append_nil] at whole

theorem gives_token (kind : Kind) (text : String) : (token kind text).Gives builder [text] :=
  ⟨_, _, _, run_token kind text builder, .token .rest (run_token kind text builder), rfl, by
    simp [Builder.Has]⟩

theorem gives_labelled (kind : Kind) (text : String) {children : List NodeId}
    (known : ∀ child ∈ children, builder.Has child) :
    (labelled kind text children).Gives builder [] := by
  obtain ⟨spans, ran, _⟩ := run_labelled kind text known
  exact ⟨_, _, _, ran, .labelled .rest known ran, rfl, by simp [Builder.Has]⟩

theorem gives_branch (kind : Kind) {children : List NodeId}
    (known : ∀ child ∈ children, builder.Has child) : (branch kind children).Gives builder [] :=
  gives_labelled kind "" known

theorem adds_node (known : builder.Has id) :
    (node id).Adds builder [] fun _ after => after = builder :=
  ⟨_, builder, [], run_node (Array.getElem?_eq_getElem known), .rest, rfl, rfl⟩

/-- Items are built one after another. -/
theorem gives_mapM {items : List ι} {each : ι → Build NodeId} (texts : ι → List String)
    (step : ∀ item ∈ items, ∀ after, Extends builder.nodes after.nodes →
      (each item).Gives after (texts item)) :
    (items.mapM each).GivesAll builder (items.flatMap texts) := by
  induction items generalizing builder with
  | nil => exact adds_pure (by simp)
  | cons item rest others =>
    rw [List.mapM_cons, List.flatMap_cons]
    refine (step item (by simp) builder (.refl _)).bind fun id between more first => ?_
    refine (others fun other member after further => step other (by simp [member]) after
      (more.trans further)).close fun ids after further all => ?_
    exact adds_pure (List.forall_mem_cons.2 ⟨further.has first, all⟩)

/-- Items are built one after another without text. -/
theorem gives_silent {items : List ι} {each : ι → Build NodeId}
    (step : ∀ item ∈ items, ∀ after, Extends builder.nodes after.nodes →
      (each item).Gives after []) :
    (items.mapM each).GivesAll builder [] := by
  have silent : (items.flatMap fun _ => ([] : List String)) = [] := by simp
  rw [← silent]
  exact gives_mapM _ step

/-! ### Pieces of constructs -/

theorem gives_wrap (known : builder.Has inner) : (wrap inner).Gives builder [] := by
  refine (adds_node known).bind ?_
  rintro found after _ rfl
  split
  · exact adds_pure known
  · exact gives_branch _ (by simpa using known)

theorem gives_statement (known : builder.Has inner) : (statement inner).Gives builder [] := by
  have simple : (branch .rules [inner] >>= fun inner => branch .block [inner]).Gives builder [] :=
    (gives_branch _ (by simpa using known)).bind
      fun _ _ _ has => gives_branch _ (by simpa using has)
  refine (adds_node known).bind ?_
  rintro found after _ rfl
  split
  · exact simple
  · exact simple
  · exact simple
  · exact gives_branch _ (by simpa using known)

/-- Nodes that were all built are each wrapped or put into a slot. -/
theorem gives_all {each : NodeId → Build NodeId} {ids : List NodeId}
    (step : ∀ {builder : Builder} {id : NodeId}, builder.Has id → (each id).Gives builder [])
    (known : ∀ id ∈ ids, builder.Has id) : (ids.mapM each).GivesAll builder [] :=
  gives_silent fun id member _ more => step (more.has (known id member))

/-- Names are laid out one after another. -/
theorem gives_names (names : List String) :
    (names.mapM (token .name)).GivesAll builder names := by
  simpa using gives_mapM (fun name => [name]) fun name _ _ _ => gives_token .name name

theorem gives_nestedBlock {body : List NodeId} (known : ∀ id ∈ body, builder.Has id) :
    (nestedBlock body).Gives builder [] :=
  (gives_all gives_statement known).bind fun _ _ _ all => gives_branch _ all

theorem gives_start {statements : List NodeId} (known : ∀ id ∈ statements, builder.Has id) :
    (start statements).Gives builder [] :=
  (gives_all gives_statement known).bind fun _ _ _ all => gives_branch _ all

theorem gives_block (kind : Kind) {header body branches : List NodeId}
    (heads : ∀ id ∈ header, builder.Has id) (known : ∀ id ∈ body, builder.Has id)
    (others : ∀ id ∈ branches, builder.Has id) :
    (block kind header body branches).Gives builder [] := by
  refine (gives_nestedBlock known).bind fun body after more inner => gives_branch _ ?_
  exact List.forall_mem_append.2 ⟨fun id member => more.has (heads id member),
    List.forall_mem_cons.2 ⟨inner, fun id member => more.has (others id member)⟩⟩

theorem gives_headed (outer header : Kind) {condition : NodeId} {body branches : List NodeId}
    (asked : builder.Has condition) (known : ∀ id ∈ body, builder.Has id)
    (others : ∀ id ∈ branches, builder.Has id) :
    (headed outer header condition body branches).Gives builder [] := by
  refine (gives_wrap asked).bind fun condition first more has => ?_
  refine (gives_branch header (by simpa using has)).bind fun header second further head => ?_
  refine gives_block outer (by simpa using head) (fun id member => ?_) fun id member => ?_
  · exact further.has (more.has (known id member))
  · exact further.has (more.has (others id member))

theorem gives_parameter {name : String} {type : NodeId} (known : builder.Has type) :
    (parameter name type).Gives builder [name] :=
  (gives_token .name name).bind fun _ _ more has =>
    gives_branch _ (by simpa using ⟨has, more.has known⟩)

theorem gives_entry {key value : NodeId} (first : builder.Has key) (second : builder.Has value) :
    (entry key value).Gives builder [] := by
  refine (gives_wrap first).bind fun key between more has => ?_
  refine (gives_wrap (more.has second)).bind fun value after further also => ?_
  exact gives_branch _ (by simpa using ⟨further.has has, also⟩)

theorem gives_assignment {target value : NodeId} (left : builder.Has target)
    (right : builder.Has value) : (assignment target value).Gives builder [] := by
  refine (gives_wrap right).bind fun value between more has => ?_
  refine (gives_branch _ (by simpa using has)).bind fun fragment after further also => ?_
  exact gives_branch _ (by simpa using ⟨further.has (more.has left), also⟩)

/-- A path is built whose fragments are built one by one. -/
theorem gives_path {head : String} {items : List ι} {each : ι → Build NodeId}
    (texts : ι → List String)
    (step : ∀ item ∈ items, ∀ after, Extends builder.nodes after.nodes →
      (each item).Gives after (texts item)) :
    (path head items each).Gives builder (head :: items.flatMap texts) := by
  refine (gives_token .name head).bind fun name between more has => ?_
  refine (gives_mapM texts fun item member after further => step item member after
    (more.trans further)).close fun ids after further all => ?_
  exact gives_branch _ (List.forall_mem_cons.2 ⟨further.has has, all⟩)

theorem gives_indexedPath {head : String} {indices : List NodeId}
    (known : ∀ id ∈ indices, builder.Has id) :
    (indexedPath head indices).Gives builder [head] := by
  have silent : head :: (indices.flatMap fun _ => []) = [head] := by simp
  rw [← silent]
  refine gives_path _ fun id member after more => ?_
  exact (gives_wrap (more.has (known id member))).bind fun _ _ _ has =>
    gives_branch _ (by simpa using has)

theorem gives_dottedPath {head : String} {fields : List String} :
    (dottedPath head fields).Gives builder (head :: fields) := by
  have each : head :: (fields.flatMap fun field => [field]) = head :: fields := by simp
  rw [← each]
  refine gives_path _ fun field _ after _ => ?_
  exact (gives_token .name field).bind fun _ _ _ has => gives_branch _ (by simpa using has)

theorem gives_signature {name : String} {params : List (String × NodeId)} {output : Option NodeId}
    (known : ∀ id ∈ params.map Prod.snd, builder.Has id)
    (returns : ∀ id ∈ output.toList, builder.Has id) :
    (signature name params output).Gives builder (name :: params.map Prod.fst) := by
  refine (gives_token .name name).bind fun name first more has => ?_
  rw [List.map_eq_flatMap]
  refine (gives_mapM _ fun param member after further => ?_).close
    fun params second further all => ?_
  · exact gives_parameter (further.has (more.has (known param.2 (List.mem_map_of_mem member))))
  refine (gives_silent fun type member after furthest => ?_).bind
    fun outputs third furthest also => ?_
  · have has := furthest.has (further.has (more.has (returns type member)))
    exact gives_branch _ (by simpa using has)
  refine gives_branch _ (List.forall_mem_cons.2 ⟨furthest.has (further.has has), ?_⟩)
  exact List.forall_mem_append.2 ⟨fun id member => furthest.has (all id member), also⟩

end Build

open Build in
/-- A construct over nodes that were built before succeeds. -/
theorem Construct.gives {builder : Builder} (construct : Construct)
    (known : ∀ arg ∈ construct.args, builder.Has arg) :
    construct.build.Gives builder construct.texts := by
  cases construct with
  | token kind text => exact gives_token kind text
  | branch kind children => exact gives_branch kind known
  | labelled kind text children => exact gives_labelled kind text known
  | name text | int value | float value | string text | boolean value | null | time text
  | regexp pattern => exact gives_token _ _
  | list items => exact (gives_all gives_wrap known).bind fun _ _ _ all => gives_branch _ all
  | map entries =>
    refine (gives_silent fun entry member after more => ?_).bind fun _ _ _ all => gives_branch _ all
    have first := known entry.1 (List.mem_flatMap.2 ⟨entry, member, by simp⟩)
    have second := known entry.2 (List.mem_flatMap.2 ⟨entry, member, by simp⟩)
    exact gives_entry (more.has first) (more.has second)
  | path head => exact gives_indexedPath (by simp)
  | indexedPath head indices => exact gives_indexedPath known
  | dottedPath head fields => exact gives_dottedPath
  | binary op left right => exact gives_labelled _ _ known
  | unary op operand => exact gives_labelled _ _ known
  | wrapped inner => exact gives_wrap (known inner (by simp [args]))
  | assignment target value =>
    exact gives_assignment (known target (by simp [args])) (known value (by simp [args]))
  | assign target value =>
    refine (gives_indexedPath (by simp)).close fun target _ more has => ?_
    exact gives_assignment has (more.has (known value (by simp [args])))
  | returnStatement value =>
    exact (gives_all gives_wrap known).bind fun _ _ _ all => gives_branch _ all
  | absoluteExpression value =>
    exact (gives_wrap (known value (by simp [args]))).bind
      fun _ _ _ has => gives_branch _ (by simpa using has)
  | statement inner => exact gives_statement (known inner (by simp [args]))
  | nestedBlock body => exact gives_nestedBlock known
  | ifBlock condition body branches =>
    obtain ⟨asked, others⟩ := List.forall_mem_cons.1 known
    obtain ⟨held, others⟩ := List.forall_mem_append.1 others
    exact gives_headed _ _ asked held others
  | elseifBlock condition body | whileBlock condition body | whenBlock condition body =>
    obtain ⟨asked, held⟩ := List.forall_mem_cons.1 known
    exact gives_headed _ _ asked held (by simp)
  | elseBlock body | finallyBlock body => exact gives_block _ (by simp) known (by simp)
  | foreachBlock iterable names body =>
    obtain ⟨asked, held⟩ := List.forall_mem_cons.1 known
    refine (gives_wrap asked).bind fun iterable first more has => ?_
    refine (gives_names names).close fun names second further all => ?_
    refine (gives_branch .output all).bind fun output third beyond out => ?_
    refine (gives_branch .foreachStatement ?_).bind fun header fourth past head => ?_
    · simpa using ⟨beyond.has (further.has has), out⟩
    refine gives_block _ (by simpa using head) (fun id member => ?_) (by simp)
    exact past.has (beyond.has (further.has (more.has (held id member))))
  | tryBlock body handlers =>
    obtain ⟨held, others⟩ := List.forall_mem_append.1 known
    exact gives_block _ (by simp) held others
  | catchBlock binding body =>
    refine (gives_names binding.toList).close fun names first more all => ?_
    refine (gives_branch .catchStatement all).bind fun header second further head => ?_
    refine gives_block _ (by simpa using head) (fun id member => ?_) (by simp)
    exact further.has (more.has (known id member))
  | types base args => exact gives_labelled _ _ known
  | functionBlock called params output body =>
    obtain ⟨types, others⟩ := List.forall_mem_append.1 known
    obtain ⟨returns, held⟩ := List.forall_mem_append.1 others
    refine (gives_signature types returns).close fun header first more head => ?_
    exact gives_block _ (by simpa using head) (fun id member => more.has (held id member)) (by simp)

namespace Builder.History

variable {builder : Builder} {ids : List NodeId} {texts : List String}

/-- What a history answered with is there, and it came about by adding single nodes, the tokens of
its texts among them. -/
theorem grown (history : builder.History ids texts) :
    (∃ tokens, Builder.empty.Grows tokens builder ∧ tokens.map Token.text = texts) ∧
      ∀ id ∈ ids, builder.Has id := by
  induction history with
  | empty => exact ⟨⟨[], .rest, rfl⟩, by simp⟩
  | @add builder after ids texts construct id _ known added step =>
    obtain ⟨⟨tokens, grows, read⟩, has⟩ := step
    obtain ⟨answer, final, others, ran, further, also, held⟩ :=
      construct.gives fun arg member => has arg (known arg member)
    cases ran.symm.trans added
    refine ⟨⟨tokens ++ others, grows.trans further, ?_⟩, fun other member => ?_⟩
    · rw [List.map_append, read, also]
    rcases List.mem_append.1 member with earlier | last
    · exact further.extends.has (has other earlier)
    · rw [List.mem_singleton.1 last]
      exact held

end Builder.History
end ScopeTyping
