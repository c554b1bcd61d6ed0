import ScopeTyping.Proofs.Program.Layout

/-! The constructs lay out what they are meant to make: a step of building that takes nodes in the
places that are meant for them adds a node at which its piece stands (`Makes.lays`). So a tree that
tells a program is sound, places every node once and has the program standing at it
(`Tree.Tells.laid`). -/
namespace ScopeTyping

namespace Build

variable {nodes : Array Node} {rest : Multiset NodeId}

/-! ### Expressions -/

/-- Expressions get their wrappers. -/
theorem lays_wrapAll {items : List (Placed Expr)}
    (stand : ∀ item ∈ items, ExprAt nodes item.item item.id) :
    ((items.map Placed.id).mapM wrap).Lays nodes ((items.map Placed.id : List NodeId) + rest)
      fun ids after left =>
        List.Forall₂ (ExprAt after) (items.map fun item => item.item.wrap) ids ∧ left = ids + rest := by
  rw [List.mapM_map, List.map_eq_flatMap]
  simp only [List.forall₂_map_left_iff]
  refine lays_mapM (fun nodes (item : Placed Expr) id => ExprAt nodes item.item.wrap id)
    (fun extended stands => stands.mono extended) fun item member after rest extended => ?_
  exact lays_wrap ((stand item member).mono extended)

theorem lays_literal {kind : Kind} (text : String) (leaf : kind.isLiteral = true) :
    (token kind text).Lays nodes rest fun id after left =>
      ExprAt after (.literal kind text) id ∧ left = id ::ₘ rest :=
  (lays_token kind text).weaken fun _ _ _ _ ⟨shows, kept⟩ => ⟨.literal shows leaf, kept⟩

/-- The entry of a map is laid out. -/
theorem lays_entry {key value : Placed Expr} (first : ExprAt nodes key.item key.id)
    (second : ExprAt nodes value.item value.id) :
    (entry key.id value.id).Lays nodes (([key.id, value.id] : List NodeId) + rest)
      fun id after left => EntryAt after (ExprAt after) (key.item.wrap, value.item.wrap) id ∧
        left = id ::ₘ rest := by
  rw [free_cons, free_cons, free_nil]
  refine (lays_wrap first).bind ?_
  rintro keyId between left extended ⟨first, rfl⟩
  rw [Multiset.cons_swap]
  refine (lays_wrap (second.mono extended)).bind ?_
  rintro valueId after left further ⟨second, rfl⟩
  rw [← free_pair]
  refine (lays_labelled .mapItem "" [keyId, valueId]).weaken ?_
  rintro id last left furthest ⟨shows, kept⟩
  exact ⟨.mk shows ((first.mono further).mono furthest) (second.mono furthest), kept⟩

/-- A path is laid out whose fragments are laid out one by one. -/
theorem lays_path {ι : Type} {head : String} {items : List ι} {each : ι → Build NodeId}
    {takes : ι → List NodeId} {key : ι → Key Expr}
    (step : ∀ item ∈ items, ∀ after rest, Extends nodes after →
      (each item).Lays after (takes item + rest) fun id after left =>
        KeyAt after (ExprAt after) (key item) id ∧ left = id ::ₘ rest) :
    (path head items each).Lays nodes ((items.flatMap takes : List NodeId) + rest)
      fun id after left => ExprAt after (.path head (items.map key)) id ∧ left = id ::ₘ rest := by
  refine (lays_token .name head).bind ?_
  rintro name between left extended ⟨named, rfl⟩
  rw [← Multiset.add_cons]
  refine (lays_mapM (fun nodes item id => KeyAt nodes (ExprAt nodes) (key item) id) ?_
    fun item member after rest further => step item member after rest (extended.trans further)).bind ?_
  · exact fun extended key => (key.mono extended).imp fun _ _ stands => stands.mono extended
  rintro ids after left further ⟨inner, rfl⟩
  rw [Multiset.add_cons, ← free_cons]
  refine (lays_labelled .path "" (name :: ids)).weaken ?_
  rintro id last left furthest ⟨shows, kept⟩
  refine ⟨.path shows ((named.mono further).mono furthest) ?_, kept⟩
  exact List.forall₂_map_left_iff.2
    (inner.imp fun _ _ key => (key.mono furthest).imp fun _ _ stands => stands.mono furthest)

theorem path_map {ι κ : Type} (head : String) (items : List ι) (f : ι → κ)
    (fragment : κ → Build NodeId) :
    path head (items.map f) fragment = path head items fun item => fragment (f item) := by
  unfold path
  simp only [List.mapM_map]
  rfl

theorem lays_indexedPath (head : String) (indices : List (Placed Expr))
    (stand : ∀ index ∈ indices, ExprAt nodes index.item index.id) :
    (indexedPath head (indices.map Placed.id)).Lays nodes
      ((indices.map Placed.id : List NodeId) + rest) fun id after left =>
        ExprAt after (.path head (indices.map fun index => .index index.item.wrap)) id ∧
          left = id ::ₘ rest := by
  rw [indexedPath, path_map, List.map_eq_flatMap]
  refine lays_path fun index member after rest extended => ?_
  refine (lays_wrap ((stand index member).mono extended)).bind ?_
  rintro inner between _ first ⟨typed, rfl⟩
  refine (lays_labelled .pathFragment "" [inner]).weaken ?_
  rintro id last _ second ⟨shows, kept⟩
  exact ⟨.index shows (typed.mono second), kept⟩

theorem lays_dottedPath (head : String) (fields : List String) :
    (dottedPath head fields).Lays nodes rest fun id after left =>
      ExprAt after (.path head (fields.map .field)) id ∧ left = id ::ₘ rest := by
  have lays : (dottedPath head fields).Lays nodes
      ((fields.flatMap fun _ => [] : List NodeId) + rest) fun id after left =>
        ExprAt after (.path head (fields.map .field)) id ∧ left = id ::ₘ rest := by
    refine lays_path fun field _ after rest _ => ?_
    rw [free_nil]
    refine (lays_token .name field).bind ?_
    rintro inner between _ first ⟨named, rfl⟩
    refine (lays_labelled .pathFragment "" [inner]).weaken ?_
    rintro id last _ second ⟨shows, kept⟩
    exact ⟨.field shows (NameAt.mono second named), kept⟩
  have nothing : fields.flatMap (fun _ => ([] : List NodeId)) = [] := by simp
  rwa [nothing, free_nil] at lays

theorem lays_list {items : List (Placed Expr)}
    (stand : ∀ item ∈ items, ExprAt nodes item.item item.id) :
    (Construct.list (items.map Placed.id)).build.Lays nodes
      ((items.map Placed.id : List NodeId) + rest) fun id after left =>
        ExprAt after (.list (items.map fun item => item.item.wrap)) id ∧ left = id ::ₘ rest := by
  refine (lays_wrapAll stand).bind ?_
  rintro ids between _ first ⟨inner, rfl⟩
  refine (lays_labelled .list "" ids).weaken ?_
  rintro id last _ second ⟨shows, kept⟩
  exact ⟨.list shows (inner.imp fun _ _ stands => stands.mono second), kept⟩

theorem lays_map {entries : List (Placed Expr × Placed Expr)}
    (stand : ∀ entry ∈ entries, ExprAt nodes entry.1.item entry.1.id ∧
      ExprAt nodes entry.2.item entry.2.id) :
    (Construct.map (entries.map fun entry => (entry.1.id, entry.2.id))).build.Lays nodes
      ((entries.flatMap fun entry => [entry.1.id, entry.2.id] : List NodeId) + rest)
      fun id after left => ExprAt after
        (.map (entries.map fun entry => (entry.1.item.wrap, entry.2.item.wrap))) id ∧
          left = id ::ₘ rest := by
  rw [Construct.build, List.mapM_map]
  refine (lays_mapM (fun nodes entry id =>
    EntryAt nodes (ExprAt nodes) (entry.1.item.wrap, entry.2.item.wrap) id) ?_
    fun entry member after rest extended => ?_).bind ?_
  · exact fun extended entry => (entry.mono extended).imp fun _ _ stands => stands.mono extended
  · obtain ⟨first, second⟩ := stand entry member
    exact lays_entry (first.mono extended) (second.mono extended)
  rintro ids between _ first ⟨inner, rfl⟩
  refine (lays_labelled .map "" ids).weaken ?_
  rintro id last _ second ⟨shows, kept⟩
  refine ⟨.map shows (List.forall₂_map_left_iff.2 (inner.imp fun _ _ entry => ?_)), kept⟩
  exact (entry.mono second).imp fun _ _ stands => stands.mono second

theorem lays_binary (op : String) {left right : Placed Expr}
    (first : ExprAt nodes left.item left.id) (second : ExprAt nodes right.item right.id) :
    (Construct.binary op left.id right.id).build.Lays nodes
      (([left.id, right.id] : List NodeId) + rest) fun id after free =>
        ExprAt after (.binary op left.item right.item) id ∧ free = id ::ₘ rest := by
  refine (lays_labelled .binaryExpression op [left.id, right.id]).weaken ?_
  rintro id last _ extended ⟨shows, kept⟩
  exact ⟨.binary shows (first.mono extended) (second.mono extended), kept⟩

theorem lays_unary (op : String) {operand : Placed Expr}
    (stands : ExprAt nodes operand.item operand.id) :
    (Construct.unary op operand.id).build.Lays nodes (([operand.id] : List NodeId) + rest)
      fun id after left => ExprAt after (.unary op operand.item) id ∧ left = id ::ₘ rest := by
  refine (lays_labelled .unaryExpression op [operand.id]).weaken ?_
  rintro id last _ extended ⟨shows, kept⟩
  exact ⟨.unary shows (stands.mono extended), kept⟩

/-! ### Written types -/

theorem lays_types (base : String) {args : List (Placed Written)}
    (stand : ∀ arg ∈ args, WrittenAt nodes arg.item arg.id) :
    (Construct.types base (args.map Placed.id)).build.Lays nodes
      ((args.map Placed.id : List NodeId) + rest) fun id after left =>
        WrittenAt after (.mk base (args.map Placed.item)) id ∧ left = id ::ₘ rest := by
  refine (lays_labelled .types base (args.map Placed.id)).weaken ?_
  rintro id last _ extended ⟨shows, kept⟩
  refine ⟨.mk shows ?_, kept⟩
  rw [List.forall₂_map_left_iff, List.forall₂_map_right_iff]
  exact List.forall₂_same.2 fun arg member => (stand arg member).mono extended

/-! ### Bodies -/

/-- A body stands at a node. -/
def BodyAt (nodes : Array Node) (parts : List Part) (id : NodeId) : Prop :=
  ∃ slots, Shows nodes id .nestedBlock "" slots ∧ List.Forall₂ (PartAt nodes) parts slots

theorem BodyAt.mono {nodes more : Array Node} (extended : Extends nodes more) {parts : List Part}
    {id : NodeId} (stands : BodyAt nodes parts id) : BodyAt more parts id := by
  obtain ⟨slots, shows, inner⟩ := stands
  exact ⟨slots, shows.mono extended, inner.imp fun _ _ stands => stands.mono extended⟩

theorem BodyAt.block {nodes : Array Node} {parts : List Part} {id : NodeId}
    (stands : BodyAt nodes parts id) : PartAt nodes (.scoped .block parts) id := by
  obtain ⟨slots, shows, inner⟩ := stands
  exact .block shows inner

section Bodies
variable {body : List (Placed Part)} (stand : ∀ part ∈ body, PartAt nodes part.item part.id)
include stand

/-- Statements get their slots. -/
theorem lays_slots : ((body.map Placed.id).mapM statement).Lays nodes
    ((body.map Placed.id : List NodeId) + rest) fun ids after left =>
      List.Forall₂ (PartAt after) (body.map Placed.item) ids ∧ left = ids + rest := by
  rw [List.mapM_map, List.map_eq_flatMap]
  simp only [List.forall₂_map_left_iff]
  refine lays_mapM (fun nodes (part : Placed Part) id => PartAt nodes part.item id)
    (fun extended stands => stands.mono extended) fun part member after rest extended => ?_
  exact lays_statement ((stand part member).mono extended)

theorem lays_body : (nestedBlock (body.map Placed.id)).Lays nodes
    ((body.map Placed.id : List NodeId) + rest) fun id after left =>
      BodyAt after (body.map Placed.item) id ∧ left = id ::ₘ rest := by
  refine (lays_slots stand).bind ?_
  rintro slots between left _ ⟨inner, rfl⟩
  refine (lays_labelled .nestedBlock "" slots).weaken ?_
  rintro id after left extended ⟨shows, kept⟩
  exact ⟨⟨slots, shows, inner.imp fun _ _ stands => stands.mono extended⟩, kept⟩

/-- A block takes the place of its header, its statements and what stands behind its body. -/
theorem lays_block (kind : Kind) (header branches : List NodeId) (rest : Multiset NodeId) :
    (block kind header (body.map Placed.id) branches).Lays nodes
      (header + ((body.map Placed.id : List NodeId) + (branches + rest))) fun id after left =>
        (∃ bodyId, Shows after id kind "" (header ++ bodyId :: branches) ∧
          BodyAt after (body.map Placed.item) bodyId) ∧ left = id ::ₘ rest := by
  rw [add_left_comm]
  refine (lays_body stand).bind ?_
  rintro bodyId between _ _ ⟨held, rfl⟩
  have account : ((header ++ bodyId :: branches : List NodeId) + rest : Multiset NodeId) =
      bodyId ::ₘ (header + (branches + rest)) := by
    rw [← Multiset.coe_add, ← Multiset.cons_coe, Multiset.add_cons, Multiset.cons_add, add_assoc]
  rw [← account]
  refine (lays_labelled kind "" (header ++ bodyId :: branches)).weaken ?_
  rintro id last _ extended ⟨shows, kept⟩
  exact ⟨⟨bodyId, shows, held.mono extended⟩, kept⟩

/-- A construct is laid out whose header is one expression. -/
theorem lays_headed (header : Header) {kind : Kind} {condition : Placed Expr} {branches : List NodeId}
    {others : List Part} (opener : header.opener? = some (kind, condition.item.core))
    (typed : ExprAt nodes condition.item condition.id)
    (beside : List.Forall₂ (PartAt nodes) others branches)
    (branched : header.branches = false → others = []) :
    (headed header.kind kind condition.id (body.map Placed.id) branches).Lays nodes
      (condition.id ::ₘ ((body.map Placed.id : List NodeId) + (branches + rest))) fun id after left =>
        PartAt after (.shared header (body.map Placed.item) others) id ∧ left = id ::ₘ rest := by
  refine (lays_wrap typed).bind ?_
  rintro inner between left first ⟨typed, rfl⟩
  refine (lays_labelled kind "" [inner]).bind ?_
  rintro head afterHead left second ⟨shows, rfl⟩
  have reached := first.trans second
  rw [← free_single]
  refine (lays_block (fun part member => (stand part member).mono reached) header.kind [head]
    branches rest).weaken ?_
  rintro id last left third ⟨⟨bodyId, whole, slots, held, inside⟩, kept⟩
  refine ⟨.shared whole (.opener opener (shows.mono third) ((typed.mono second).mono third))
    branched held inside ?_, kept⟩
  exact beside.imp fun _ _ stands => (stands.mono reached).mono third

/-- A construct is laid out whose header is one expression and that has no branches. -/
theorem lays_headedAlone (header : Header) {kind : Kind} {condition : Placed Expr}
    (opener : header.opener? = some (kind, condition.item.core))
    (typed : ExprAt nodes condition.item condition.id) :
    (headed header.kind kind condition.id (body.map Placed.id) []).Lays nodes
      (condition.id ::ₘ ((body.map Placed.id : List NodeId) + rest)) fun id after left =>
        PartAt after (.shared header (body.map Placed.item) []) id ∧ left = id ::ₘ rest := by
  simpa only [free_nil] using lays_headed stand header opener typed .nil fun _ => rfl

/-- A construct is laid out that has nothing in front of its body. -/
theorem lays_silent (header : Header) {branches : List NodeId} {others : List Part}
    (silent : header.opener? = none) (beside : List.Forall₂ (PartAt nodes) others branches)
    (branched : header.branches = false → others = []) :
    (block header.kind [] (body.map Placed.id) branches).Lays nodes
      ((body.map Placed.id : List NodeId) + (branches + rest)) fun id after left =>
        PartAt after (.shared header (body.map Placed.item) others) id ∧ left = id ::ₘ rest := by
  rw [← free_nil ((body.map Placed.id : List NodeId) + (branches + rest))]
  refine (lays_block stand header.kind [] branches rest).weaken ?_
  rintro id last left extended ⟨⟨bodyId, whole, slots, held, inside⟩, kept⟩
  exact ⟨.shared whole (.silent silent) branched held inside
    (beside.imp fun _ _ stands => stands.mono extended), kept⟩

/-- A construct is laid out that is a body and nothing else. -/
theorem lays_silentAlone (header : Header) (silent : header.opener? = none) :
    (block header.kind [] (body.map Placed.id) []).Lays nodes
      ((body.map Placed.id : List NodeId) + rest) fun id after left =>
        PartAt after (.shared header (body.map Placed.item) []) id ∧ left = id ::ₘ rest := by
  simpa only [free_nil] using lays_silent stand header silent .nil fun _ => rfl

end Bodies

/-- Names are leaves. -/
theorem lays_names (names : List String) :
    (names.mapM (token .name)).Lays nodes rest fun ids after left =>
      List.Forall₂ (NameAt after) names ids ∧ left = ids + rest := by
  have lays : (names.mapM (token .name)).Lays nodes
      ((names.flatMap fun _ => [] : List NodeId) + rest) fun ids after left =>
        List.Forall₂ (NameAt after) names ids ∧ left = ids + rest := by
    refine lays_mapM NameAt (fun extended named => NameAt.mono extended named) fun name _ after rest _ => ?_
    rw [free_nil]
    exact lays_token .name name
  have nothing : names.flatMap (fun _ => ([] : List NodeId)) = [] := by simp
  rwa [nothing, free_nil] at lays

/-! ### Statements without a body -/

theorem lays_assignment {target : NodeId} {head : String} {keys : List (Key Expr)}
    {value : Placed Expr} (left : ExprAt nodes (.path head keys) target)
    (right : ExprAt nodes value.item value.id) :
    (assignment target value.id).Lays nodes (value.id ::ₘ target ::ₘ rest) fun id after left =>
      PartAt after (.assignment head keys value.item.core) id ∧ left = id ::ₘ rest := by
  refine (lays_wrap right).bind ?_
  rintro inner between _ first ⟨typed, rfl⟩
  refine (lays_labelled .assignmentFragment "" [inner]).bind ?_
  rintro fragment after _ second ⟨shows, rfl⟩
  rw [← free_pair]
  refine (lays_labelled .assignment "" [target, fragment]).weaken ?_
  rintro id last _ third ⟨whole, kept⟩
  exact ⟨.assignment whole (((left.mono first).mono second).mono third) (shows.mono third)
    ((typed.mono second).mono third), kept⟩

theorem lays_assign (head : String) {value : Placed Expr}
    (stands : ExprAt nodes value.item value.id) :
    (Construct.assign head value.id).build.Lays nodes (value.id ::ₘ rest) fun id after left =>
      PartAt after (.assignment head [] value.item.core) id ∧ left = id ::ₘ rest := by
  rw [← free_nil (value.id ::ₘ rest)]
  refine (lays_indexedPath head [] (by simp)).bind ?_
  rintro target between _ extended ⟨left, rfl⟩
  rw [Multiset.cons_swap]
  exact lays_assignment left (stands.mono extended)

theorem lays_returnStatement {value : Option (Placed Expr)}
    (stand : ∀ item ∈ value.toList, ExprAt nodes item.item item.id) :
    (Construct.returnStatement (value.map Placed.id)).build.Lays nodes
      ((value.toList.map Placed.id : List NodeId) + rest) fun id after left =>
        PartAt after (.returned (value.map fun value => value.item.core)) id ∧
          left = id ::ₘ rest := by
  have same : (value.map Placed.id).toList = value.toList.map Placed.id := by cases value <;> rfl
  rw [Construct.build, same]
  refine (lays_wrapAll stand).bind ?_
  rintro ids between _ first ⟨inner, rfl⟩
  refine (lays_labelled .returnStatement "" ids).weaken ?_
  rintro id last _ second ⟨shows, kept⟩
  refine ⟨.returned shows ?_, kept⟩
  cases value with
  | none => exact inner.imp fun _ _ stands => stands.mono second
  | some value => exact inner.imp fun _ _ stands => stands.mono second

theorem lays_absoluteExpression {value : Placed Expr}
    (stands : ExprAt nodes value.item value.id) :
    (Construct.absoluteExpression value.id).build.Lays nodes (value.id ::ₘ rest)
      fun id after left => PartAt after (.evaluated value.item.core) id ∧ left = id ::ₘ rest := by
  refine (lays_wrap stands).bind ?_
  rintro inner between _ first ⟨typed, rfl⟩
  rw [← free_single]
  refine (lays_labelled .absoluteExpression "" [inner]).weaken ?_
  rintro id last _ second ⟨shows, kept⟩
  exact ⟨.evaluated shows (typed.mono second), kept⟩

/-! ### Headers of scopes -/

theorem lays_parameter {name : String} {type : Placed Written}
    (typed : WrittenAt nodes type.item type.id) :
    (parameter name type.id).Lays nodes (type.id ::ₘ rest) fun id after left =>
      ParameterAt after (name, type.item) id ∧ left = id ::ₘ rest := by
  refine (lays_token .name name).bind ?_
  rintro nameId between _ first ⟨named, rfl⟩
  rw [Multiset.cons_swap, ← free_pair]
  refine (lays_labelled .typedArgument "" [nameId, type.id]).weaken ?_
  rintro id last _ second ⟨shows, kept⟩
  exact ⟨.mk shows (Shows.mono second named) ((typed.mono first).mono second), kept⟩

theorem lays_output {type : Placed Written} (typed : WrittenAt nodes type.item type.id) :
    (branch .functionOutput [type.id]).Lays nodes (type.id ::ₘ rest) fun id after left =>
      OutputAt after type.item id ∧ left = id ::ₘ rest := by
  refine (lays_labelled .functionOutput "" [type.id]).weaken ?_
  rintro id last _ extended ⟨shows, kept⟩
  exact ⟨.mk shows (typed.mono extended), kept⟩

theorem lays_signature {name : String} {params : List (String × Placed Written)}
    {output : Option (Placed Written)}
    (typed : ∀ param ∈ params, WrittenAt nodes param.2.item param.2.id)
    (returns : ∀ type ∈ output, WrittenAt nodes type.item type.id) :
    (signature name (params.map fun (param, type) => (param, type.id)) (output.map Placed.id)).Lays
      nodes ((params.map (fun param => param.2.id) : List NodeId) +
        ((output.toList.map Placed.id : List NodeId) + rest)) fun id after left =>
      OpeningAt after (.functionBlock name (params.map fun (param, type) => (param, type.item))
        (output.map Placed.item)) id ∧ left = id ::ₘ rest := by
  refine (lays_token .name name).bind ?_
  rintro nameId between _ first ⟨named, rfl⟩
  rw [← Multiset.add_cons, ← Multiset.add_cons, List.mapM_map, List.map_eq_flatMap]
  refine (lays_mapM (fun nodes (param : String × Placed Written) id =>
    ParameterAt nodes (param.1, param.2.item) id) (fun extended stands => stands.mono extended)
    fun param member after rest further => ?_).bind ?_
  · exact lays_parameter (((typed param member).mono first).mono further)
  rintro paramIds afterParams _ second ⟨parameters, rfl⟩
  have outputs : (output.map Placed.id).toList = output.toList.map Placed.id := by cases output <;> rfl
  rw [outputs, List.mapM_map, List.map_eq_flatMap, add_left_comm]
  refine (lays_mapM (fun nodes (type : Placed Written) id =>
    OutputAt nodes type.item id) (fun extended stands => stands.mono extended)
    fun type member after rest further => ?_).bind ?_
  · exact lays_output ((((returns type (Option.mem_toList.1 member)).mono first).mono second).mono further)
  rintro outputIds afterOutputs _ third ⟨returned, rfl⟩
  have account : ((nameId :: (paramIds ++ outputIds) : List NodeId) + rest : Multiset NodeId) =
      outputIds + (paramIds + nameId ::ₘ rest) := by
    rw [free_cons, ← Multiset.coe_add, Multiset.add_cons, Multiset.add_cons, add_assoc, add_left_comm]
  rw [← account]
  refine (lays_labelled .functionStatement "" (nameId :: (paramIds ++ outputIds))).weaken ?_
  rintro id last _ fourth ⟨shows, kept⟩
  refine ⟨.functionBlock shows (Shows.mono ((second.trans third).trans fourth) named) ?_ ?_, kept⟩
  · exact List.forall₂_map_left_iff.2
      (parameters.imp fun _ _ stands => stands.mono (third.trans fourth))
  · have same : (output.map Placed.item).toList = output.toList.map Placed.item := by cases output <;> rfl
    rw [same]
    exact List.forall₂_map_left_iff.2 (returned.imp fun _ _ stands => stands.mono fourth)

/-! ### Constructs with a scope of their own -/

section Scoped
variable {body : List (Placed Part)} (stand : ∀ part ∈ body, PartAt nodes part.item part.id)
include stand

/-- A construct is laid out that has a header of its own and a body. -/
theorem lays_opening {opening : Opening} {kind : Kind} {header : NodeId}
    (headed : opening.headed? = some kind) (opened : OpeningAt nodes opening header) :
    (block kind [header] (body.map Placed.id) []).Lays nodes
      (header ::ₘ ((body.map Placed.id : List NodeId) + rest)) fun id after left =>
        PartAt after (.scoped opening (body.map Placed.item)) id ∧ left = id ::ₘ rest := by
  have lays := lays_block stand kind [header] [] rest
  rw [free_single, free_nil] at lays
  refine lays.weaken ?_
  rintro id last _ extended ⟨⟨bodyId, shows, slots, held, inner⟩, kept⟩
  exact ⟨.opening headed shows (opened.mono extended) held inner, kept⟩

theorem lays_foreach {iterable : Placed Expr} {names : List String}
    (typed : ExprAt nodes iterable.item iterable.id) :
    (Construct.foreachBlock iterable.id names (body.map Placed.id)).build.Lays nodes
      (iterable.id ::ₘ ((body.map Placed.id : List NodeId) + rest)) fun id after left =>
        PartAt after (.scoped (.foreachBlock iterable.item.core names) (body.map Placed.item)) id ∧
          left = id ::ₘ rest := by
  refine (lays_wrap typed).bind ?_
  rintro inner afterIterable _ first ⟨typed, rfl⟩
  refine (lays_names names).bind ?_
  rintro ids afterNames _ second ⟨named, rfl⟩
  refine (lays_labelled .output "" ids).bind ?_
  rintro output afterOutput _ third ⟨outputs, rfl⟩
  rw [← free_pair]
  refine (lays_labelled .foreachStatement "" [inner, output]).bind ?_
  rintro header afterHeader _ fourth ⟨shows, rfl⟩
  refine lays_opening (fun part member => ?_) rfl (.foreachBlock shows
    ((typed.mono second).mono (third.trans fourth)) (outputs.mono fourth)
    (named.imp fun _ _ named => NameAt.mono (third.trans fourth) named))
  exact (stand part member).mono (first.trans (second.trans (third.trans fourth)))

theorem lays_function {name : String} {params : List (String × Placed Written)}
    {output : Option (Placed Written)}
    (typed : ∀ param ∈ params, WrittenAt nodes param.2.item param.2.id)
    (returns : ∀ type ∈ output, WrittenAt nodes type.item type.id) :
    (Construct.functionBlock name (params.map fun (param, type) => (param, type.id))
      (output.map Placed.id) (body.map Placed.id)).build.Lays nodes
      ((params.map (fun param => param.2.id) : List NodeId) +
        ((output.toList.map Placed.id : List NodeId) + ((body.map Placed.id : List NodeId) + rest)))
      fun id after left => PartAt after (.scoped (.functionBlock name
        (params.map fun (param, type) => (param, type.item)) (output.map Placed.item))
        (body.map Placed.item)) id ∧ left = id ::ₘ rest := by
  refine (lays_signature typed returns).bind ?_
  rintro header between _ extended ⟨opened, rfl⟩
  exact lays_opening (fun part member => (stand part member).mono extended) rfl opened

theorem lays_catch {binding : Option String} :
    (Construct.catchBlock binding (body.map Placed.id)).build.Lays nodes
      ((body.map Placed.id : List NodeId) + rest) fun id after left =>
        PartAt after (.scoped (.catchBlock binding) (body.map Placed.item)) id ∧
          left = id ::ₘ rest := by
  refine (lays_names binding.toList).bind ?_
  rintro ids afterNames _ first ⟨named, rfl⟩
  refine (lays_labelled .catchStatement "" ids).bind ?_
  rintro header afterHeader _ second ⟨caught, rfl⟩
  have inside : ∀ part ∈ body, PartAt afterHeader part.item part.id := fun part member =>
    ((stand part member).mono first).mono second
  have lays := lays_block inside .catchBlock [header] [] rest
  rw [free_single, free_nil] at lays
  refine lays.weaken ?_
  rintro id last _ third ⟨⟨bodyId, shows, held⟩, kept⟩
  exact ⟨.catchBlock shows (caught.mono third)
    (named.imp fun _ _ named => NameAt.mono (second.trans third) named) held.block, kept⟩

theorem lays_finally :
    (Construct.finallyBlock (body.map Placed.id)).build.Lays nodes
      ((body.map Placed.id : List NodeId) + rest) fun id after left =>
        PartAt after (.scoped .finallyBlock (body.map Placed.item)) id ∧ left = id ::ₘ rest := by
  have lays := lays_block stand .finallyBlock [] [] rest
  rw [free_nil, free_nil] at lays
  refine lays.weaken ?_
  rintro id last _ _ ⟨⟨bodyId, shows, held⟩, kept⟩
  exact ⟨.finallyBlock shows held.block, kept⟩

end Scoped

end Build

/-! ### Pieces -/

/-- A piece stands at a node. -/
def PieceAt (nodes : Array Node) : Piece → NodeId → Prop
  | .expr expr => ExprAt nodes expr
  | .types written => WrittenAt nodes written
  | .statement part | .branch part | .handler part => PartAt nodes part

theorem PieceAt.mono {nodes more : Array Node} (extended : Extends nodes more) {piece : Piece}
    {id : NodeId} (stands : PieceAt nodes piece id) : PieceAt more piece id := by
  cases piece with
  | expr expr => exact ExprAt.mono extended stands
  | types written => exact WrittenAt.mono extended stands
  | statement part => exact PartAt.mono extended stands
  | branch part => exact PartAt.mono extended stands
  | handler part => exact PartAt.mono extended stands

section Pieces
variable {nodes : Array Node} {rest : Multiset NodeId} {α : Type} {form : α → Piece}
  {items : List (Placed α)}

theorem map_id_as (form : α → Piece) (items : List (Placed α)) :
    (items.map (Placed.as form)).map Placed.id = items.map Placed.id := by
  rw [List.map_map]
  rfl

theorem map_id_entries (entries : List (Placed Expr × Placed Expr)) :
    (entries.flatMap fun entry => [entry.1.as Piece.expr, entry.2.as Piece.expr]).map Placed.id =
      entries.flatMap fun entry => [entry.1.id, entry.2.id] := by
  rw [List.map_flatMap]
  rfl

/-- What is so of pieces is so of what they are forms of. -/
theorem forall_as (stand : ∀ placed ∈ items.map (Placed.as form), PieceAt nodes placed.item placed.id) :
    ∀ placed ∈ items, PieceAt nodes (form placed.item) placed.id :=
  fun placed member => stand (placed.as form) (List.mem_map_of_mem member)

theorem forall_entries {entries : List (Placed Expr × Placed Expr)}
    (stand : ∀ placed ∈ entries.flatMap fun entry => [entry.1.as Piece.expr, entry.2.as Piece.expr],
      PieceAt nodes placed.item placed.id) :
    ∀ entry ∈ entries, ExprAt nodes entry.1.item entry.1.id ∧
      ExprAt nodes entry.2.item entry.2.id := by
  intro entry member
  refine ⟨stand (entry.1.as .expr) ?_, stand (entry.2.as .expr) ?_⟩
  · exact List.mem_flatMap.2 ⟨entry, member, by simp⟩
  · exact List.mem_flatMap.2 ⟨entry, member, by simp⟩

/-- Parts stand at their nodes, side by side. -/
theorem forall₂_placed {parts : List (Placed Part)}
    (stand : ∀ part ∈ parts, PartAt nodes part.item part.id) :
    List.Forall₂ (PartAt nodes) (parts.map Placed.item) (parts.map Placed.id) := by
  rw [List.forall₂_map_left_iff, List.forall₂_map_right_iff]
  exact List.forall₂_same.2 stand

open Build in
/-- A step of building that takes nodes at which its pieces stand adds a node at which the piece
stands that it makes. -/
theorem Construct.Makes.lays {construct : Construct} {taken : List (Placed Piece)} {piece : Piece}
    (makes : construct.Makes taken piece)
    (stand : ∀ placed ∈ taken, PieceAt nodes placed.item placed.id) :
    construct.build.Lays nodes ((taken.map Placed.id : List NodeId) + rest) fun id after left =>
      PieceAt after piece id ∧ left = id ::ₘ rest := by
  cases makes with
  | literal known =>
    rw [List.map_nil, free_nil]
    cases construct <;> first | (cases known; exact lays_literal _ rfl) | cases known
  | list items =>
    rw [map_id_as]
    exact lays_list (forall_as stand)
  | map entries =>
    rw [map_id_entries]
    exact lays_map (forall_entries stand)
  | path head => exact lays_indexedPath head [] (by simp)
  | indexedPath head indices =>
    rw [map_id_as]
    exact lays_indexedPath head indices (forall_as stand)
  | dottedPath head fields =>
    rw [List.map_nil, free_nil]
    exact lays_dottedPath head fields
  | binary op left right =>
    exact lays_binary op (stand (left.as .expr) (by simp)) (stand (right.as .expr) (by simp))
  | unary op operand => exact lays_unary op (stand (operand.as .expr) (by simp))
  | wrapped inner =>
    rw [List.map_singleton, free_single]
    exact lays_wrap (stand (inner.as .expr) (by simp))
  | types base args =>
    rw [map_id_as]
    exact lays_types base (forall_as stand)
  | assignment target head keys value =>
    rw [List.map_cons, List.map_singleton, free_cons, free_cons, free_nil, Multiset.cons_swap]
    exact lays_assignment (stand ⟨target, .expr (.path head keys)⟩ (by simp))
      (stand (value.as .expr) (by simp))
  | assign head value =>
    rw [List.map_singleton, free_single]
    exact lays_assign head (stand (value.as .expr) (by simp))
  | returnStatement value =>
    rw [map_id_as]
    exact lays_returnStatement (forall_as stand)
  | absoluteExpression value =>
    rw [List.map_singleton, free_single]
    exact lays_absoluteExpression (stand (value.as .expr) (by simp))
  | nestedBlock body =>
    rw [map_id_as]
    refine (lays_body (forall_as stand)).weaken ?_
    rintro id last _ _ ⟨held, kept⟩
    exact ⟨held.block, kept⟩
  | ifBlock condition body branches =>
    obtain ⟨typed, others⟩ := List.forall_mem_cons.1 stand
    obtain ⟨inside, beside⟩ := List.forall_mem_append.1 others
    rw [List.map_cons, List.map_append, map_id_as, map_id_as, free_cons, ← Multiset.coe_add, add_assoc]
    exact lays_headed (forall_as inside) (.ifBlock _) rfl typed
      (forall₂_placed (forall_as beside)) (by simp [Header.branches])
  | elseifBlock condition body =>
    obtain ⟨typed, inside⟩ := List.forall_mem_cons.1 stand
    rw [List.map_cons, map_id_as, free_cons]
    exact lays_headedAlone (forall_as inside) (.elseifBlock _) rfl typed
  | elseBlock body =>
    rw [map_id_as]
    exact lays_silentAlone (forall_as stand) .elseBlock rfl
  | whileBlock condition body =>
    obtain ⟨typed, inside⟩ := List.forall_mem_cons.1 stand
    rw [List.map_cons, map_id_as, free_cons]
    exact lays_headedAlone (forall_as inside) (.whileBlock _) rfl typed
  | whenBlock subject body =>
    obtain ⟨typed, inside⟩ := List.forall_mem_cons.1 stand
    rw [List.map_cons, map_id_as, free_cons]
    exact lays_headedAlone (forall_as inside) (.whenBlock _) rfl typed
  | foreachBlock iterable names body =>
    obtain ⟨typed, inside⟩ := List.forall_mem_cons.1 stand
    rw [List.map_cons, map_id_as, free_cons]
    exact lays_foreach (forall_as inside) typed
  | tryBlock body handlers =>
    obtain ⟨inside, beside⟩ := List.forall_mem_append.1 stand
    rw [List.map_append, map_id_as, map_id_as, ← Multiset.coe_add, add_assoc]
    exact lays_silent (forall_as inside) .tryBlock rfl
      (forall₂_placed (forall_as beside)) (by simp [Header.branches])
  | catchBlock binding body =>
    rw [map_id_as]
    exact lays_catch (forall_as stand)
  | finallyBlock body =>
    rw [map_id_as]
    exact lays_finally (forall_as stand)
  | functionBlock name params output body =>
    obtain ⟨header, inside⟩ := List.forall_mem_append.1 stand
    obtain ⟨typed, returns⟩ := List.forall_mem_append.1 header
    rw [List.map_append, List.map_append, map_id_as, map_id_as, List.map_map, ← Multiset.coe_add,
      ← Multiset.coe_add, add_assoc, add_assoc]
    refine lays_function (forall_as inside) (fun param member => ?_) fun type member => ?_
    · exact typed (param.2.as .types) (List.mem_map.2 ⟨param, member, rfl⟩)
    · exact forall_as returns type (Option.mem_toList.2 member)

end Pieces

/-! ### Stories -/

/-- What was drafted is laid out, and its pieces stand at their nodes. -/
theorem Drafted.laid {builder : Builder} {pieces : Multiset (Placed Piece)}
    (drafted : Drafted builder pieces) : Laid builder.nodes (pieces.map Placed.id) ∧
      ∀ placed ∈ pieces, PieceAt builder.nodes placed.item placed.id := by
  induction drafted with
  | empty => exact ⟨.empty, by simp⟩
  | @add builder after construct taken rest piece id _ makes built step =>
    obtain ⟨laid, stand⟩ := step
    rw [Multiset.map_add, Multiset.map_coe] at laid
    obtain ⟨extended, left, laidAfter, stands, rfl⟩ := (makes.lays fun placed member =>
      stand placed (Multiset.mem_add.2 (.inl member))) builder id after rfl built laid
    refine ⟨by simpa using laidAfter, fun placed member => ?_⟩
    rcases Multiset.mem_cons.1 member with rfl | before
    · exact stands
    · exact (stand placed (Multiset.mem_add.2 (.inr before))).mono extended

/-- A tree that tells a program is sound and places every node once, and the program stands at it. -/
theorem Tree.Tells.laid {tree : Tree} {program : List Part} (tells : tree.Tells program) :
    tree.Sound ∧ tree.PlacesOnce ∧ ProgramAt tree.nodes program tree.root := by
  obtain ⟨builder, body, rest, drafted, rfl, story⟩ := tells
  obtain ⟨laid, stand⟩ := drafted.laid
  rw [Multiset.map_add, Multiset.map_coe, map_id_as] at laid
  have placed : ∀ placed ∈ body.map (Placed.as Piece.statement),
      PieceAt builder.nodes placed.item placed.id :=
    fun placed member => stand placed (Multiset.mem_add.2 (.inl member))
  have inside : ∀ part ∈ body, PartAt builder.nodes part.item part.id := forall_as placed
  have lays : (Build.start (body.map Placed.id)).Lays builder.nodes
      ((body.map Placed.id : List NodeId) + rest.map Placed.id) fun id after left =>
        ProgramAt after (body.map Placed.item) id := by
    refine (Build.lays_slots inside).bind ?_
    rintro slots between _ _ ⟨inner, rfl⟩
    refine (Build.lays_labelled .start "" slots).weaken ?_
    rintro id after _ extended ⟨shows, _⟩
    exact ⟨slots, shows, inner.imp fun _ _ stands => stands.mono extended⟩
  unfold Builder.story at story
  cases started : (Build.start (body.map Placed.id)).run builder with
  | error fault =>
    rw [started] at story
    cases story
  | ok answer =>
    rcases answer with ⟨root, built⟩
    rw [started] at story
    cases story
    obtain ⟨_, left, laidAfter, stands⟩ := lays builder root built rfl started laid
    exact ⟨laidAfter.sound, laidAfter.placesOnce, stands⟩

end ScopeTyping
