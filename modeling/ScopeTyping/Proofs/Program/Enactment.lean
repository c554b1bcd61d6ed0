import ScopeTyping.Proofs.Program.Performed

/-! The pass enacts the program of a story: by induction over where the parts of the program
stand, every visit performs what stands there, and so the run of the pass and the run of the
program know the same names and scopes in the end, or fail for the same reason
(`Tree.resolve_enacts`). -/
namespace ScopeTyping

variable {tree : Tree} {id : NodeId} {children slots : List NodeId} {kind : Kind} {text : String}
  {parts : List Part}

/-- A visit has to be looked at with one level less for the children of the node. -/
theorem Performs.within {run : ScopeId → Reading Scene (List Return)} (sound : tree.Sound)
    (shows : Shows tree.nodes id kind text children)
    (step : ∀ depth, (∀ child ∈ children, tree.height child < depth) →
      Performs tree (tree.resolver.visitWith (tree.resolver.visitWithin depth)) id run)
    {depth : Nat} (deep : tree.height id < depth) :
    Performs tree (tree.resolver.visitWithin depth) id run := by
  cases depth with
  | zero => exact absurd deep (Nat.not_lt_zero _)
  | succ depth => exact step depth (shows.lower sound deep)

/-- What is performed at all depths that suffice is performed at one that suffices for all. -/
theorem performs_lower {depth : Nat}
    (steps : List.Forall₂ (fun part id => ∃ _ : PartAt tree.nodes part id, ∀ {depth : Nat},
      tree.height id < depth → Performs tree (tree.resolver.visitWithin depth) id fun scope =>
        part.run scope) parts slots)
    (lower : ∀ slot ∈ slots, tree.height slot < depth) :
    List.Forall₂ (fun part id => Performs tree (tree.resolver.visitWithin depth) id fun scope =>
      part.run scope) parts slots :=
  (forall₂_and_right steps lower).imp fun _ _ ⟨⟨_, performs⟩, deep⟩ => performs deep

/-- The statements of a body have less far to go than the body. -/
theorem Shows.lower_slots {body : NodeId} {depth : Nat} (sound : tree.Sound)
    (held : Shows tree.nodes body kind text slots) (deep : tree.height body < depth) :
    ∀ slot ∈ slots, tree.height slot < depth :=
  fun _ member => (sound.height_lt (held.childOf member)).trans deep

/-- A visit of a node at which a part of a program stands performs the part. -/
theorem PartAt.performs (sound : tree.Sound) (once : tree.PlacesOnce) {part : Part}
    (stands : PartAt tree.nodes part id) {depth : Nat} (deep : tree.height id < depth) :
    Performs tree (tree.resolver.visitWithin depth) id fun scope => part.run scope := by
  induction stands using PartAt.induct generalizing depth with
  | slot shows slot _ step =>
    refine .within sound shows (fun depth lower => ?_) deep
    exact performs_passive [] shows (by rcases slot with rfl | rfl <;> rfl) sound once
      (by simp) (by simp) (step (lower _ (by simp)))
  | assignment shows left right inner =>
    refine .within sound shows (fun depth lower => ?_) deep
    refine performs_assignment sound shows left right inner (List.forall_mem_cons.2 ⟨?_, ?_⟩)
    · exact left.inert.idles sound (lower _ (by simp))
    · exact List.forall_mem_singleton.2 ((Inert.mk right rfl
        (by simpa using inner.inert)).idles sound (lower _ (by simp)))
  | @returned id ids value shows inner =>
    refine .within sound shows (fun depth lower => ?_) deep
    have inert := forall_of_forall₂ inner fun _ _ => ExprAt.inert
    refine performs_idle shows (.inr rfl) (fun child member =>
      (inert child member).idles sound (lower child member)) (fun scope => [⟨value, scope⟩]) ?_
    exact fun _ _ free => .returned shows inner free
  | evaluated shows inner =>
    refine .within sound shows (fun depth lower => ?_) deep
    have inert := List.forall_mem_singleton.2 inner.inert
    refine performs_idle shows (.inl rfl) (fun child member =>
      (inert child member).idles sound (lower child member)) (fun _ => []) ?_
    exact fun _ _ _ => .inert sound (.mk shows rfl inert)
  | shared shows headed branched held _ _ steps others =>
    refine .within sound shows (fun depth lower => ?_) deep
    refine performs_shared sound once shows headed branched held ?_ ?_
    · exact performs_lower steps (held.lower_slots sound (lower _ (by simp)))
    · exact performs_lower others fun branch member => lower branch (by simp [member])
  | block shows _ steps =>
    refine .within sound shows (fun depth lower => ?_) deep
    exact performs_block sound once shows (performs_lower steps lower)
  | @catchBlock id header body ids binding parts shows caught named _ step =>
    refine .within sound shows (fun depth lower => ?_) deep
    have inert : Inert tree.nodes header :=
      .mk caught rfl (forall_of_forall₂ named fun _ _ => NameAt.inert)
    exact performs_passive [header] shows rfl sound once (by simpa using inert)
      (by simpa using inert.idles sound (lower header (by simp))) (step (lower body (by simp)))
  | finallyBlock shows _ step =>
    refine .within sound shows (fun depth lower => ?_) deep
    exact performs_passive [] shows rfl sound once (by simp) (by simp)
      (step (lower _ (by simp)))
  | @opening id header body slots kind opening parts headed shows opened held _ steps =>
    refine .within sound shows (fun depth lower => ?_) deep
    have performs := performs_lower steps (held.lower_slots sound (lower body (by simp)))
    cases opening with
    | foreachBlock iterable names =>
      cases headed
      exact performs_foreach sound once shows opened held performs
    | functionBlock name params output =>
      cases headed
      exact performs_function sound once shows opened held performs
    | block => cases headed
    | catchBlock binding => cases headed
    | finallyBlock => cases headed

/-- The pass does to names and scopes what a run of the program does. -/
theorem Resolver.visitStory_enacts (sound : tree.Sound) (once : tree.PlacesOnce)
    (stands : ProgramAt tree.nodes parts tree.root) (names : NameTable) :
    Enacts tree.resolver.visitStory ⟨.initial names, []⟩ (Part.runProgram parts)
      fun _ _ _ => True := by
  obtain ⟨slots, shows, inner⟩ := stands
  obtain ⟨_, held⟩ := shows.node
  have lower := shows.lower sound (Nat.lt_succ_of_le (tree.height_le tree.root))
  have performs : List.Forall₂ (fun part id => Performs tree tree.resolver.visit id fun scope =>
      part.run scope) parts slots :=
    (forall₂_and_right inner lower).imp fun _ _ ⟨stands, deep⟩ =>
      stands.performs sound once (deep.trans (Nat.lt_succ_self _))
  simp only [Resolver.visitStory, Resolver.node, held, Attempt.guard, pure_bind, if_true,
    Resolver.start, Resolver.enclose, Part.runProgram]
  refine (Pass.openScope_enacts none .root).bind ?_
  rintro scope _ created ⟨same, kept⟩
  subst same
  have free : created.known.Free tree [tree.root] := by
    intro id _ below _
    rw [kept]
    rfl
  refine Enacts.record (attach_enacts (free _ (by simp) _ .refl) fun now opened => ?_)
  have freeSlots := opened.free sound free fun slot => shows.childOf
  rw [discard_eq_bind, ← bind_pure (tree.resolver.visitChildren _ _ _)]
  exact (children_enacts sound once performs shows freeSlots).bind fun _ _ _ _ => .pure trivial

/-- Resolving a story ends as a run of its program does: with the same names and scopes, or with
an error for the same reason. -/
theorem Tree.resolve_enacts (sound : tree.Sound) (once : tree.PlacesOnce)
    (stands : ProgramAt tree.nodes parts tree.root) (names : NameTable) :
    (∃ resolution scene, (tree.resolve names).outcome = .ok resolution ∧
      (Part.runProgram parts).outcome ⟨names, .empty⟩ = (.ok (), scene) ∧
      resolution.scopes = scene.scopes ∧ (tree.resolve names).names = scene.names) ∨
    (∃ failure refusal scene, (tree.resolve names).outcome = .error failure ∧
      (Part.runProgram parts).outcome ⟨names, .empty⟩ = (.error refusal, scene) ∧
      failure.reason = refusal.reason) := by
  rcases (Resolver.visitStory_enacts sound once stands names).strict_cases with
    ⟨_, _, after, scene, ran, enacted, same, _⟩ | ⟨failure, refusal, after, scene, ran, enacted, same⟩
  · refine .inl ⟨after.known.resolution, scene, ?_, enacted, congrArg Scene.scopes same, ?_⟩
    · simp only [Tree.resolve, Resolver.run, ran]
      rfl
    · simp only [Tree.resolve, Resolver.run, ran]
      exact congrArg Scene.names same
  · refine .inr ⟨failure, refusal, scene, ?_, enacted, same⟩
    simp only [Tree.resolve, Resolver.run, ran]
    rfl

end ScopeTyping
