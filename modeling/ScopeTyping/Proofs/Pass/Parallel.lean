import ScopeTyping.Proofs.Pass.Mirror
import ScopeTyping.Proofs.Pass.Recording
import ScopeTyping.Proofs.Pass.Standard
import ScopeTyping.Proofs.Typing.Counterparts

/-! The pass run twice, over a tree and over the same tree with its identifiers renamed, from
states of which neither has a scope for the nodes to be visited. Every part of the pass that is
given paired scopes does the same in both runs, and fails with errors that tell the same. -/
namespace ScopeTyping

/-- Two parts of the pass, run from states that mirror each other with `count` scopes opened
or more. They end alike: with values that `done` relates, in states that mirror each other
still, or else with errors that tell the same. -/
def Parallel {α β : Type} (f : String → String) (start twinStart : Snapshot) (count : Nat)
    (done : α → β → Nat → Prop) (left : Pass α) (right : Pass β) : Prop :=
  ∀ one other now, count ≤ now → Mirror f start twinStart one.known other.known now →
    left.Alike right one other
      (fun value twin after afterwards => ∃ later, now ≤ later ∧
        Mirror f start twinStart after.known afterwards.known later ∧ done value twin later)
      (fun _ => False) (Failure.Renamed f)

namespace Parallel

variable {α β γ δ ι : Type} {f : String → String} {start twinStart : Snapshot} {count more : Nat}
  {done : α → β → Nat → Prop} {result : γ → δ → Nat → Prop} {left : Pass α} {right : Pass β}

theorem pure {value : α} {twin : β} (holds : ∀ later, count ≤ later → done value twin later) :
    Parallel f start twinStart count done (Pure.pure value) (Pure.pure twin) :=
  fun _ _ now le mirror => Fallible.alike_pure ⟨now, Nat.le_refl now, mirror, holds now le⟩

/-- The second of two parts is compared from wherever the first one leads. -/
theorem bind {next : α → Pass γ} {follow : β → Pass δ}
    (first : Parallel f start twinStart count done left right)
    (second : ∀ value twin later, count ≤ later → done value twin later →
      Parallel f start twinStart later result (next value) (follow twin)) :
    Parallel f start twinStart count result (left >>= next) (right >>= follow) := by
  intro one other now le mirror
  apply (first one other now le mirror).bind
  rintro value twin after afterwards ⟨later, further, mirrorLater, facts⟩
  have rest := second value twin later (Nat.le_trans le further) facts
  apply (rest after afterwards later (Nat.le_refl later) mirrorLater).weaken
  rintro held other _ _ ⟨last, onward, mirrorLast, holds⟩
  exact ⟨last, Nat.le_trans further onward, mirrorLast, holds⟩

theorem later (parallel : Parallel f start twinStart count done left right) (le : count ≤ more) :
    Parallel f start twinStart more done left right :=
  fun one other now bound => parallel one other now (Nat.le_trans le bound)

theorem weaken {weaker : α → β → Nat → Prop}
    (parallel : Parallel f start twinStart count done left right)
    (value : ∀ value twin later, done value twin later → weaker value twin later) :
    Parallel f start twinStart count weaker left right := by
  intro one other now le mirror
  apply (parallel one other now le mirror).weaken
  rintro held twin _ _ ⟨last, onward, mirrorLast, holds⟩
  exact ⟨last, onward, mirrorLast, value held twin last holds⟩

theorem discard (parallel : Parallel f start twinStart count done left right) :
    Parallel f start twinStart count (fun _ _ _ => True) (discard left) (discard right) := by
  rw [discard_eq_bind, discard_eq_bind]
  exact parallel.bind fun _ _ _ _ _ => pure fun _ _ => trivial

theorem forM {items : List ι} {next follow : ι → Pass Unit}
    (each : ∀ item ∈ items,
      Parallel f start twinStart count (fun _ _ _ => True) (next item) (follow item)) :
    Parallel f start twinStart count (fun _ _ _ => True) (items.forM next) (items.forM follow) := by
  induction items with
  | nil => exact pure fun _ _ => trivial
  | cons item rest step =>
    have others := step fun later member => each later (List.mem_cons_of_mem _ member)
    exact (each item (List.mem_cons_self ..)).bind fun _ _ _ le _ => others.later le

theorem forEach {walk : Walk ι} {next follow : ι → Pass Unit} (whole : walk.fault = none)
    (each : ∀ item ∈ walk.items,
      Parallel f start twinStart count (fun _ _ _ => True) (next item) (follow item)) :
    Parallel f start twinStart count (fun _ _ _ => True) (walk.forEach next)
      (walk.forEach follow) := by
  unfold Walk.forEach
  simp only [whole]
  exact (forM each).bind fun _ _ _ _ _ => pure fun _ _ => trivial

/-- What is written into the journal changes nothing that is known. -/
theorem record (event twin : Event) :
    Parallel f start twinStart count (fun _ _ _ => True) (Pass.record event) (Pass.record twin) :=
  fun _ _ now _ mirror => ⟨now, Nat.le_refl now, mirror, trivial⟩

theorem openScope {parent twinParent : Option ScopeId} (kind : ScopeKind)
    (parents : Option.Rel (Paired start twinStart count) parent twinParent) :
    Parallel f start twinStart count
      (fun scope twin later => Paired start twinStart later scope twin)
      (Pass.openScope parent kind) (Pass.openScope twinParent kind) :=
  fun _ _ now le mirror => ⟨now + 1, Nat.le_succ now,
    mirror.create (optionRel_paired_later parents le) kind, mirror.paired_next⟩

/-- A question is answered alike if it is at every moment that the two runs can be at. -/
theorem ask {tree twinTree : Tree} {call twinCall : Call} {answer : α → Answer}
    {twinAnswer : β → Answer} {question : View → Typing α} {twinQuestion : View → Typing β}
    {good : α → β → Prop}
    (alike : ∀ left right now, count ≤ now → Mirror f start twinStart left right now →
      (question (left.view tree)).Alike (twinQuestion (right.view twinTree)) left.names right.names
        (fun value twin after afterwards =>
          good value twin ∧ left.names.Grows after ∧ right.names.Grows afterwards)
        (fun _ => False) (Failure.Renamed f)) :
    Parallel f start twinStart count (fun value twin _ => good value twin)
      (Pass.ask tree call answer question) (Pass.ask twinTree twinCall twinAnswer twinQuestion) := by
  intro one other now le mirror
  unfold Fallible.Alike
  rw [Pass.outcome_ask, Pass.outcome_ask]
  rcases (alike one.known other.known now le mirror).strict_cases with
    ⟨value, twin, names, twinNames, ran, twinRan, holds, grown, twinGrown⟩ |
    ⟨failure, twin, names, twinNames, ran, twinRan, told⟩
  · rw [ran, twinRan]
    exact ⟨now, Nat.le_refl now, mirror.grow grown twinGrown, holds⟩
  · rw [ran, twinRan]
    cases failure with
    | fault fault => exact told.elim
    | error error =>
      cases twin with
      | fault fault => exact told.elim
      | error twinError => exact .inr told

theorem ask_agree {tree twinTree : Tree} {call twinCall : Call} {answer twinAnswer : α → Answer}
    {question twinQuestion : View → Typing α}
    (agree : ∀ left right now, count ≤ now → Mirror f start twinStart left right now →
      Agree f (fun _ => False) left.names right.names (fun _ => True) (question (left.view tree))
        (twinQuestion (right.view twinTree))) :
    Parallel f start twinStart count (fun value twin _ => twin = value)
      (Pass.ask tree call answer question) (Pass.ask twinTree twinCall twinAnswer twinQuestion) := by
  refine ask fun left right now le mirror => ?_
  refine (agree left right now le mirror _ _ (.refl _) (.refl _)).weaken fun _ _ _ _ facts => ?_
  exact ⟨facts.1, facts.2.2⟩

theorem known_bind {one other : Progress} {next : Snapshot → Pass γ} {follow : Snapshot → Pass δ}
    {done : γ → δ → Progress → Progress → Prop} {loose : Failure → Prop}
    {alike : Failure → Failure → Prop}
    (rest : (next one.known).Alike (follow other.known) one other done loose alike) :
    (Pass.known >>= next).Alike (Pass.known >>= follow) one other done loose alike := rest

/-! ### Parts that look at the tree -/

section Below
variable {tree : Tree} {root id : NodeId} {here there : ScopeId}

theorem node_bind (footing : Footing f tree root start twinStart) (under : tree.Under id root)
    {next : Node → Pass γ} {follow : Node → Pass δ}
    (rest : ∀ node, tree.node id = .ok node →
      Parallel f start twinStart count result (next node) (follow (node.rename f))) :
    Parallel f start twinStart count result (tree.resolver.node id >>= next)
      ((tree.rename f).resolver.node id >>= follow) := by
  obtain ⟨node, held⟩ := Tree.node_exists (footing.inside_of_under under)
  simp only [Resolver.node, held, Tree.node_rename_of_ok held, Attempt.guard, pure_bind]
  exact rest node held

theorem child?_bind (footing : Footing f tree root start twinStart) (under : tree.Under id root)
    {wanted : Kind} {next : Option NodeId → Pass γ} {follow : Option NodeId → Pass δ}
    (rest : ∀ answer, tree.child? id wanted = .ok answer →
      Parallel f start twinStart count result (next answer) (follow answer)) :
    Parallel f start twinStart count result (tree.resolver.child? id wanted >>= next)
      ((tree.rename f).resolver.child? id wanted >>= follow) := by
  obtain ⟨answer, known⟩ := footing.sound.child?_exists (footing.inside_of_under under) wanted
  simp only [Resolver.child?, Tree.child?_rename, known, Attempt.guard, pure_bind]
  exact rest answer known

theorem requiredChild_bind (footing : Footing f tree root start twinStart)
    (under : tree.Under id root) {wanted : Kind} {next : NodeId → Pass γ} {follow : NodeId → Pass δ}
    (rest : ∀ child, tree.ChildOf child id → tree.kind child = .ok wanted →
      Parallel f start twinStart count result (next child) (follow child)) :
    Parallel f start twinStart count result (tree.resolver.requiredChild id wanted >>= next)
      ((tree.rename f).resolver.requiredChild id wanted >>= follow) := by
  have found : Parallel f start twinStart count
      (fun child twin _ => twin = child ∧ tree.ChildOf child id ∧ tree.kind child = .ok wanted)
      (tree.resolver.requiredChild id wanted) ((tree.rename f).resolver.requiredChild id wanted) :=
    fun _ _ now _ mirror => Attempt.alike_requiredChild footing.sound
      (footing.inside_of_under under) fun child below kind =>
        ⟨now, Nat.le_refl now, mirror, rfl, below, kind⟩
  apply found.bind
  rintro _ child _ le ⟨rfl, below, kind⟩
  exact (rest child below kind).later le

/-- A report is the end of both runs. -/
theorem report (footing : Footing f tree root start twinStart) (under : tree.Under id root)
    {cause : Cause} (known : ∀ name suggestions, cause ≠ .unresolvedVariable name suggestions) :
    Parallel f start twinStart count (fun _ _ _ => False)
      (Attempt.report tree id cause : Pass α) (Attempt.report (tree.rename f) id cause : Pass β) :=
  fun _ _ _ _ _ => Attempt.alike_report (footing.inside_of_under under) known

/-- Both runs attach a scope to a node, or both refuse to because it has one. -/
theorem attach (footing : Footing f tree root start twinStart) (under : tree.Under id root)
    (paired : Paired start twinStart count here there) :
    Parallel f start twinStart count (fun _ _ _ => True) (Pass.attach tree id here)
      (Pass.attach (tree.rename f) id there) := by
  intro one other now le mirror
  have pairedNow := paired.later le
  unfold Pass.attach
  refine known_bind ?_
  rcases optionRel_cases (mirror.annotated footing under) with
    ⟨free, twinFree⟩ | ⟨_, _, held, twinHeld, _⟩
  · obtain ⟨annotations, done⟩ := Annotations.attach?_exists free here
    obtain ⟨twins, twinDone⟩ := Annotations.attach?_exists twinFree there
    rw [done, twinDone]
    have attached := mirror.attach (footing.bare id under) pairedNow done twinDone
    exact ⟨now, Nat.le_refl now, attached, trivial⟩
  · obtain ⟨node, there⟩ := Tree.node_exists (footing.inside_of_under under)
    rw [Annotations.attach?_of_held held, Annotations.attach?_of_held twinHeld]
    simp only [Tree.kind_rename, Tree.kind_of_node there, Attempt.guard, pure_bind]
    exact Attempt.alike_report (footing.inside_of_under under) fun _ _ equal =>
      Cause.noConfusion equal

/-- Both runs bind the text of a name to one type. -/
theorem bindName (footing : Footing f tree root start twinStart)
    (name : tree.kind id = .ok .name) (paired : Paired start twinStart count here there) (ty : Ty) :
    Parallel f start twinStart count (fun _ _ _ => True) (Pass.bind tree here id ty)
      (Pass.bind (tree.rename f) there id ty) := by
  intro one other now le mirror
  have pairedNow := paired.later le
  obtain ⟨node, held, isName⟩ := Tree.node_of_kind name
  have text := Node.text_rename_of_name (f := f) isName
  obtain ⟨_, found, twin, there, twinThere, _⟩ := mirror.scopes pairedNow
  obtain ⟨replaced, scopes, done⟩ := Forest.insert_exists there
    ⟨(one.known.names.intern node.text).1, ty⟩
  obtain ⟨twinReplaced, twinScopes, twinDone⟩ := Forest.insert_exists twinThere
    ⟨(other.known.names.intern (f node.text)).1, ty⟩
  have grown := mirror.grow (NameTable.grows_intern one.known.names node.text)
    (NameTable.grows_intern other.known.names (f node.text))
  have typed : (Symbol.mk (other.known.names.intern (f node.text)).1 ty).ty =
      (Symbol.mk (one.known.names.intern node.text).1 ty).ty := rfl
  unfold Fallible.Alike
  rw [Pass.outcome_bindName held, Pass.outcome_bindName (Tree.node_rename_of_ok held), text, done,
    twinDone]
  exact ⟨now, Nat.le_refl now, grown.insert footing.injective pairedNow typed
    (NameTable.text?_intern _ _) (NameTable.text?_intern _ _) done twinDone, trivial⟩

end Below

end Parallel
end ScopeTyping
