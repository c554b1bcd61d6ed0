import ScopeTyping.Proofs.Pass.Housing
import ScopeTyping.Proofs.Program.Tally

/-! How often nodes are visited. Where every node is placed once, the nodes that a node hands its
scope to have nothing below them in common, so whatever a task visits it visits once
(`Course.visits_once`). -/
namespace ScopeTyping

/-- The node that is visited in a step, if one is. -/
def Event.visit? : Event → Option NodeId
  | .visited id _ => some id
  | _ => none

/-- The nodes that a journal tells of as visited, each as often as it was. -/
def visits (journal : List Moment) : List NodeId :=
  journal.filterMap fun moment => moment.event.visit?

theorem mem_visits {journal : List Moment} {id : NodeId} :
    id ∈ visits journal ↔ ∃ scope, Happened journal (.visited id scope) := by
  have told : ∀ event : Event, event.visit? = some id ↔ ∃ scope, event = .visited id scope := by
    intro event
    cases event <;> simp [Event.visit?]
  simp only [visits, List.mem_filterMap, told, Happened]
  constructor
  · rintro ⟨moment, member, scope, here⟩
    exact ⟨scope, moment, member, here⟩
  · rintro ⟨scope, moment, member, here⟩
    exact ⟨moment, member, scope, here⟩

/-- Where no node was visited, the visits are those of before. -/
theorem Quiet.visits_eq {before after : Progress} (quiet : Quiet before after) :
    visits after.journal = visits before.journal := by
  obtain ⟨newer, same, silent⟩ := quiet
  have none : newer.filterMap (fun moment => moment.event.visit?) = [] := by
    refine List.filterMap_eq_nil_iff.2 fun moment member => ?_
    have here := silent moment member
    cases event : moment.event <;> simp_all [Event.visit?]
  rw [same, visits, List.filterMap_append, none]
  rfl

variable {tree : Tree} {id child : NodeId} {ids : List NodeId}

/-- Two of the nodes that a node hands its scope to have nothing below them in common. -/
theorem Tree.HandsAll.parted (all : tree.HandsAll id ids) (sound : tree.Sound)
    (once : tree.PlacesOnce) : ids.Pairwise tree.Parted := by
  cases all with
  | children held _ => exact Tree.children_parted sound once held
  | @body node inner body held bodied found bodyHeld =>
    have whole := Tree.children_parted sound once held
    obtain ⟨_, there, member⟩ := (Tree.child?_eq_ok_some found).1
    cases held.symm.trans there
    have ordered := whole.sublist (Tree.body_branches_sublist member)
    obtain ⟨apart, branches⟩ := List.pairwise_cons.1 ordered
    refine List.pairwise_append.2 ⟨Tree.children_parted sound once bodyHeld, ?_, ?_⟩
    · split
      · exact branches
      · exact .nil
    · intro statement inBody branch behind
      split at behind
      · exact (apart branch behind).narrow
          (Tree.under_of_childOf (Tree.childOf_of_mem bodyHeld inBody)) .refl
      · cases behind

/-- Where a task may visit nodes: below the node that it handles, or at and below those that it
visits. -/
def Task.Reaches (tree : Tree) (below : NodeId) : Task → Prop
  | .node id _ => Relation.TransGen tree.ChildOf below id
  | .nodes ids _ => ∃ id ∈ ids, tree.Under below id

/-- The nodes that a task is to visit have nothing below them in common. -/
def Task.Apart (tree : Tree) : Task → Prop
  | .node _ _ => True
  | .nodes ids _ => ids.Pairwise tree.Parted

/-- A task visits only nodes that it reaches, and each of them once at most. -/
theorem Course.visits_once {resolver : Resolver} {task : Task} {before after : Progress}
    (sound : resolver.tree.Sound) (once : resolver.tree.PlacesOnce)
    (course : Course resolver task before after) (apart : task.Apart resolver.tree) :
    ∃ visited, visits after.journal = visited ++ visits before.journal ∧ visited.Nodup ∧
      ∀ below ∈ visited, task.Reaches resolver.tree below := by
  induction course with
  | done => exact ⟨[], rfl, .nil, by simp⟩
  | @next id rest scope before between after _ _ first second =>
    obtain ⟨beside, apart⟩ := List.pairwise_cons.1 apart
    obtain ⟨here, sinceBefore, hereOnce, below⟩ := first trivial
    obtain ⟨later, sinceBetween, laterOnce, among⟩ := second apart
    have since : visits after.journal = (later ++ (here ++ [id])) ++ visits before.journal := by
      rw [sinceBetween, sinceBefore]
      simp [Progress.visiting, Progress.noted, visits, Event.visit?]
    have underFirst : ∀ node ∈ here ++ [id], resolver.tree.Under node id := by
      intro node member
      rcases List.mem_append.1 member with within | same
      · exact (below node within).to_reflTransGen
      · cases List.mem_singleton.1 same
        exact .refl
    refine ⟨later ++ (here ++ [id]), since, ?_, fun node member => ?_⟩
    · refine laterOnce.append (hereOnce.append (List.nodup_singleton id) ?_) ?_
      · intro node within same
        cases List.mem_singleton.1 same
        exact sound.acyclic _ (below _ within)
      · intro node within same
        obtain ⟨other, member, under⟩ := among node within
        exact beside other member node (underFirst node same) under
    · rcases List.mem_append.1 member with within | first
      · obtain ⟨other, member, under⟩ := among node within
        exact ⟨other, List.mem_cons_of_mem _ member, under⟩
      · exact ⟨id, List.mem_cons_self .., underFirst node first⟩
  | @node id scope inner kind ids before entered swept after _ enters all _ leaves below =>
    obtain ⟨visited, since, visitedOnce, among⟩ := below (all.parted sound once)
    refine ⟨visited, ?_, visitedOnce, fun node member => ?_⟩
    · rw [leaves.quiet.visits_eq, since, enters.quiet.visits_eq]
    · obtain ⟨child, handed, under⟩ := among node member
      exact Relation.TransGen.trans_right under (all.mem_iff.1 handed).below

end ScopeTyping
