import ScopeTyping.Proofs.Pass.Assignments
import ScopeTyping.Proofs.Pass.Placement

/-! Returns are checked where the pass visits them. The check of a function derives the
scopes of its returns from the scopes attached so far, the pass hands them down; both come
to the same scope, and the types that the check accepted hold of the final scopes. -/
namespace ScopeTyping

namespace Typing

variable {view : View} {names after : NameTable} {body : NodeId} {scope : ScopeId} {ty : Ty}

/-- Going through a walk succeeds only if the walk reaches its end and every item succeeds. -/
theorem outcome_forEach_ok {ι : Type} {walk : Walk ι} {next : ι → Typing Unit}
    (each : ∀ item, Yields (fun _ => True) (next item))
    (ran : (walk.forEach next).outcome names = (.ok (), after)) :
    walk.fault = none ∧ ∀ item ∈ walk.items, ∃ before between, names.Grows before ∧
      (next item).outcome before = (.ok (), between) := by
  unfold Walk.forEach at ran
  obtain ⟨_, between, first, last⟩ := Fallible.outcome_bind_eq_ok.1 ran
  constructor
  · cases ended : walk.fault with
    | none => rfl
    | some fault =>
      rw [ended] at last
      cases last
  · clear ran last
    generalize walk.items = items at first ⊢
    induction items generalizing names with
    | nil => simp
    | cons item rest step =>
      obtain ⟨_, middle, here, later⟩ := Fallible.outcome_bind_eq_ok.1
        (show (next item >>= fun _ => rest.forM next).outcome names = _ from first)
      have grown := (Attempt.ensures_ok (each item names) here).1
      intro other member
      rcases List.mem_cons.1 member with rfl | further
      · exact ⟨names, middle, .refl names, here⟩
      · obtain ⟨before, last, grownLater, ranLater⟩ := step later other further
        exact ⟨before, last, grown.trans grownLater, ranLater⟩

theorem checkReturns_accepts (settled : view.scopes.Settled)
    (ran : (checkReturns view body scope ty).outcome names = (.ok (), after)) :
    (returnSites view body scope).fault = none ∧
    ∀ site ∈ (returnSites view body scope).items, ∃ found before between, names.Grows before ∧
      (returned view site).outcome before = (.ok found, between) ∧ ty.accepts found = true := by
  have each : ∀ site, Yields (fun _ => True) (checkReturn view ty site) := fun _ =>
    checkReturn_yields settled
  obtain ⟨whole, all⟩ := outcome_forEach_ok each ran
  refine ⟨whole, fun site member => ?_⟩
  obtain ⟨before, between, grown, checked⟩ := all site member
  obtain ⟨found, middle, typed, accepted⟩ := Fallible.outcome_bind_eq_ok.1 checked
  refine ⟨found, before, middle, grown, typed, ?_⟩
  by_contra refused
  rw [if_neg refused] at accepted
  unfold Attempt.report at accepted
  obtain ⟨error, _, _, thrown⟩ := Fallible.outcome_bind_eq_ok.1 accepted
  cases thrown

end Typing

section Checks
variable {tree : Tree} {names known after : NameTable} {journal earlier : List Moment}
  {id function header body site : NodeId} {scope inner : ScopeId} {ty found : Ty}

end Checks

section Sites
variable {tree : Tree} {names : NameTable} {journal past : List Moment} {known : Snapshot}
  {function header body site : NodeId} {scope inner : ScopeId} {ty : Ty}

/-- The check of a function succeeded on what was known when its body had been visited. -/
theorem Checked.ran
    (checked : Checked tree.resolver journal function header body inner ty past known)
    (chronicle : Chronicle tree.resolver names journal) :
    known.view tree = (latest names past).view tree ∧ ∃ after,
      (Typing.checkReturns ((latest names past).view tree) body inner ty).outcome
        (latest names past).names = (.ok (), after) := by
  have step := (chronicle.of_suffix checked.accepted).step_of_cons
  cases step with
  | answered given =>
    obtain ⟨_, between, ran, _⟩ := Fallible.outcome_bind_eq_ok.1 given
    exact ⟨rfl, between, ran⟩

/-- The body of a function stands in the scope of the function when its returns are checked. -/
theorem Checked.within
    (checked : Checked tree.resolver journal function header body inner ty past known)
    (chronicle : Chronicle tree.resolver names past) (once : tree.PlacesOnce)
    (isFunction : tree.kind function = .ok .functionBlock) :
    tree.Within (latest names past).annotations body inner := by
  obtain ⟨node, held, kind⟩ := Tree.node_of_kind isFunction
  have isBody : tree.IsBody body :=
    ⟨function, node, held, by rw [kind]; rfl, checked.bodyChild⟩
  exact .outer (chronicle.unattached_of_body once isBody)
    (Tree.child?_eq_ok_some checked.bodyChild).1
    (.own ((chronicle.consistent.attached function inner).2 checked.attached))

/-- A return that the pass ever visits it has visited, in that scope, when the returns of the
function are checked. -/
theorem Checked.visited_before
    (checked : Checked tree.resolver journal function header body inner ty past known)
    (chronicle : Chronicle tree.resolver names journal) (sound : tree.Sound)
    (once : tree.PlacesOnce) (isFunction : tree.kind function = .ok .functionBlock)
    {around : ScopeId} (visitedFunction : Happened journal (.visited function around))
    (below : tree.ReturnBelow body site) (visited : Happened journal (.visited site scope)) :
    Happened past (.visited site scope) := by
  have earlier : past <:+ journal := (List.suffix_cons _ _).trans checked.accepted
  have inside := chronicle.below_root function around visitedFunction
  have under : Relation.TransGen tree.ChildOf site function :=
    below.under.tail (Tree.child?_eq_ok_some checked.bodyChild).1
  have handed := chronicle.handed_from_function sound once isFunction inside site scope visited under
  obtain ⟨child, hands, onwards⟩ := Relation.TransGen.head'_iff.1 handed
  obtain ⟨other, before⟩ := checked.swept child hands site onwards
  -- The return cannot be visited in two scopes, so the early visit is the one at hand.
  cases chronicle.visited_once once visited (before.later earlier)
  exact before

/-- The check types each return in the scope that the pass visits it in, and in no other. -/
theorem Checked.mem_sites_iff
    (checked : Checked tree.resolver journal function header body inner ty past known)
    (chronicle : Chronicle tree.resolver names past) (once : tree.PlacesOnce)
    (isFunction : tree.kind function = .ok .functionBlock)
    (whole : (Typing.returnSites ((latest names past).view tree) body inner).fault = none)
    (below : tree.ReturnBelow body site) (visited : Happened past (.visited site scope))
    (other : ScopeId) :
    (site, other) ∈ (Typing.returnSites ((latest names past).view tree) body inner).items ↔
      other = scope := by
  obtain ⟨parent, siteBelow, around⟩ := chronicle.within_of_visited once site scope visited
  have free := chronicle.unattached_of_kind below.kind rfl
  have here : tree.Within (latest names past).annotations site scope := .outer free siteBelow around
  have only : ∀ place,
      (site, place) ∈ (Typing.returnSites ((latest names past).view tree) body inner).items →
      place = scope := by
    intro place member
    have found := Typing.mem_returnSitesWithin (checked.within chronicle once isFunction) member
    exact found.2.unique once here
  constructor
  · exact only other
  · rintro rfl
    obtain ⟨place, member⟩ := Typing.returnSitesWithin_complete below whole
    cases only place member
    exact member

end Sites

end ScopeTyping
