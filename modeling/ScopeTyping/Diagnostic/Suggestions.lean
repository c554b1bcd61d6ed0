/-! Names to suggest for one that is not known: those within a few typing slips of
it, the closest first, and among equally close ones the first seen.

The slips are counted by the edit distance: how many single items have to be put in, taken
out or replaced to turn one sequence into the other. It is computed row by row: after a
leading part of the source, entry `j` of the row is the distance of that part to the
first `j` items of the target. -/
namespace ScopeTyping
namespace EditDistance

/-- The entries of a row behind its first one. The row before is given from the entry
above the one that was placed last, which is `left`. -/
def fill {α : Type} [DecidableEq α] (item : α) : List α → List Nat → Nat → List Nat
  | target :: targets, corner :: above :: rest, left =>
    let here := min (min (above + 1) (left + 1)) (corner + if item = target then 0 else 1)
    here :: fill item targets (above :: rest) here
  | _, _, _ => []

/-- The row of one more source item, from the row before it. -/
def nextRow {α : Type} [DecidableEq α] (target : List α) (row : List Nat) (item : α) : List Nat :=
  match row with
  | [] => []
  | corner :: _ => (corner + 1) :: fill item target row (corner + 1)

/-- The row of the empty source: to reach `j` items takes `j` insertions. -/
def firstRow {α : Type} (target : List α) : List Nat := List.range (target.length + 1)

end EditDistance

/-- How many insertions, deletions and replacements lead from `source` to `target`. -/
def editDistance {α : Type} [DecidableEq α] (source target : List α) : Nat :=
  (source.foldl (EditDistance.nextRow target) (EditDistance.firstRow target)).getLastD 0

namespace Suggestions

/-- A name with more slips than this is no suggestion. -/
def furthest : Nat := 3

/-- No more names than this are suggested. -/
def most : Nat := 3

/-- How many slips apart two texts are, character by character. -/
def slips (target candidate : String) : Nat := editDistance target.toList candidate.toList

/-- The candidates at a given distance, in the order in which they stand. -/
def atDistance (target : String) (candidates : List String) (distance : Nat) : List String :=
  candidates.filter fun candidate => slips target candidate == distance

end Suggestions

open Suggestions in
/-- The names among `candidates` to suggest for `target`. -/
def suggestions (target : String) (candidates : List String) : List String :=
  ((List.range (furthest + 1)).flatMap (atDistance target candidates.eraseDups)).take most

theorem length_suggestions_le (target : String) (candidates : List String) :
    (suggestions target candidates).length ≤ Suggestions.most :=
  List.length_take_le _ _

end ScopeTyping
