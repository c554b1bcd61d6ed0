import Mathlib.Order.Bounds.Basic
import ScopeTyping.Diagnostic.Suggestions

/-! The edit distance is the least number of slips. A slip puts one item in, takes one out or
replaces one, anywhere in a text, and slips may touch the same place again and again. What any
sequence of them comes to, no more of them do in one pass over both texts (`Slips.aligned`), and
the rows that the computation fills count the least of such passes (`Row.nextRow`). -/
namespace ScopeTyping
namespace EditDistance

variable {α : Type}

/-- One slip turns a text into another one. -/
inductive Slip : List α → List α → Prop where
  | put (before after : List α) (item : α) : Slip (before ++ after) (before ++ item :: after)
  | drop (before after : List α) (item : α) : Slip (before ++ item :: after) (before ++ after)
  | replace (before after : List α) (item other : α) :
      Slip (before ++ item :: after) (before ++ other :: after)

/-- So many slips, one after another, turn a text into another one. -/
inductive Slips : Nat → List α → List α → Prop where
  | none (text : List α) : Slips 0 text text
  | more {count : Nat} {source between target : List α} (first : Slip source between)
      (others : Slips count between target) : Slips (count + 1) source target

/-- Two texts are gone through side by side, with so many slips on the way. -/
inductive Aligned : Nat → List α → List α → Prop where
  | done : Aligned 0 [] []
  | keep {count : Nat} {source target : List α} (item : α) (rest : Aligned count source target) :
      Aligned count (item :: source) (item :: target)
  | put {count : Nat} {source target : List α} (item : α) (rest : Aligned count source target) :
      Aligned (count + 1) source (item :: target)
  | drop {count : Nat} {source target : List α} (item : α) (rest : Aligned count source target) :
      Aligned (count + 1) (item :: source) target
  | replace {count : Nat} {source target : List α} (item other : α)
      (rest : Aligned count source target) : Aligned (count + 1) (item :: source) (other :: target)

section Scripts
variable {count more : Nat} {item other : α} {source between target before after : List α}

/-! ### Slips in a row -/

/-- A slip further on is a slip. -/
theorem Slip.behind (slip : Slip source target) (item : α) :
    Slip (item :: source) (item :: target) := by
  cases slip with
  | put before after new => exact .put (item :: before) after new
  | drop before after old => exact .drop (item :: before) after old
  | replace before after old new => exact .replace (item :: before) after old new

theorem Slips.behind (slips : Slips count source target) (item : α) :
    Slips count (item :: source) (item :: target) := by
  induction slips with
  | none text => exact .none _
  | more first _ step => exact .more (first.behind item) step

/-- What is gone through side by side can be done slip by slip. -/
theorem Aligned.slips (aligned : Aligned count source target) : Slips count source target := by
  induction aligned with
  | done => exact .none []
  | keep item _ step => exact step.behind item
  | put item _ step => exact .more (.put [] _ item) (step.behind item)
  | drop item _ step => exact .more (.drop [] _ item) step
  | replace item other _ step => exact .more (.replace [] _ item other) (step.behind other)

/-! ### Texts side by side -/

theorem Aligned.refl (text : List α) : Aligned 0 text text := by
  induction text with
  | nil => exact .done
  | cons item _ step => exact .keep item step

theorem Aligned.append (first : Aligned count source target) (second : Aligned more before after) :
    Aligned (count + more) (source ++ before) (target ++ after) := by
  induction first with
  | done => simpa using second
  | keep item _ step => exact .keep item step
  | put item _ step =>
    rw [Nat.succ_add]
    exact .put item step
  | drop item _ step =>
    rw [Nat.succ_add]
    exact .drop item step
  | replace item other _ step =>
    rw [Nat.succ_add]
    exact .replace item other step

/-- What a text in two parts is aligned with is in two parts as well. -/
theorem Aligned.split (aligned : Aligned count (before ++ after) target) :
    ∃ early late one two, target = one ++ two ∧ count = early + late ∧
      Aligned early before one ∧ Aligned late after two := by
  generalize same : before ++ after = source at aligned
  induction aligned generalizing before with
  | done =>
    obtain ⟨rfl, rfl⟩ := List.append_eq_nil_iff.1 same
    exact ⟨0, 0, [], [], rfl, rfl, .done, .done⟩
  | @keep count source target item rest step =>
    rcases List.append_eq_cons_iff.1 same with ⟨rfl, rfl⟩ | ⟨shorter, rfl, rfl⟩
    · exact ⟨0, count, [], item :: target, rfl, (Nat.zero_add _).symm, .done, .keep item rest⟩
    · obtain ⟨early, late, one, two, rfl, rfl, first, second⟩ := step rfl
      exact ⟨early, late, item :: one, two, rfl, rfl, .keep item first, second⟩
  | put item _ step =>
    obtain ⟨early, late, one, two, rfl, rfl, first, second⟩ := step same
    exact ⟨early + 1, late, item :: one, two, rfl, (Nat.succ_add _ _).symm, .put item first, second⟩
  | @drop count source target item rest step =>
    rcases List.append_eq_cons_iff.1 same with ⟨rfl, rfl⟩ | ⟨shorter, rfl, rfl⟩
    · exact ⟨0, count + 1, [], target, rfl, (Nat.zero_add _).symm, .done, .drop item rest⟩
    · obtain ⟨early, late, one, two, rfl, rfl, first, second⟩ := step rfl
      exact ⟨early + 1, late, one, two, rfl, (Nat.succ_add _ _).symm, .drop item first, second⟩
  | @replace count source target item other rest step =>
    rcases List.append_eq_cons_iff.1 same with ⟨rfl, rfl⟩ | ⟨shorter, rfl, rfl⟩
    · exact ⟨0, count + 1, [], other :: target, rfl, (Nat.zero_add _).symm, .done,
        .replace item other rest⟩
    · obtain ⟨early, late, one, two, rfl, rfl, first, second⟩ := step rfl
      exact ⟨early + 1, late, other :: one, two, rfl, (Nat.succ_add _ _).symm,
        .replace item other first, second⟩

/-- Without its first item a text is one slip further away at most. -/
theorem Aligned.tail (aligned : Aligned count (item :: source) target) :
    ∃ fewer, fewer ≤ count + 1 ∧ Aligned fewer source target := by
  generalize same : item :: source = whole at aligned
  induction aligned with
  | done => cases same
  | @keep count _ _ _ rest _ =>
    cases same
    exact ⟨count + 1, Nat.le_refl _, .put item rest⟩
  | put other _ step =>
    obtain ⟨fewer, few, shorter⟩ := step same
    exact ⟨fewer + 1, Nat.succ_le_succ few, .put other shorter⟩
  | @drop count _ _ _ rest _ =>
    cases same
    exact ⟨count, by omega, rest⟩
  | @replace count _ _ _ other rest _ =>
    cases same
    exact ⟨count + 1, by omega, .put other rest⟩

/-- With another first item a text is one slip further away at most. -/
theorem Aligned.head (aligned : Aligned count (item :: source) target) (other : α) :
    ∃ fewer, fewer ≤ count + 1 ∧ Aligned fewer (other :: source) target := by
  generalize same : item :: source = whole at aligned
  induction aligned with
  | done => cases same
  | @keep count _ _ _ rest _ =>
    cases same
    exact ⟨count + 1, Nat.le_refl _, .replace other item rest⟩
  | put new _ step =>
    obtain ⟨fewer, few, changed⟩ := step same
    exact ⟨fewer + 1, Nat.succ_le_succ few, .put new changed⟩
  | @drop count _ _ _ rest _ =>
    cases same
    exact ⟨count + 1, by omega, .drop other rest⟩
  | @replace count _ _ _ new rest _ =>
    cases same
    exact ⟨count + 1, by omega, .replace other new rest⟩

/-- A slip in front of an alignment makes it longer by one at most. -/
theorem Slip.aligned (slip : Slip source between) (aligned : Aligned count between target) :
    ∃ total, total ≤ count + 1 ∧ Aligned total source target := by
  cases slip with
  | put before after item =>
    obtain ⟨early, late, _, _, rfl, rfl, first, second⟩ := aligned.split
    obtain ⟨fewer, few, shorter⟩ := second.tail
    exact ⟨early + fewer, by omega, first.append shorter⟩
  | drop before after item =>
    obtain ⟨early, late, _, _, rfl, rfl, first, second⟩ := aligned.split
    exact ⟨early + (late + 1), by omega, first.append (.drop item second)⟩
  | replace before after item other =>
    obtain ⟨early, late, _, _, rfl, rfl, first, second⟩ := aligned.split
    obtain ⟨fewer, few, changed⟩ := second.head item
    exact ⟨early + fewer, by omega, first.append changed⟩

/-- Whatever slips do, no more of them do it side by side. -/
theorem Slips.aligned (slips : Slips count source target) :
    ∃ total, total ≤ count ∧ Aligned total source target := by
  induction slips with
  | none text => exact ⟨0, Nat.le_refl 0, .refl text⟩
  | more first _ step =>
    obtain ⟨total, few, rest⟩ := step
    obtain ⟨all, fewAll, aligned⟩ := first.aligned rest
    exact ⟨all, by omega, aligned⟩

/-- Texts can be gone through from behind as well. -/
theorem Aligned.reverse (aligned : Aligned count source target) :
    Aligned count source.reverse target.reverse := by
  induction aligned with
  | done => exact .done
  | keep item _ step => simpa using step.append (.keep item .done)
  | put item _ step => simpa using step.append (.put item .done)
  | drop item _ step => simpa using step.append (.drop item .done)
  | replace item other _ step => simpa using step.append (.replace item other .done)

end Scripts

/-! ### The rows -/

/-- The least number of slips with which two texts are gone through side by side. -/
def Least (source target : List α) (count : Nat) : Prop :=
  IsLeast {total | Aligned total source target} count

section Rows
variable {corner above left count : Nat} {item other : α} {source done todo target : List α}
  {row : List Nat}

theorem least_nil_nil : Least ([] : List α) [] 0 := ⟨.done, fun _ _ => Nat.zero_le _⟩

/-- From nothing, every item is put in. -/
theorem Least.nil_cons (least : Least [] target count) (item : α) :
    Least [] (item :: target) (count + 1) := by
  refine ⟨.put item least.1, ?_⟩
  intro total aligned
  cases aligned with
  | put _ rest => exact Nat.succ_le_succ (least.2 rest)

/-- To get to nothing, every item is taken out. -/
theorem Least.cons_nil (least : Least source [] count) (item : α) :
    Least (item :: source) [] (count + 1) := by
  refine ⟨.drop item least.1, ?_⟩
  intro total aligned
  cases aligned with
  | drop _ rest => exact Nat.succ_le_succ (least.2 rest)

/-- Between two texts that both have a first item there are three ways to begin. -/
theorem Least.cons_cons [DecidableEq α] (corner_least : Least source target corner)
    (above_least : Least source (other :: target) above)
    (left_least : Least (item :: source) target left) :
    Least (item :: source) (other :: target)
      (min (min (above + 1) (left + 1)) (corner + if item = other then 0 else 1)) := by
  constructor
  · have dropped : Aligned (above + 1) (item :: source) (other :: target) :=
      .drop item above_least.1
    have added : Aligned (left + 1) (item :: source) (other :: target) := .put other left_least.1
    have matched : Aligned (corner + if item = other then 0 else 1) (item :: source)
        (other :: target) := by
      split
      · rename_i same
        exact same ▸ .keep item corner_least.1
      · exact .replace item other corner_least.1
    exact min_rec' (Aligned · (item :: source) (other :: target))
      (min_rec' (Aligned · (item :: source) (other :: target)) dropped added) matched
  · intro total aligned
    cases aligned with
    | keep _ rest =>
      have few : corner ≤ total := corner_least.2 rest
      rw [if_pos rfl]
      omega
    | put _ rest =>
      have few : left ≤ _ := left_least.2 rest
      omega
    | drop _ rest =>
      have few : above ≤ _ := above_least.2 rest
      omega
    | replace _ _ rest =>
      have few : corner ≤ _ := corner_least.2 rest
      split <;> omega

/-- A row holds the distances of one text to another one, `done`, and to what that becomes item
by item. Both texts are held from behind, so that items join them in front. -/
inductive Row (source : List α) : List α → List α → List Nat → Prop where
  | last {done : List α} {count : Nat} (least : Least source done count) :
      Row source done [] [count]
  | next {done todo : List α} {item : α} {count : Nat} {row : List Nat}
      (least : Least source done count) (others : Row source (item :: done) todo row) :
      Row source done (item :: todo) (count :: row)

theorem row_range (todo : List α) (least : Least [] done count) :
    Row [] done todo (List.range' count (todo.length + 1)) := by
  induction todo generalizing done count with
  | nil => exact .last least
  | cons item todo step => exact .next least (step (least.nil_cons item))

/-- What is filled in behind the first entry of a row completes the row. -/
theorem Row.fill [DecidableEq α] (held : Row source done todo row)
    (least : Least (item :: source) done left) :
    Row (item :: source) done todo (left :: EditDistance.fill item todo row left) := by
  induction held generalizing left with
  | last _ => exact .last least
  | next corner_least others step =>
    cases others with
    | last above_least => exact .next least (step (corner_least.cons_cons above_least least))
    | next above_least _ => exact .next least (step (corner_least.cons_cons above_least least))

theorem Row.nextRow [DecidableEq α] (held : Row source [] target row) (item : α) :
    Row (item :: source) [] target (EditDistance.nextRow target row item) := by
  have filled : ∀ left, Least (item :: source) [] left →
      Row (item :: source) [] target (left :: EditDistance.fill item target row left) :=
    fun left least => held.fill least
  cases held with
  | last least => exact filled _ (least.cons_nil item)
  | next least _ => exact filled _ (least.cons_nil item)

/-- After each item of a text the row is that of the items so far. -/
theorem Row.foldl [DecidableEq α] (held : Row source [] target row) (items : List α) :
    Row (items.reverse ++ source) [] target (items.foldl (EditDistance.nextRow target) row) := by
  induction items generalizing source row with
  | nil => exact held
  | cons item rest step => simpa using step (held.nextRow item)

/-- The last entry of a row is the distance to the whole text. -/
theorem Row.getLastD (held : Row source done todo row) :
    Least source (todo.reverse ++ done) (row.getLastD 0) := by
  induction held with
  | last least => exact least
  | @next done todo item count row _ others step =>
    have same : (count :: row).getLastD 0 = row.getLastD 0 := by
      cases others <;> simp
    rw [same]
    simpa using step

end Rows

/-- The edit distance counts a shortest sequence of slips: some sequence has that length, and none
that leads from the one text to the other is shorter. -/
theorem isLeast_slips [DecidableEq α] (source target : List α) :
    IsLeast {count | Slips count source target} (editDistance source target) := by
  have first : Row [] [] target (firstRow target) := by
    unfold firstRow
    rw [List.range_eq_range']
    exact row_range target least_nil_nil
  have least := (first.foldl source).getLastD
  rw [List.append_nil, List.append_nil] at least
  constructor
  · have aligned := Aligned.reverse least.1
    rw [List.reverse_reverse, List.reverse_reverse] at aligned
    exact aligned.slips
  · intro count slips
    obtain ⟨total, few, aligned⟩ := Slips.aligned slips
    exact (least.2 aligned.reverse).trans few

end EditDistance

/-- How many slips two texts are apart is the least number of characters that have to be put in,
taken out or replaced, one after another, to turn the one into the other. -/
theorem Suggestions.slips_least (source target : String) :
    IsLeast {count | EditDistance.Slips count source.toList target.toList} (slips source target) :=
  EditDistance.isLeast_slips source.toList target.toList

example : Suggestions.slips "kitten" "sitting" = 3 := by decide +kernel

end ScopeTyping
