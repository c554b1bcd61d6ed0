import ScopeTyping.Pass.Journal
import ScopeTyping.Proofs.Scope.Attachments
import ScopeTyping.Proofs.Typing.Agreement

/-! What two runs have in common that began in states of their own. Scopes are counted from
where each run began and names are read as texts; then what one run has added is what the
other one has added, up to renamed identifiers, and nothing that was there before has
changed. The relation is kept by everything that the pass does to its state. -/
namespace ScopeTyping

/-- Entries of two symbol tables that give one text the same type, up to renaming. -/
structure SameEntry (f : String → String) (names twins : NameTable)
    (entry twin : Name × Symbol) : Prop where
  own : entry.2.name = entry.1
  twinOwn : twin.2.name = twin.1
  typed : twin.2.ty = entry.2.ty
  named : ∃ text, names.text? entry.1 = some text ∧ twins.text? twin.1 = some (f text)

/-- Scopes that two runs opened under the same number, counted from where each began. -/
def Paired (start twinStart : Snapshot) (count : Nat) (here there : ScopeId) : Prop :=
  ∃ offset < count,
    here = ⟨start.scopes.size + offset⟩ ∧ there = ⟨twinStart.scopes.size + offset⟩

/-- Scopes alike in all that they hold. What is around them was opened before them. -/
structure SameScope (f : String → String) (start twinStart : Snapshot) (names twins : NameTable)
    (offset : Nat) (found twin : Scope) : Prop where
  kind : twin.kind = found.kind
  parent : Option.Rel (Paired start twinStart offset) found.parent twin.parent
  entries : List.Forall₂ (SameEntry f names twins) found.symbols.entries twin.symbols.entries

/-- Two runs that began in `start` and `twinStart` have each opened `count` scopes since,
the same ones in the same order, and attached them to the same nodes. -/
structure Mirror (f : String → String) (start twinStart left right : Snapshot) (count : Nat) :
    Prop where
  size : left.scopes.size = start.scopes.size + count
  twinSize : right.scopes.size = twinStart.scopes.size + count
  kept : ∀ id found, start.scopes.scope id = .ok found → left.scopes.scope id = .ok found
  twinKept : ∀ id found, twinStart.scopes.scope id = .ok found → right.scopes.scope id = .ok found
  opened : ∀ offset < count, ∃ found twin,
    left.scopes.scope ⟨start.scopes.size + offset⟩ = .ok found ∧
    right.scopes.scope ⟨twinStart.scopes.size + offset⟩ = .ok twin ∧
    SameScope f start twinStart left.names right.names offset found twin
  attached : ∀ id,
    (left.annotations.get? id = start.annotations.get? id ∧
      right.annotations.get? id = twinStart.annotations.get? id) ∨
    (start.annotations.get? id = none ∧ twinStart.annotations.get? id = none ∧
      ∃ here there, left.annotations.get? id = some here ∧
        right.annotations.get? id = some there ∧ Paired start twinStart count here there)

/-- What two runs below a node of one tree start from: no node there has a scope yet. The
second run sees the tree with its identifiers renamed. -/
structure Footing (f : String → String) (tree : Tree) (root : NodeId)
    (start twinStart : Snapshot) : Prop where
  injective : Function.Injective f
  sound : tree.Sound
  inside : root.index < tree.size
  bare : ∀ id, tree.Under id root →
    start.annotations.get? id = none ∧ twinStart.annotations.get? id = none

variable {f : String → String} {start twinStart left right : Snapshot} {count more : Nat}
  {here there : ScopeId}

theorem Paired.later (paired : Paired start twinStart count here there) (le : count ≤ more) :
    Paired start twinStart more here there := by
  obtain ⟨offset, bound, same⟩ := paired
  exact ⟨offset, by omega, same⟩

theorem optionRel_paired_later {one other : Option ScopeId}
    (paired : Option.Rel (Paired start twinStart count) one other) (le : count ≤ more) :
    Option.Rel (Paired start twinStart more) one other := by
  cases paired with
  | none => exact .none
  | some inner => exact .some (inner.later le)

/-- Related answers are both missing or both there. -/
theorem optionRel_cases {R : ScopeId → ScopeId → Prop} {one other : Option ScopeId}
    (related : Option.Rel R one other) : (one = none ∧ other = none) ∨
      ∃ here there, one = some here ∧ other = some there ∧ R here there := by
  cases related with
  | none => exact .inl ⟨rfl, rfl⟩
  | some both => exact .inr ⟨_, _, rfl, rfl, both⟩

/-- A node below another one is there. -/
theorem Footing.inside_of_under {tree : Tree} {root id : NodeId}
    (footing : Footing f tree root start twinStart) (under : tree.Under id root) :
    id.index < tree.size := by
  rcases under.cases_head with rfl | ⟨parent, below, _⟩
  · exact footing.inside
  · exact footing.sound.inside id parent below

/-! ### Entries -/

section Entries
variable {names twins names' twins' : NameTable} {entries twinEntries : List (Name × Symbol)}

theorem SameEntry.grow {entry twin : Name × Symbol} (same : SameEntry f names twins entry twin)
    (grown : names.Grows names') (twinGrown : twins.Grows twins') :
    SameEntry f names' twins' entry twin := by
  obtain ⟨text, known, twinKnown⟩ := same.named
  exact { same with named := ⟨text, grown.text? known, twinGrown.text? twinKnown⟩ }

/-- Symbols of one text go to the same place of tables alike. -/
theorem forall₂_put (injective : Function.Injective f)
    (same : List.Forall₂ (SameEntry f names twins) entries twinEntries) {symbol twin : Symbol}
    (typed : twin.ty = symbol.ty) {text : String} (known : names.text? symbol.name = some text)
    (twinKnown : twins.text? twin.name = some (f text)) :
    List.Forall₂ (SameEntry f names twins) (SymbolTable.put symbol.name symbol entries)
      (SymbolTable.put twin.name twin twinEntries) := by
  have fresh : SameEntry f names twins (symbol.name, symbol) (twin.name, twin) :=
    ⟨rfl, rfl, typed, text, known, twinKnown⟩
  induction same with
  | nil => exact .cons fresh .nil
  | @cons entry twinEntry entries twinEntries first rest step =>
    obtain ⟨held, old⟩ := entry
    obtain ⟨twinHeld, twinOld⟩ := twinEntry
    obtain ⟨text', heldKnown, twinHeldKnown⟩ := first.named
    by_cases here : held = symbol.name
    · subst here
      have texts : text' = text := Option.some.inj (heldKnown.symm.trans known)
      have there : twinHeld = twin.name :=
        NameTable.name_unique twinHeldKnown (texts ▸ twinKnown)
      subst there
      simp only [SymbolTable.put, if_true]
      exact .cons fresh rest
    · have apart : twinHeld ≠ twin.name := by
        intro there
        subst there
        have texts : text' = text :=
          injective (Option.some.inj (twinHeldKnown.symm.trans twinKnown))
        exact here (NameTable.name_unique heldKnown (texts ▸ known))
      simp only [SymbolTable.put, here, apart, if_false]
      exact .cons first step

/-- Tables alike read alike. -/
theorem reads_of_forall₂ (same : List.Forall₂ (SameEntry f names twins) entries twinEntries) :
    ∃ sight : Sight, List.Forall₂ (Reads names) entries sight ∧
      List.Forall₂ (Reads twins) twinEntries (sight.rename f) := by
  induction same with
  | nil => exact ⟨[], .nil, .nil⟩
  | @cons entry twin _ _ first _ step =>
    obtain ⟨text, known, twinKnown⟩ := first.named
    obtain ⟨sight, reads, twinReads⟩ := step
    refine ⟨(text, entry.2.ty) :: sight, .cons ⟨known, rfl⟩ reads, ?_⟩
    exact .cons ⟨twinKnown, first.typed⟩ twinReads

end Entries

theorem SameScope.grow {names twins names' twins' : NameTable} {offset : Nat} {found twin : Scope}
    (same : SameScope f start twinStart names twins offset found twin)
    (grown : names.Grows names') (twinGrown : twins.Grows twins') :
    SameScope f start twinStart names' twins' offset found twin :=
  { same with entries := same.entries.imp fun _ _ entry => entry.grow grown twinGrown }

namespace Mirror

/-- Every run mirrors itself before it has done anything, and so does every other one. -/
theorem refl (f : String → String) (start twinStart : Snapshot) :
    Mirror f start twinStart start twinStart 0 where
  size := rfl
  twinSize := rfl
  kept _ _ held := held
  twinKept _ _ held := held
  opened _ bound := absurd bound (Nat.not_lt_zero _)
  attached _ := .inl ⟨rfl, rfl⟩

/-- Paired scopes are there in both forests, and alike. -/
theorem scopes (mirror : Mirror f start twinStart left right count)
    (paired : Paired start twinStart count here there) : ∃ offset found twin,
      left.scopes.scope here = .ok found ∧ right.scopes.scope there = .ok twin ∧
      SameScope f start twinStart left.names right.names offset found twin := by
  obtain ⟨offset, bound, rfl, rfl⟩ := paired
  exact ⟨offset, mirror.opened offset bound⟩

/-- Paired scopes show the same. -/
theorem sees (mirror : Mirror f start twinStart left right count)
    (paired : Paired start twinStart count here there) : ∃ sight,
      Sees left.scopes left.names here sight ∧
      Sees right.scopes right.names there (sight.rename f) := by
  obtain ⟨offset, bound, rfl, rfl⟩ := paired
  induction offset using Nat.strongRecOn with
  | ind offset step =>
    obtain ⟨found, twin, held, twinHeld, same⟩ := mirror.opened offset bound
    obtain ⟨own, reads, twinReads⟩ := reads_of_forall₂ same.entries
    rcases optionRel_cases same.parent with ⟨alone, twinAlone⟩ | ⟨outer, twinOuter, around,
      twinAround, nearer, before, rfl, rfl⟩
    · exact ⟨own, .outermost held alone reads, .outermost twinHeld twinAlone twinReads⟩
    · obtain ⟨sight, sees, twinSees⟩ := step nearer before (by omega)
      refine ⟨own ++ sight, sees.inside held around ?_ reads, ?_⟩
      · exact Nat.add_lt_add_left before _
      · rw [Sight.rename_append]
        exact twinSees.inside twinHeld twinAround (Nat.add_lt_add_left before _) twinReads

/-- Views of both runs from paired scopes are twins. -/
theorem twins {tree : Tree} {root : NodeId} (footing : Footing f tree root start twinStart)
    (mirror : Mirror f start twinStart left right count)
    (paired : Paired start twinStart count here there) : ∃ sight,
      Twins f (fun _ => False) (left.view tree) (right.view (tree.rename f)) here there sight
        (sight.rename f) left.names right.names := by
  obtain ⟨sight, sees, twinSees⟩ := mirror.sees paired
  refine ⟨sight, ⟨rfl, footing.sound⟩, footing.injective, sees, twinSees, ?_, .inr rfl⟩
  intro text ty shown
  rw [Sight.lookup_rename footing.injective, shown]

/-- Below the node where both runs began, every node has paired scopes, or none in either. -/
theorem annotated {tree : Tree} {root id : NodeId} (footing : Footing f tree root start twinStart)
    (mirror : Mirror f start twinStart left right count) (under : tree.Under id root) :
    Option.Rel (Paired start twinStart count) (left.annotations.get? id)
      (right.annotations.get? id) := by
  obtain ⟨bare, twinBare⟩ := footing.bare id under
  rcases mirror.attached id with ⟨same, twinSame⟩ | ⟨_, _, here, there, held, twinHeld, paired⟩
  · rw [same, twinSame, bare, twinBare]
    exact .none
  · rw [held, twinHeld]
    exact .some paired

/-! ### What the pass does to its state -/

/-- Names handed out since change nothing. -/
theorem grow {names twins : NameTable} (mirror : Mirror f start twinStart left right count)
    (grown : left.names.Grows names) (twinGrown : right.names.Grows twins) :
    Mirror f start twinStart { left with names } { right with names := twins } count where
  size := mirror.size
  twinSize := mirror.twinSize
  kept := mirror.kept
  twinKept := mirror.twinKept
  opened offset bound := by
    obtain ⟨found, twin, held, twinHeld, same⟩ := mirror.opened offset bound
    exact ⟨found, twin, held, twinHeld, same.grow grown twinGrown⟩
  attached := mirror.attached

/-- The next scope of one run is the next one of the other. -/
theorem paired_next (mirror : Mirror f start twinStart left right count) :
    Paired start twinStart (count + 1) ⟨left.scopes.size⟩ ⟨right.scopes.size⟩ :=
  ⟨count, Nat.lt_succ_self count, congrArg ScopeId.mk mirror.size,
    congrArg ScopeId.mk mirror.twinSize⟩

theorem create (mirror : Mirror f start twinStart left right count)
    {parent twinParent : Option ScopeId}
    (parents : Option.Rel (Paired start twinStart count) parent twinParent) (kind : ScopeKind) :
    Mirror f start twinStart { left with scopes := (left.scopes.create parent kind).2 }
      { right with scopes := (right.scopes.create twinParent kind).2 } (count + 1) where
  size := by
    rw [Forest.size_create, mirror.size, Nat.add_assoc]
  twinSize := by
    rw [Forest.size_create, mirror.twinSize, Nat.add_assoc]
  kept id found held := Forest.scope_create_of_ok (mirror.kept id found held) parent kind
  twinKept id found held := Forest.scope_create_of_ok (mirror.twinKept id found held) twinParent kind
  opened offset bound := by
    rcases Nat.lt_succ_iff_lt_or_eq.1 bound with earlier | rfl
    · obtain ⟨found, twin, held, twinHeld, same⟩ := mirror.opened offset earlier
      exact ⟨found, twin, Forest.scope_create_of_ok held parent kind,
        Forest.scope_create_of_ok twinHeld twinParent kind, same⟩
    · rw [← mirror.size, ← mirror.twinSize]
      exact ⟨_, _, Forest.scope_create left.scopes parent kind,
        Forest.scope_create right.scopes twinParent kind, rfl, parents, .nil⟩
  attached id := by
    apply (mirror.attached id).imp_right
    rintro ⟨free, twinFree, here, there, held, twinHeld, paired⟩
    exact ⟨free, twinFree, here, there, held, twinHeld, paired.later (Nat.le_succ count)⟩

/-- A text is bound to one type in paired scopes. -/
theorem insert (mirror : Mirror f start twinStart left right count)
    (injective : Function.Injective f) (paired : Paired start twinStart count here there)
    {symbol twin : Symbol} (typed : twin.ty = symbol.ty) {text : String}
    (known : left.names.text? symbol.name = some text)
    (twinKnown : right.names.text? twin.name = some (f text)) {replaced twinReplaced : Option Symbol}
    {scopes twinScopes : Forest} (done : left.scopes.insert here symbol = .ok (replaced, scopes))
    (twinDone : right.scopes.insert there twin = .ok (twinReplaced, twinScopes)) :
    Mirror f start twinStart { left with scopes } { right with scopes := twinScopes } count := by
  obtain ⟨place, placeBound, rfl, rfl⟩ := paired
  have old : ∀ {forest : Forest} {id : ScopeId} {found : Scope}, forest.scope id = .ok found →
      id ≠ ⟨forest.size + place⟩ := by
    intro forest id found held same
    have inside := Forest.lt_size_of_scope held
    rw [same] at inside
    exact absurd inside (by simp)
  constructor
  · exact (Forest.size_insert done).trans mirror.size
  · exact (Forest.size_insert twinDone).trans mirror.twinSize
  · exact fun id found held =>
      Forest.scope_insert_of_ne done (old held) (mirror.kept id found held)
  · exact fun id found held =>
      Forest.scope_insert_of_ne twinDone (old held) (mirror.twinKept id found held)
  · intro offset bound
    obtain ⟨found, other, held, otherHeld, same⟩ := mirror.opened offset bound
    by_cases here : offset = place
    · subst here
      refine ⟨_, _, Forest.scope_insert_self done held, Forest.scope_insert_self twinDone otherHeld,
        same.kind, same.parent, ?_⟩
      exact forall₂_put injective same.entries typed known twinKnown
    · have apart : ∀ size, (⟨size + offset⟩ : ScopeId) ≠ ⟨size + place⟩ := by
        intro size equal
        have indices := congrArg ScopeId.index equal
        simp only at indices
        omega
      exact ⟨found, other, Forest.scope_insert_of_ne done (apart _) held,
        Forest.scope_insert_of_ne twinDone (apart _) otherHeld, same⟩
  · exact mirror.attached

/-- A scope is attached to one node of both trees. -/
theorem attach (mirror : Mirror f start twinStart left right count) {id : NodeId}
    (bare : start.annotations.get? id = none ∧ twinStart.annotations.get? id = none)
    (paired : Paired start twinStart count here there) {annotations twins : Annotations}
    (done : left.annotations.attach? id here = some annotations)
    (twinDone : right.annotations.attach? id there = some twins) :
    Mirror f start twinStart { left with annotations } { right with annotations := twins } count where
  size := mirror.size
  twinSize := mirror.twinSize
  kept := mirror.kept
  twinKept := mirror.twinKept
  opened := mirror.opened
  attached other := by
    rw [Annotations.get?_attach? done, Annotations.get?_attach? twinDone]
    by_cases same : other = id
    · subst same
      simp only [if_true]
      exact .inr ⟨bare.1, bare.2, here, there, rfl, rfl, paired⟩
    · simp only [same, if_false]
      exact mirror.attached other

end Mirror
end ScopeTyping
