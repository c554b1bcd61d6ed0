import ScopeTyping.Fault

/-! Names stand for identifier texts. A name table hands out names in the order in
which texts are first met and never takes one back, so that a name keeps its text
for as long as the table lives: `text?_intern` and `intern_extends`. -/
namespace ScopeTyping

/-- A name is the place of its text in the table that handed it out. -/
structure Name where
  index : Nat
  deriving DecidableEq

/-- Names are numbered from one. -/
def Name.number (name : Name) : Nat := name.index + 1

/-- The name with a given number; numbers start at one. -/
def Name.ofNumber (number : Nat) : Name := ⟨number - 1⟩

/-- The texts that have a name, in the order in which they got it, none of them twice. -/
structure NameTable where
  texts : List String
  nodup : texts.Nodup

namespace NameTable

/-- The table in which no text has a name. -/
def empty : NameTable := ⟨[], List.nodup_nil⟩

/-- The name of `text`, if it has one. -/
def get? (table : NameTable) (text : String) : Option Name :=
  (table.texts.idxOf? text).map Name.mk

/-- The text that `name` stands for, if it stands for one. -/
def text? (table : NameTable) (name : Name) : Option String := table.texts[name.index]?

/-- The text that `name` stands for; a foreign name is a fault. -/
def text (table : NameTable) (name : Name) : Except Fault String :=
  match table.text? name with
  | some found => .ok found
  | none => .error .unknownName

theorem get?_eq_none_iff {table : NameTable} {text : String} :
    table.get? text = none ↔ text ∉ table.texts := by
  simp [get?, List.idxOf?_eq_none_iff]

/-- The table with `text` as its newest entry. -/
def add (table : NameTable) (text : String) (fresh : text ∉ table.texts) : NameTable where
  texts := table.texts ++ [text]
  nodup := List.nodup_append.2 ⟨table.nodup, by simp, fun held memHeld other memOther same =>
    fresh (by rw [List.mem_singleton] at memOther; exact memOther ▸ same ▸ memHeld)⟩

/-- The name of `text`, handed out now if it has none yet, and the table afterwards. -/
def intern (table : NameTable) (text : String) : Name × NameTable :=
  match known : table.get? text with
  | some name => (name, table)
  | none => (⟨table.texts.length⟩, table.add text (get?_eq_none_iff.1 known))

theorem text?_of_get? {table : NameTable} {text : String} {name : Name}
    (known : table.get? text = some name) : table.text? name = some text := by
  simp only [get?, Option.map_eq_some_iff] at known
  obtain ⟨index, found, rfl⟩ := known
  obtain ⟨bound, same, _⟩ := List.idxOf?_eq_some_iff.1 found
  simp [text?, bound, same]

/-- A text is named by the name that it was just given. -/
theorem text?_intern (table : NameTable) (text : String) :
    (table.intern text).2.text? (table.intern text).1 = some text := by
  unfold intern
  split
  · exact text?_of_get? (by assumption)
  · simp [add, text?]

/-- Handing out a name adds texts behind those that are there and changes none. -/
theorem intern_extends (table : NameTable) (text : String) :
    table.texts <+: (table.intern text).2.texts := by
  unfold intern
  split
  · exact List.prefix_refl _
  · exact List.prefix_append _ _

/-- A name keeps its text when other texts are named. -/
theorem text?_intern_of_text? {table : NameTable} {name : Name} {held : String}
    (known : table.text? name = some held) (text : String) :
    (table.intern text).2.text? name = some held := by
  obtain ⟨added, grown⟩ := intern_extends table text
  have inside : name.index < table.texts.length := (List.getElem?_eq_some_iff.1 known).1
  simpa only [text?, ← grown, List.getElem?_append_left inside] using known

end NameTable
end ScopeTyping
