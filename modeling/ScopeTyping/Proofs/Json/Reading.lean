import Mathlib.Data.List.Basic
import ScopeTyping.Json.Reader
import ScopeTyping.Proofs.Outcome

/-! Reading back what was written. A value of plain strings and whole numbers is what one reads in
its compact text (`parse?_render`). Plain strings stand for themselves (`unescape_of_plain`), the
digits of a number of 32 bits for that number (`wordOfDigits?_toString`), and a record for its
fields (`fields?_record`). -/
namespace ScopeTyping
namespace Json

/-! ### Numbers -/

/-- The usual digits of a number start with a zero only if there is no other digit. -/
theorem length_toDigits_of_head {number : Nat}
    (zero : (Nat.toDigits 10 number).head? = some '0') :
    (Nat.toDigits 10 number).length = 1 := by
  induction number using Nat.strongRecOn with
  | ind number step =>
    by_cases small : number < 10
    · simp [Nat.toDigits_of_lt_base small]
    · have large : 10 ≤ number := by omega
      rw [Nat.toDigits_of_base_le (by decide) large,
        List.head?_append_of_ne_nil _ Nat.toDigits_ne_nil] at zero
      obtain ⟨digit, alone⟩ := List.length_eq_one_iff.1 (step (number / 10) (by omega) zero)
      have value := Nat.ofDigitChars_ten_toDigits (n := number / 10)
      have digitZero : digit = '0' := by simpa [alone] using zero
      rw [alone, digitZero] at value
      have none : 0 = number / 10 := value
      omega

theorem ne_of_isDigit {c other : Char} (digit : c.isDigit = true) (none : other.isDigit = false) :
    c ≠ other := by
  rintro rfl
  rw [digit] at none
  cases none

theorem toDigits_eq_cons (number : Nat) :
    ∃ first rest, Nat.toDigits 10 number = first :: rest ∧ first.isDigit = true := by
  cases chars : Nat.toDigits 10 number with
  | nil => exact absurd chars Nat.toDigits_ne_nil
  | cons first rest =>
    have member : first ∈ Nat.toDigits 10 number := by simp [chars]
    exact ⟨first, rest, rfl, Nat.isDigit_of_mem_toDigits (by decide) (by decide) member⟩

/-- Digits of a number that fits into 32 bits stand for it. -/
theorem wordOfDigits?_toString {number : Nat} (small : number ≤ wordLimit) :
    wordOfDigits? (toString number) = some number := by
  have value := Nat.ofDigitChars_ten_toDigits (n := number)
  have digits : ∀ c ∈ Nat.toDigits 10 number, c.isDigit = true :=
    fun c member => Nat.isDigit_of_mem_toDigits (by decide) (by decide) member
  have leading : (Nat.toDigits 10 number).head? = some '0' →
      (Nat.toDigits 10 number).length = 1 := length_toDigits_of_head
  unfold wordOfDigits?
  rw [Nat.toString_eq_ofList_toDigits, String.toList_ofList]
  obtain ⟨first, rest, chars, _⟩ := toDigits_eq_cons number
  rw [chars] at value digits leading ⊢
  have usual : ((first == '0' && !rest.isEmpty) || !(first :: rest).all Char.isDigit) = false := by
    simp_all
  have folded : (first :: rest).foldl (fun value c => value * 10 + (c.toNat - '0'.toNat)) 0 =
      number := by
    rw [← value, Nat.ofDigitChars_eq_foldl]
    simp only [Nat.mul_comm 10]
  simp only [usual, folded, small, Bool.false_eq_true, if_false, if_true]

/-- What digits stand for fits into 32 bits. -/
theorem le_of_wordOfDigits? {digits : String} {number : Nat}
    (known : wordOfDigits? digits = some number) : number ≤ wordLimit := by
  unfold wordOfDigits? at known
  split at known
  · cases known
  · dsimp only at known
    split at known
    · cases known
    · split at known
      · cases known
        assumption
      · cases known

/-! ### Texts -/

/-- A character that stands for itself in a string. -/
def isPlain (c : Char) : Bool := c != '"' && c != '\\' && decide (0x20 ≤ c.toNat)

/-- A string body in which every character stands for itself. -/
def PlainBody (body : String) : Prop := ∀ c ∈ body.toList, isPlain c = true

instance (body : String) : Decidable (PlainBody body) :=
  decidable_of_iff (body.toList.all isPlain = true) List.all_eq_true

theorem isPlain_of_isDigit {c : Char} (digit : c.isDigit = true) : isPlain c = true := by
  have large : 0x20 ≤ c.toNat := Nat.le_trans (by decide) (Char.isDigit_iff_toNat.1 digit).1
  simp [isPlain, ne_of_isDigit digit (rfl : '"'.isDigit = false),
    ne_of_isDigit digit (rfl : '\\'.isDigit = false), large]

theorem plainBody_toString (number : Nat) : PlainBody (toString number) := by
  intro c member
  rw [Nat.toString_eq_ofList_toDigits, String.toList_ofList] at member
  exact isPlain_of_isDigit (Nat.isDigit_of_mem_toDigits (by decide) (by decide) member)

theorem unescapeChars_of_plain {chars : List Char} (plain : ∀ c ∈ chars, isPlain c = true) :
    unescapeChars chars = some chars := by
  induction chars with
  | nil => rfl
  | cons c rest step =>
    have own : c ≠ '\\' := by
      rintro rfl
      cases plain '\\' (by simp)
    simp [unescapeChars, own, step fun later member => plain later (by simp [member])]

/-- A plain body stands for itself. -/
theorem unescape_of_plain {body : String} (plain : PlainBody body) : unescape body = some body := by
  rw [unescape, unescapeChars_of_plain plain]
  simp

/-- A plain body is read up to the quotation mark behind it. -/
theorem stringBody?_of_plain {chars rest : List Char} (plain : ∀ c ∈ chars, isPlain c = true) :
    stringBody? (chars ++ '"' :: rest) = some (chars, rest) := by
  induction chars with
  | nil => simp [stringBody?]
  | cons c others step =>
    have first : isPlain c = true := plain c (by simp)
    simp only [isPlain, Bool.and_eq_true, bne_iff_ne, decide_eq_true_eq] at first
    obtain ⟨⟨noQuote, noEscape⟩, high⟩ := first
    have low : ¬ c.toNat < 0x20 := by omega
    simp [stringBody?, noEscape, low,
      step fun later member => plain later (by simp [member])]

/-! ### Values -/

/-- Values of plain strings and whole numbers. -/
inductive Plain : Json → Prop
  | null : Plain .null
  | bool (value : Bool) : Plain (.bool value)
  | number (value : Nat) : Plain (.ofNat value)
  | string {body : String} (plain : PlainBody body) : Plain (.string body)
  | array {items : List Json} (each : ∀ item ∈ items, Plain item) : Plain (.array items)
  | object {members : List (String × Json)} (keys : ∀ member ∈ members, PlainBody member.1)
      (each : ∀ member ∈ members, Plain member.2) : Plain (.object members)

/-- The text behind a value inside another one, or behind the whole. -/
def Stops (rest : List Char) : Prop := ∀ c ∈ rest.head?, c = ',' ∨ c = ']' ∨ c = '\x7d'

/-- The value is what is read in its own text, if there is fuel for two steps a character. -/
def Reads (json : Json) : Prop :=
  ∀ fuel rest, 2 * json.render.toList.length ≤ fuel → Stops rest →
    value? fuel (json.render.toList ++ rest) = some (json, rest)

theorem Stops.not_digit {rest : List Char} (stops : Stops rest) :
    ∀ c ∈ rest.head?, c.isDigit = false := by
  intro c member
  rcases stops c member with rfl | rfl | rfl <;> rfl

theorem Stops.fraction? {rest : List Char} (stops : Stops rest) :
    fraction? rest = some ([], rest) := by
  cases rest with
  | nil => rfl
  | cons c text =>
    have other : c ≠ '.' := by rcases stops c rfl with rfl | rfl | rfl <;> decide
    simp [Json.fraction?, other]

theorem Stops.exponent? {rest : List Char} (stops : Stops rest) :
    exponent? rest = some ([], rest) := by
  cases rest with
  | nil => rfl
  | cons c text =>
    have other : ¬ (c = 'e' ∨ c = 'E') := by rcases stops c rfl with rfl | rfl | rfl <;> decide
    simp [Json.exponent?, other]

theorem skipBlank_cons {c : Char} {text : List Char} (seen : isBlank c = false) :
    skipBlank (c :: text) = c :: text := by
  simp [skipBlank, seen]

/-- Digits are read up to the first character that is none. -/
theorem digits?_append {digits rest : List Char} (inhabited : digits ≠ [])
    (each : ∀ c ∈ digits, c.isDigit = true) (ends : ∀ c ∈ rest.head?, c.isDigit = false) :
    digits? (digits ++ rest) = some (digits, rest) := by
  have front : rest.takeWhile Char.isDigit = [] ∧ rest.dropWhile Char.isDigit = rest := by
    cases rest with
    | nil => exact ⟨rfl, rfl⟩
    | cons c text => simp [ends c rfl]
  simp [digits?, List.takeWhile_append_of_pos each, List.dropWhile_append_of_pos each, front,
    inhabited]

theorem number?_toDigits (number : Nat) {rest : List Char} (stops : Stops rest) :
    number? (Nat.toDigits 10 number ++ rest) = some (Nat.toDigits 10 number, rest) := by
  have digits : digits? (Nat.toDigits 10 number ++ rest) = some (Nat.toDigits 10 number, rest) :=
    digits?_append Nat.toDigits_ne_nil
      (fun c member => Nat.isDigit_of_mem_toDigits (by decide) (by decide) member) stops.not_digit
  have whole : wholePart? (Nat.toDigits 10 number ++ rest) =
      some (Nat.toDigits 10 number, rest) := by
    simp only [wholePart?, digits, Option.bind_eq_bind, Option.bind_some]
    rw [if_neg]
    rintro ⟨zero, long⟩
    exact absurd (length_toDigits_of_head zero) (by omega)
  obtain ⟨first, others, chars, digit⟩ := toDigits_eq_cons number
  have unsigned : first ≠ '-' := ne_of_isDigit digit rfl
  rw [chars, List.cons_append] at whole ⊢
  simp [number?, unsigned, whole, stops.fraction?, stops.exponent?]

theorem isBlank_of_isDigit {c : Char} (digit : c.isDigit = true) : isBlank c = false := by
  have blank : ∀ other : Char, other.isDigit = false → (c == other) = false :=
    fun other none => beq_eq_false_iff_ne.2 (ne_of_isDigit digit none)
  simp only [isBlank, blank ' ' rfl, blank '\n' rfl, blank '\t' rfl, blank '\r' rfl, Bool.or_false]

/-- A plain value's text starts with a character that can be seen and ends nothing. -/
theorem Plain.render_cons {json : Json} (plain : Plain json) :
    ∃ c text, json.render.toList = c :: text ∧ isBlank c = false ∧ c ≠ ']' := by
  cases plain with
  | null => exact ⟨'n', ['u', 'l', 'l'], rfl, rfl, by decide⟩
  | bool value => cases value with
    | false => exact ⟨'f', ['a', 'l', 's', 'e'], rfl, rfl, by decide⟩
    | true => exact ⟨'t', ['r', 'u', 'e'], rfl, rfl, by decide⟩
  | number value =>
    obtain ⟨c, text, chars, digit⟩ := toDigits_eq_cons value
    exact ⟨c, text, by simp [ofNat, render, chars], isBlank_of_isDigit digit,
      ne_of_isDigit digit rfl⟩
  | @string body plain =>
    exact ⟨'"', body.toList ++ ['"'], by simp [render, quoted], rfl, by decide⟩
  | @array items each =>
    exact ⟨'[', (renderItems items).toList ++ [']'], by simp [render], rfl, by decide⟩
  | @object members keys each =>
    exact ⟨'\x7b', (renderMembers members).toList ++ ['\x7d'], by simp [render], rfl, by decide⟩

/-- What starts with a digit is read as a number. -/
theorem value?_of_digit {c : Char} (digit : c.isDigit = true) (fuel : Nat) (text : List Char) :
    value? (fuel + 1) (c :: text) =
      (number? (c :: text)).map fun (digits, rest) => (number (String.ofList digits), rest) := by
  rw [value?, skipBlank_cons (isBlank_of_isDigit digit)]
  split
  case h_7 => rfl
  all_goals
    rename_i same
    exact absurd (List.cons.inj same).1 (ne_of_isDigit digit rfl)

theorem reads_number (number : Nat) : Reads (ofNat number) := by
  intro fuel rest enough stops
  have digits := number?_toDigits number stops
  have spelled : (ofNat number).render.toList = Nat.toDigits 10 number := by simp [ofNat, render]
  rw [spelled] at enough ⊢
  have long : 0 < (Nat.toDigits 10 number).length := Nat.length_toDigits_pos
  obtain ⟨further, rfl⟩ := Nat.exists_eq_add_one.2 (by omega : 0 < fuel)
  obtain ⟨first, others, chars, digit⟩ := toDigits_eq_cons number
  rw [chars] at digits ⊢
  rw [List.cons_append, value?_of_digit digit, ← List.cons_append, digits, ← chars]
  simp [ofNat, Nat.repr_eq_ofList_toDigits]

theorem reads_null : Reads null := by
  intro fuel rest enough stops
  cases fuel with
  | zero => simp [render] at enough
  | succ fuel => simp [render, value?, skipBlank, isBlank]

theorem reads_bool (value : Bool) : Reads (bool value) := by
  intro fuel rest enough stops
  cases fuel with
  | zero => cases value <;> simp [render] at enough
  | succ fuel => cases value <;> simp [render, value?, skipBlank, isBlank]

theorem reads_string {body : String} (plain : PlainBody body) : Reads (string body) := by
  intro fuel rest enough stops
  cases fuel with
  | zero => simp [render, quoted] at enough
  | succ fuel =>
    have written : (string body).render.toList ++ rest = '"' :: (body.toList ++ '"' :: rest) := by
      simp [render, quoted]
    rw [written, value?, skipBlank_cons rfl]
    simp [stringBody?_of_plain plain]

theorem stops_cons {c : Char} {rest : List Char} (ends : c = ',' ∨ c = ']' ∨ c = '\x7d') :
    Stops (c :: rest) := by
  intro first member
  cases member
  exact ends

/-- Items that are each read in their texts are read together up to the bracket behind them. -/
theorem items?_render {items : List Json} (inhabited : items ≠ [])
    (each : ∀ item ∈ items, Reads item)
    (fuel : Nat) (rest : List Char) (enough : 2 * (renderItems items).toList.length + 1 ≤ fuel) :
    items? fuel ((renderItems items).toList ++ ']' :: rest) = some (items, rest) := by
  -- One step of fuel for the item and one for the comma; the text has a character for each.
  induction items generalizing fuel with
  | nil => exact absurd rfl inhabited
  | cons item others step =>
    have first : Reads item := each item (by simp)
    obtain ⟨further, rfl⟩ := Nat.exists_eq_add_one.2 (by omega : 0 < fuel)
    cases others with
    | nil =>
      simp only [renderItems] at enough ⊢
      rw [items?, first further _ (by omega) (stops_cons (by decide))]
      simp [skipBlank, isBlank]
    | cons next later =>
      have written : (renderItems (item :: next :: later)).toList =
          item.render.toList ++ ',' :: (renderItems (next :: later)).toList := by
        simp [renderItems]
      rw [written] at enough ⊢
      simp only [List.length_append, List.length_cons] at enough
      have behind := step (by simp) (fun other member => each other (by simp [member]))
        further (by omega)
      rw [List.append_assoc, List.cons_append, items?,
        first further _ (by omega) (stops_cons (by decide))]
      simp [skipBlank, isBlank, behind]

theorem renderItems_cons (item : Json) (others : List Json) :
    ∃ behind, (renderItems (item :: others)).toList = item.render.toList ++ behind := by
  cases others <;> simp [renderItems]

theorem renderMembers_cons (member : String × Json) (others : List (String × Json)) :
    ∃ behind, (renderMembers (member :: others)).toList = '"' :: behind := by
  cases others <;> simp [renderMembers, quoted]

theorem reads_array {items : List Json} (plain : ∀ item ∈ items, Plain item)
    (each : ∀ item ∈ items, Reads item) : Reads (array items) := by
  intro fuel rest enough stops
  have written : (array items).render.toList ++ rest =
      '[' :: ((renderItems items).toList ++ ']' :: rest) := by
    simp [render]
  have long : (array items).render.toList.length = (renderItems items).toList.length + 2 := by
    simp [render]
  obtain ⟨further, rfl⟩ := Nat.exists_eq_add_one.2 (by omega : 0 < fuel)
  rw [written, value?, skipBlank_cons rfl]
  cases items with
  | nil => simp [renderItems, skipBlank, isBlank]
  | cons item others =>
    have inside := items?_render (by simp) each further rest (by omega)
    obtain ⟨behind, start⟩ := renderItems_cons item others
    obtain ⟨c, text, opening, seen, opens⟩ := (plain item (by simp)).render_cons
    rw [start, opening] at inside ⊢
    simp only [List.cons_append, List.append_assoc] at inside ⊢
    simp [skipBlank_cons seen, opens, inside]

/-- Members under plain keys whose values are each read in their texts are read together up to the
bracket behind them. -/
theorem members?_render {members : List (String × Json)} (inhabited : members ≠ [])
    (keys : ∀ member ∈ members, PlainBody member.1) (each : ∀ member ∈ members, Reads member.2)
    (fuel : Nat) (rest : List Char)
    (enough : 2 * (renderMembers members).toList.length + 1 ≤ fuel) :
    members? fuel ((renderMembers members).toList ++ '\x7d' :: rest) = some (members, rest) := by
  induction members generalizing fuel with
  | nil => exact absurd rfl inhabited
  | cons member others step =>
    obtain ⟨key, value⟩ := member
    have body : ∀ text, stringBody? (key.toList ++ '"' :: text) = some (key.toList, text) :=
      fun text => stringBody?_of_plain (keys (key, value) (by simp))
    have first : Reads value := each (key, value) (by simp)
    obtain ⟨further, rfl⟩ := Nat.exists_eq_add_one.2 (by omega : 0 < fuel)
    cases others with
    | nil =>
      have written : (renderMembers [(key, value)]).toList =
          '"' :: (key.toList ++ '"' :: ':' :: value.render.toList) := by
        simp [renderMembers, quoted]
      rw [written] at enough ⊢
      simp only [List.length_append, List.length_cons] at enough
      have held := first further ('\x7d' :: rest) (by omega) (stops_cons (by decide))
      simp [members?, skipBlank, isBlank, body, held]
    | cons next later =>
      have written : (renderMembers ((key, value) :: next :: later)).toList =
          '"' :: (key.toList ++ '"' :: ':' ::
            (value.render.toList ++ ',' :: (renderMembers (next :: later)).toList)) := by
        simp [renderMembers, quoted]
      rw [written] at enough ⊢
      simp only [List.length_append, List.length_cons] at enough
      have behind := step (by simp) (fun other member => keys other (by simp [member]))
        (fun other member => each other (by simp [member])) further (by omega)
      have held := first further (',' :: ((renderMembers (next :: later)).toList ++ '\x7d' :: rest))
        (by omega) (stops_cons (by decide))
      simp [members?, skipBlank, isBlank, body, held, behind]

theorem reads_object {members : List (String × Json)}
    (keys : ∀ member ∈ members, PlainBody member.1) (each : ∀ member ∈ members, Reads member.2) :
    Reads (object members) := by
  intro fuel rest enough stops
  have written : (object members).render.toList ++ rest =
      '\x7b' :: ((renderMembers members).toList ++ '\x7d' :: rest) := by
    simp [render]
  have long : (object members).render.toList.length =
      (renderMembers members).toList.length + 2 := by
    simp [render]
  obtain ⟨further, rfl⟩ := Nat.exists_eq_add_one.2 (by omega : 0 < fuel)
  rw [written, value?, skipBlank_cons rfl]
  cases members with
  | nil => simp [renderMembers, skipBlank, isBlank]
  | cons member others =>
    have inside := members?_render (by simp) keys each further rest (by omega)
    obtain ⟨text, start⟩ := renderMembers_cons member others
    rw [start, List.cons_append] at inside ⊢
    simp [skipBlank, isBlank, inside]

/-- Every plain value is read in its text. -/
theorem Plain.reads {json : Json} (plain : Plain json) : Reads json := by
  induction plain with
  | null => exact reads_null
  | bool value => exact reads_bool value
  | number value => exact reads_number value
  | string plain => exact reads_string plain
  | array plain each => exact reads_array plain each
  | object keys _ each => exact reads_object keys each

/-- A plain value is what one reads in its compact text. -/
theorem parse?_render {json : Json} (plain : Plain json) : parse? json.render = some json := by
  have whole := plain.reads (2 * json.render.toList.length + 2) [] (by omega) (by simp [Stops])
  rw [List.append_nil] at whole
  -- To unfold the reader at `2 * _ + 2` would be too deep for the kernel, so it is rewritten whole.
  show (value? (2 * json.render.toList.length + 2) json.render.toList).bind _ = _
  rw [whole]
  rfl

/-! ### Records -/

theorem lookup_zip {names : List String} {values : List Json} (nodup : names.Nodup)
    (long : names.length = values.length) :
    names.map (fun name => (names.zip values).lookup name) = values.map some := by
  induction names generalizing values with
  | nil =>
    cases values with
    | nil => rfl
    | cons value rest => cases long
  | cons name names step =>
    cases values with
    | nil => cases long
    | cons value rest =>
      obtain ⟨fresh, others⟩ := List.nodup_cons.1 nodup
      have behind : names.map (fun other => ((name, value) :: names.zip rest).lookup other) =
          names.map (fun other => (names.zip rest).lookup other) := by
        apply List.map_congr_left
        intro other member
        have miss : (other == name) = false := by
          rw [beq_eq_false_iff_ne]
          rintro rfl
          exact fresh member
        rw [List.lookup_cons, miss]
      simp only [List.zip_cons_cons, List.map_cons, List.lookup_cons_self, behind]
      rw [step others (by simpa using long)]

/-- A record of plain names gives its values, one level further down. -/
theorem fields?_record (names : List String) (values : List Json) (nodup : names.Nodup)
    (plain : ∀ name ∈ names, PlainBody name) (long : names.length = values.length) (depth : Nat) :
    fields? names (depth + 1) (.object (names.zip values)) = some (depth, values.map some) := by
  have keys : (names.zip values).map Prod.fst = names :=
    List.map_fst_zip (Nat.le_of_eq long)
  have mem_names : ∀ member ∈ names.zip values, member.1 ∈ names :=
    fun member among => (List.of_mem_zip among).1
  have members : (names.zip values).mapM (fun member => (unescape member.1).map (·, member.2)) =
      some ((names.zip values).map id) := by
    apply mapM_eq_pure
    intro member among
    rw [unescape_of_plain (plain _ (mem_names member among))]
    rfl
  have known : (names.zip values).filter (fun member => names.contains member.1) =
      names.zip values := by
    rw [List.filter_eq_self]
    intro member among
    simpa using mem_names member among
  show (List.mapM (fun member : String × Json => (unescape member.1).map (·, member.2))
    (names.zip values)).bind _ = _
  rw [members, List.map_id]
  simp only [Option.bind_some, known, keys, nodup, if_true, lookup_zip nodup long]

/-- Looking into a record takes one level. -/
theorem depth_of_fields? {names : List String} {depth below : Nat} {json : Json}
    {values : List (Option Json)} (found : fields? names depth json = some (below, values)) :
    depth = below + 1 := by
  unfold fields? at found
  split at found
  · obtain ⟨members, _, found⟩ := Option.bind_eq_some_iff.1 found
    dsimp only at found
    split at found
    · cases found
      rfl
    · cases found
  · split at found
    · cases found
      rfl
    · cases found
  · cases found

end Json
end ScopeTyping
