import ScopeTyping.Proofs.Scope.Chain
import ScopeTyping.Proofs.Ty.Encoding
import ScopeTyping.Scope.Json

/-! Encoding and decoding of forests. A forest whose numbers fit into 32 bits and whose types are
nested no deeper than a decoder looks is what its value is decoded to (`Portable.ofJson?_toJson`),
and a decoder gives no other forests (`portable_of_ofJson?`); each layer of a forest has these two
lemmas. -/
namespace ScopeTyping

/-! ### Symbols -/

/-- The number of the name fits into 32 bits. -/
def Name.Portable (name : Name) : Prop := name.number ≤ Json.wordLimit

theorem Name.Portable.ofDigits? {name : Name} (portable : name.Portable) :
    Name.ofDigits? (toString name.number) = some name := by
  rw [Name.ofDigits?, Json.wordOfDigits?_toString portable]
  rfl

theorem Name.portable_of_ofDigits? {digits : String} {name : Name}
    (known : Name.ofDigits? digits = some name) : name.Portable := by
  unfold Name.ofDigits? at known
  split at known
  · rename_i index spelled
    cases known
    exact Json.le_of_wordOfDigits? spelled
  · cases known

theorem Name.Portable.ofJson?_toJson {name : Name} (portable : name.Portable) :
    Name.ofJson? name.toJson = some name := portable.ofDigits?

theorem Name.portable_of_ofJson? {json : Json} {name : Name}
    (known : Name.ofJson? json = some name) : name.Portable := by
  unfold Name.ofJson? at known
  split at known
  · exact Name.portable_of_ofDigits? known
  · cases known

/-- A symbol whose name fits into 32 bits and whose type is nested no deeper than `limit`. -/
structure Symbol.Portable (limit : Nat) (symbol : Symbol) : Prop where
  name : symbol.name.Portable
  type : symbol.ty.nesting ≤ limit

theorem Symbol.plain_toJson (symbol : Symbol) : symbol.toJson.Plain := by
  apply Json.Plain.object
  · simp [Json.PlainBody, Json.isPlain]
  · simp [Ty.plain_toJson, Name.toJson, Json.Plain.number]

theorem Symbol.Portable.ofJson?_toJson {limit : Nat} {symbol : Symbol}
    (portable : symbol.Portable limit) :
    Symbol.ofJson? (limit + 1) symbol.toJson = some symbol := by
  have fields : symbol.toJson.fields? ["name", "ty"] (limit + 1) =
      some (limit, [some symbol.name.toJson, some symbol.ty.toJson]) :=
    Json.fields?_record ["name", "ty"] [symbol.name.toJson, symbol.ty.toJson] (by decide)
      (by decide) rfl limit
  simp [Symbol.ofJson?, fields, portable.name.ofJson?_toJson, Ty.ofJson?_toJson portable.type]

theorem Symbol.portable_of_ofJson? {limit : Nat} {json : Json} {symbol : Symbol}
    (known : Symbol.ofJson? (limit + 1) json = some symbol) : symbol.Portable limit := by
  obtain ⟨⟨below, values⟩, fields, known⟩ := Option.bind_eq_some_iff.1 known
  cases Json.depth_of_fields? fields
  split at known
  · rename_i shape
    cases shape
    obtain ⟨found, named, known⟩ := Option.bind_eq_some_iff.1 known
    obtain ⟨ty, typed, same⟩ := Option.bind_eq_some_iff.1 known
    cases same
    exact ⟨Name.portable_of_ofJson? named, Ty.nesting_le_of_ofJson? typed⟩
  · cases known

/-! ### Tables -/

namespace SymbolTable

/-- Entries with new keys are put in behind those that are there. -/
theorem entries_foldl_insert {table : SymbolTable} {pairs : List (Name × Symbol)}
    (distinct : ((table.entries ++ pairs).map Prod.fst).Nodup) :
    (pairs.foldl (fun table (key, symbol) => table.insert key symbol) table).entries =
      table.entries ++ pairs := by
  induction pairs generalizing table with
  | nil => simp
  | cons pair rest step =>
    obtain ⟨key, symbol⟩ := pair
    have fresh : key ∉ table.entries.map Prod.fst := by
      rw [List.map_append, List.nodup_append] at distinct
      exact fun member => distinct.2.2 key member key (by simp) rfl
    have first : (table.insert key symbol).entries = table.entries ++ [(key, symbol)] :=
      put_of_not_mem fresh
    rw [List.foldl_cons, step (by simpa [first] using distinct), first]
    simp

theorem eq_of_entries {table other : SymbolTable} (same : table.entries = other.entries) :
    table = other := by
  cases table
  cases other
  cases same
  rfl

/-- The entries of a table make it up. -/
theorem ofList_entries (table : SymbolTable) : ofList table.entries = table := by
  apply eq_of_entries
  exact entries_foldl_insert table.distinct

/-- A table made of pairs holds nothing else. -/
theorem mem_of_mem_foldl_insert {table : SymbolTable} {pairs : List (Name × Symbol)}
    {entry : Name × Symbol} (member : entry ∈
      (pairs.foldl (fun table (key, symbol) => table.insert key symbol) table).entries) :
    entry ∈ table.entries ∨ entry ∈ pairs := by
  induction pairs generalizing table with
  | nil => exact .inl member
  | cons pair rest step =>
    rcases step member with there | later
    · rcases mem_put there with rfl | earlier
      · exact .inr (List.mem_cons_self ..)
      · exact .inl earlier
    · exact .inr (List.mem_cons_of_mem _ later)

/-- Every key fits into 32 bits, and every symbol can be encoded. -/
def Portable (limit : Nat) (table : SymbolTable) : Prop :=
  ∀ entry ∈ table.entries, entry.1.Portable ∧ entry.2.Portable limit

theorem plain_toJson (table : SymbolTable) : table.toJson.Plain := by
  apply Json.Plain.object
  · exact List.forall_mem_map.2 fun entry _ => Json.plainBody_toString entry.1.number
  · exact List.forall_mem_map.2 fun entry _ => entry.2.plain_toJson

theorem Portable.ofJson?_toJson {limit : Nat} {table : SymbolTable}
    (portable : table.Portable limit) : ofJson? (limit + 2) table.toJson = some table := by
  have entries : (table.entries.map fun entry => (toString entry.1.number, entry.2.toJson)).mapM
      (fun member => (Name.ofDigits? member.1).bind fun name =>
        (Symbol.ofJson? (limit + 1) member.2).bind fun symbol => some (name, symbol)) =
      some (table.entries.map id) := by
    rw [List.mapM_map]
    apply mapM_eq_pure
    intro entry member
    obtain ⟨key, symbol⟩ := portable entry member
    simp only [Function.comp_apply, key.ofDigits?, symbol.ofJson?_toJson, Option.bind_some]
    rfl
  rw [List.map_id] at entries
  calc ofJson? (limit + 2) table.toJson
    _ = (some table.entries).bind fun pairs => some (ofList pairs) :=
      congrArg (Option.bind · fun pairs => some (ofList pairs)) entries
    _ = some table := congrArg some table.ofList_entries

theorem portable_of_ofJson? {limit : Nat} {json : Json} {table : SymbolTable}
    (known : ofJson? (limit + 2) json = some table) : table.Portable limit := by
  unfold ofJson? at known
  split at known
  · rename_i shape
    cases shape
    obtain ⟨pairs, each, same⟩ := Option.bind_eq_some_iff.1 known
    cases same
    intro entry member
    rcases mem_of_mem_foldl_insert member with none | among
    · cases none
    · obtain ⟨⟨key, value⟩, _, found⟩ := mem_of_mapM_eq_some each entry among
      obtain ⟨name, named, found⟩ := Option.bind_eq_some_iff.1 found
      obtain ⟨symbol, held, same⟩ := Option.bind_eq_some_iff.1 found
      cases same
      exact ⟨Name.portable_of_ofDigits? named, Symbol.portable_of_ofJson? held⟩
  · cases known

end SymbolTable

/-! ### Scopes -/

theorem ScopeId.ofJson?_toJson {id : ScopeId} (small : id.index ≤ Json.wordLimit) :
    ScopeId.ofJson? id.toJson = some id := by
  rw [ScopeId.ofJson?, ScopeId.toJson, Json.ofNat, Json.word?, Json.wordOfDigits?_toString small]
  rfl

theorem ScopeId.le_of_ofJson? {json : Json} {id : ScopeId}
    (known : ScopeId.ofJson? json = some id) : id.index ≤ Json.wordLimit := by
  obtain ⟨number, word, rfl⟩ := Option.map_eq_some_iff.1 known
  unfold Json.word? at word
  split at word
  · exact Json.le_of_wordOfDigits? word
  · cases word

theorem ScopeKind.plainBody_tag (kind : ScopeKind) : Json.PlainBody kind.tag := by
  cases kind <;> decide

theorem ScopeKind.ofJson?_toJson (depth : Nat) (kind : ScopeKind) :
    ScopeKind.ofJson? depth kind.toJson = some kind := by
  have known : ScopeKind.ofTag? kind.tag = some kind := by cases kind <;> decide
  rw [ScopeKind.toJson, ScopeKind.ofJson?, Json.unescape_of_plain kind.plainBody_tag]
  exact known

namespace Scope

/-- A scope whose numbers fit into 32 bits and whose types are nested no deeper than `limit`. -/
structure Portable (limit : Nat) (scope : Scope) : Prop where
  parent : ∀ around ∈ scope.parent, around.index ≤ Json.wordLimit
  symbols : scope.symbols.Portable limit

theorem plain_toJson (scope : Scope) : scope.toJson.Plain := by
  apply Json.Plain.object
  · simp [Json.PlainBody, Json.isPlain]
  · have parent : (parentToJson scope.parent).Plain := by
      cases scope.parent with
      | none => exact .null
      | some around => exact .number around.index
    have kind : scope.kind.toJson.Plain := .string scope.kind.plainBody_tag
    simp [parent, kind, SymbolTable.plain_toJson]

theorem parentOfJson?_parentToJson {parent : Option ScopeId}
    (small : ∀ around ∈ parent, around.index ≤ Json.wordLimit) :
    parentOfJson? (parentToJson parent) = some parent := by
  cases parent with
  | none => rfl
  | some around =>
    show (ScopeId.ofJson? around.toJson).map some = some (some around)
    rw [ScopeId.ofJson?_toJson (small around rfl)]
    rfl

theorem le_of_parentOfJson? {json : Json} {parent : Option ScopeId}
    (known : parentOfJson? json = some parent) :
    ∀ around ∈ parent, around.index ≤ Json.wordLimit := by
  unfold parentOfJson? at known
  split at known
  · cases known
    simp
  · obtain ⟨around, found, rfl⟩ := Option.map_eq_some_iff.1 known
    rintro other ⟨⟩
    exact ScopeId.le_of_ofJson? found

theorem Portable.ofJson?_toJson {limit : Nat} {scope : Scope} (portable : scope.Portable limit) :
    ofJson? (limit + 3) scope.toJson = some scope := by
  have fields : scope.toJson.fields? ["parent", "kind", "symbols"] (limit + 3) =
      some (limit + 2, [some (parentToJson scope.parent), some scope.kind.toJson,
        some scope.symbols.toJson]) :=
    Json.fields?_record ["parent", "kind", "symbols"]
      [parentToJson scope.parent, scope.kind.toJson, scope.symbols.toJson] (by decide) (by decide)
      rfl (limit + 2)
  simp [ofJson?, fields, parentOfJson?_parentToJson portable.parent, ScopeKind.ofJson?_toJson,
    portable.symbols.ofJson?_toJson]

theorem portable_of_ofJson? {limit : Nat} {json : Json} {scope : Scope}
    (known : ofJson? (limit + 3) json = some scope) : scope.Portable limit := by
  obtain ⟨⟨below, values⟩, fields, known⟩ := Option.bind_eq_some_iff.1 known
  cases Json.depth_of_fields? fields
  split at known
  · rename_i shape
    cases shape
    obtain ⟨parent, placed, known⟩ := Option.bind_eq_some_iff.1 known
    obtain ⟨kind, _, known⟩ := Option.bind_eq_some_iff.1 known
    obtain ⟨symbols, held, same⟩ := Option.bind_eq_some_iff.1 known
    cases same
    exact ⟨le_of_parentOfJson? placed, SymbolTable.portable_of_ofJson? held⟩
  · cases known

end Scope

/-! ### Forests -/

namespace Forest

/-- How deeply types may be nested: as deep as a decoder looks, less the five levels around them. -/
def typeLimit : Nat := Json.deepest - 5

/-- Every scope has numbers of 32 bits and types that are not nested too deeply. -/
def Portable (forest : Forest) : Prop := ∀ scope ∈ forest.scopes, scope.Portable typeLimit

theorem plain_toJson (forest : Forest) : forest.toJson.Plain := by
  apply Json.Plain.object
  · simp [Json.PlainBody, Json.isPlain]
  · simp only [List.forall_mem_singleton]
    apply Json.Plain.array
    exact List.forall_mem_map.2 fun scope _ => scope.plain_toJson

theorem Portable.ofJson?_toJson {forest : Forest} (portable : forest.Portable) :
    ofJson? Json.deepest forest.toJson = some forest := by
  have fields : forest.toJson.fields? ["scopes"] (typeLimit + 5) =
      some (typeLimit + 4, [some (.array (forest.scopes.map Scope.toJson))]) :=
    Json.fields?_record ["scopes"] [.array (forest.scopes.map Scope.toJson)] (by decide)
      (by decide) rfl (typeLimit + 4)
  have scopes : (forest.scopes.map Scope.toJson).mapM (Scope.ofJson? (typeLimit + 3)) =
      some (forest.scopes.map id) := by
    rw [List.mapM_map]
    exact mapM_eq_pure fun scope member => (portable scope member).ofJson?_toJson
  show ofJson? (typeLimit + 5) forest.toJson = some forest
  simp [ofJson?, fields, scopes]

theorem portable_of_ofJson? {json : Json} {forest : Forest}
    (known : ofJson? Json.deepest json = some forest) : forest.Portable := by
  obtain ⟨⟨below, values⟩, fields, known⟩ := Option.bind_eq_some_iff.1 known
  split at known
  · rename_i shape
    cases shape
    obtain ⟨scopes, each, same⟩ := Option.bind_eq_some_iff.1 known
    cases same
    cases Json.depth_of_fields? fields
    intro scope member
    obtain ⟨source, _, found⟩ := mem_of_mapM_eq_some each scope member
    exact Scope.portable_of_ofJson? found
  · cases known

/-- Decoding undoes encoding: a forest with numbers of 32 bits and types that are not nested deeper
than a decoder looks is what its text is decoded to. Every forest that was decoded from some text is
of this kind, so to encode it and decode it again changes nothing. -/
theorem decode?_encode (forest : Forest) :
    (forest.Portable → decode? forest.encode = some forest) ∧
    ∀ text, decode? text = some forest → decode? forest.encode = some forest := by
  have undone : forest.Portable → decode? forest.encode = some forest := by
    intro portable
    rw [decode?, encode, Json.parse?_render forest.plain_toJson]
    exact portable.ofJson?_toJson
  refine ⟨undone, ?_⟩
  intro text decoded
  obtain ⟨json, _, known⟩ := Option.bind_eq_some_iff.1 decoded
  exact undone (portable_of_ofJson? known)

/-- A scope inside one that is not there, with a symbol under the key of another one; and a text
that leaves out the parent and has the same key twice. -/
theorem decode?_encode_foreign :
    let forest : Forest := ⟨[⟨some ⟨4294967295⟩, .loop,
      ⟨[(⟨6⟩, ⟨⟨8⟩, .map .string (.list .int)⟩)], by decide⟩⟩]⟩
    let text := "\x7b\"scopes\":[\x7b\"kind\":\"Loop\",\"symbols\":" ++
      "\x7b\"7\":[9,\"Int\"],\"7\":[8,\"Any\"]\x7d\x7d]\x7d"
    forest.Portable ∧ decode? forest.encode = some forest ∧
      ∃ other, decode? text = some other ∧ decode? other.encode = some other := by
  intro forest text
  have portable : forest.Portable := by
    simp only [Portable, forest, List.forall_mem_singleton]
    constructor
    · rintro around ⟨⟩
      decide
    · simp only [SymbolTable.Portable, List.forall_mem_singleton]
      exact ⟨by unfold Name.Portable; decide, by unfold Name.Portable; decide, by decide⟩
  have decoded : decode? text = some ⟨[⟨none, .loop, ⟨[(⟨6⟩, ⟨⟨7⟩, .any⟩)], by decide⟩⟩]⟩ := by
    decide +kernel
  exact ⟨portable, (decode?_encode forest).1 portable, _, decoded,
    (decode?_encode _).2 text decoded⟩

end Forest
end ScopeTyping
