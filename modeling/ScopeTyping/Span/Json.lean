import ScopeTyping.Fault
import ScopeTyping.Json.Basic

/-! Places in source text: byte offsets within a file, and the file they are in. As JSON a
file is its number, and spans and places are records. -/
namespace ScopeTyping

/-- Byte offsets from `start` (included) to `stop` (excluded). -/
structure Span where
  start : Nat
  stop : Nat
  deriving DecidableEq

namespace Span

/-- No offset is larger than this: offsets are counted in 32 bits. -/
def limit : Nat := 4294967295

/-- The span of no bytes at `offset`. -/
def point (offset : Nat) : Span := ⟨offset, offset⟩

/-- The smallest span that holds both. -/
def cover (left right : Span) : Span := ⟨min left.start right.start, max left.stop right.stop⟩

/-- How many bytes the span holds; a span that stops before it starts has no length. -/
def length (span : Span) : Except Fault Nat :=
  if span.stop < span.start then .error .reversedSpan else .ok (span.stop - span.start)

/-- Whether the span holds no bytes. -/
def isEmpty (span : Span) : Bool := span.start == span.stop

/-- A span is written as its two offsets with two dots between them. -/
def text (span : Span) : String := toString span.start ++ ".." ++ toString span.stop

end Span

/-- A source file, known by its number. -/
structure FileId where
  number : Nat
  deriving DecidableEq

/-- A file is written as its number behind `file#`. -/
def FileId.text (file : FileId) : String := "file#" ++ toString file.number

/-- A span together with the file it points into. -/
structure FileSpan where
  file : FileId
  span : Span
  deriving DecidableEq

/-- A place in a file is written as the file, a colon and the span. -/
def FileSpan.text (place : FileSpan) : String := place.file.text ++ ":" ++ place.span.text

/-- The file as a value: its number. -/
def FileId.toJson (file : FileId) : Json := .ofNat file.number

/-- The file that a value stands for. -/
def FileId.ofJson? (json : Json) : Option FileId := json.word?.map FileId.mk

/-- The span as a value: a record of its offsets. -/
def Span.toJson (span : Span) : Json :=
  .object [("start", .ofNat span.start), ("end", .ofNat span.stop)]

/-- The span that a value stands for. -/
def Span.ofJson? (depth : Nat) (json : Json) : Option Span := do
  match ← json.fields? ["start", "end"] depth with
  | (_, [some start, some stop]) => return ⟨← start.word?, ← stop.word?⟩
  | _ => none

/-- The place in a file as a value: a record of the file and the span. -/
def FileSpan.toJson (place : FileSpan) : Json :=
  .object [("file", place.file.toJson), ("span", place.span.toJson)]

/-- The place in a file that a value stands for. -/
def FileSpan.ofJson? (depth : Nat) (json : Json) : Option FileSpan := do
  match ← json.fields? ["file", "span"] depth with
  | (depth, [some file, some span]) => return ⟨← FileId.ofJson? file, ← Span.ofJson? depth span⟩
  | _ => none

end ScopeTyping
