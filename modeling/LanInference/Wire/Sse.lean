/-
# Server-sent events

Only lines that start with `data:` count. Their payload is `[DONE]`, which ends the stream, or a
JSON object with the text in `choices[0].delta.content` or a report in `error`.

Key definitions: `Sse.Chunk`, `Sse.payload?`, `Sse.event?`.
-/
import LanInference.Wire.Ndjson

namespace LanInference
namespace Sse

/-- What a payload says: the contents of its choices, and its error. -/
structure Chunk where
  choices : List (Option (Option String))
  error : Option Json.Value

namespace Chunk

/-- The content of a choice's delta, which stands inside three containers. -/
def delta? (x : Json.Node) : Option (Option String) := do
  let fs ← x.record? ["content"] 3
  fs.optional? "content" Json.Node.string?

/-- A choice, inside two containers. -/
def choice? (x : Json.Node) : Option (Option (Option String)) := do
  let fs ← x.record? ["delta"] 2
  fs.optional? "delta" delta?

def choices? (x : Json.Node) : Option (List (Option (Option String))) := do
  (← x.items? 1).mapM choice?

def ofNode? (x : Json.Node) : Option Chunk := do
  let fs ← x.record? ["choices", "error"] 0
  return {
    choices := ← fs.default? "choices" [] choices?
    error := ← fs.optional? "error" (Json.Node.value? 1) }

/-- The event of a payload: an error before all else, then the text of the first choice. -/
def event? (c : Chunk) : Option Event :=
  match c.error with
  | some e => some (.error (.provider (errorMessage e)))
  | none => (Ndjson.Line.nonEmpty (c.choices.head?.join.join)).map .delta

end Chunk

/-- The payload of a data line: what follows `data:`, without one space before it and without
blanks after it. -/
def payload? : List Char → Option (List Char)
  | 'd' :: 'a' :: 't' :: 'a' :: ':' :: ' ' :: rest => some (Text.trimEnd rest)
  | 'd' :: 'a' :: 't' :: 'a' :: ':' :: rest => some (Text.trimEnd rest)
  | _ => none

/-- The payload that ends a stream. -/
def doneMark : List Char := ['[', 'D', 'O', 'N', 'E', ']']

/-- The event of a line of text. -/
def event? (line : List Char) : Option Event := do
  let payload ← payload? line
  if payload = doneMark then return .done
  let c ← Chunk.ofNode? (← Json.Node.parse? payload)
  c.event?

end Sse
end LanInference
