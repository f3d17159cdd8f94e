/-
# Newline-delimited JSON

Each line of a chat, generate or pull answer is one JSON object. Of its members the decoder knows
`done`, `message`, `response`, `status`, `digest`, `total`, `completed` and `error`. A line that is
blank, or not such an object, yields nothing.

Key definitions: `Ndjson.Line`, `Ndjson.Line.ofNode?`, `Ndjson.Line.event?`, `Ndjson.event?`,
`errorMessage`.
-/
import LanInference.Event
import LanInference.Json.Record
import LanInference.Json.Write
import LanInference.Text.Trim

namespace LanInference

/-- The message of an error that a server reports: a string itself, the `message` of an object if
that is a string, otherwise the compact text of the value. -/
def errorMessage (v : Json.Value) : String :=
  match v with
  | .string s => s
  | .object ms =>
    match Json.Value.member? "message" ms with
    | some (.string s) => s
    | _ => v.compact
  | _ => v.compact

namespace Ndjson

/-- What a line says. `message` is the content of its message. -/
structure Line where
  done : Bool
  message : Option (Option String)
  response : Option String
  status : Option String
  digest : Option String
  total : Option UInt64
  completed : Option UInt64
  error : Option Json.Value

namespace Line

/-- The members of a line, in their order. -/
def names : List String :=
  ["done", "message", "response", "status", "digest", "total", "completed", "error"]

/-- The content of a message object, inside one container. -/
def content? (x : Json.Node) : Option (Option String) := do
  let fs ← x.record? ["content"] 1
  fs.optional? "content" Json.Node.string?

def ofNode? (x : Json.Node) : Option Line := do
  let fs ← x.record? names 0
  return {
    done := ← fs.default? "done" false Json.Node.bool?
    message := ← fs.optional? "message" content?
    response := ← fs.optional? "response" Json.Node.string?
    status := ← fs.optional? "status" Json.Node.string?
    digest := ← fs.optional? "digest" Json.Node.string?
    total := ← fs.optional? "total" Json.Node.uint64?
    completed := ← fs.optional? "completed" Json.Node.uint64?
    error := ← fs.optional? "error" (Json.Node.value? 1) }

/-- A text that is there and not empty. -/
def nonEmpty (t : Option String) : Option String := t.filter (· ≠ "")

/-- The event of a line: an error before all else, then the end, then the text of its message, then
that of its response, then its status. -/
def event? (l : Line) : Option Event :=
  match l.error with
  | some e => some (.error (.provider (errorMessage e)))
  | none =>
    if l.done then some .done
    else
      match nonEmpty l.message.join, nonEmpty l.response with
      | some t, _ => some (.delta t)
      | none, some t => some (.delta t)
      | none, none =>
        l.status.map fun status => .progress ⟨status, l.digest, l.total, l.completed⟩

end Line

/-- The event of a line of text. -/
def event? (line : List Char) : Option Event := do
  let x ← Json.Node.parse? (Text.trim line)
  let l ← Line.ofNode? x
  l.event?

end Ndjson
end LanInference
