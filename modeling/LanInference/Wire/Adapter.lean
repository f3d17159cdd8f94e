/-
# From a chunked body to events

An adapter takes the body of an answer chunk by chunk and gives the events of each line that a
chunk completes. It stops at the first terminal event; when the body ends it takes what stands
after the last newline as a line, and closes the stream with `done` if nothing else has.

Key definitions: `WireFormat`, `WireFormat.event?`, `Adapter`, `Adapter.feed`, `Adapter.finish`,
`Adapter.feedAll`.
-/
import LanInference.Wire.LineBuffer
import LanInference.Wire.Sse

namespace LanInference

/-- How a body carries its events. -/
inductive WireFormat where
  | ndjson
  | sse
  deriving Repr, DecidableEq

namespace WireFormat

/-- The event of one line. -/
def event? : WireFormat → String → Option Event
  | ndjson, line => Ndjson.event? line.toList
  | sse, line => Sse.event? line.toList

/-- What a client asks for in its `Accept` header. -/
def mediaType : WireFormat → String
  | ndjson => "application/x-ndjson"
  | sse => "text/event-stream"

end WireFormat

/-- The state of an adapter: the line it is in, and whether it has given a terminal event. -/
structure Adapter where
  format : WireFormat
  lines : LineBuffer := {}
  finished : Bool := false
  deriving Repr, DecidableEq

namespace Adapter

/-- The events of complete lines. -/
def ofLines (a : Adapter) (lines : List String) : Adapter × List Event :=
  let events := throughTerminal (lines.filterMap a.format.event?)
  ({ a with finished := events.any Event.isTerminal }, events)

/-- The next bytes of the body. -/
def feed (a : Adapter) (bytes : List UInt8) : Adapter × List Event :=
  if a.finished then (a, [])
  else
    let (buffer, lines) := a.lines.push bytes
    { a with lines := buffer }.ofLines lines

/-- The end of the body. -/
def finish (a : Adapter) : Adapter × List Event :=
  if a.finished then (a, [])
  else
    let (buffer, rest) := a.lines.takeRest
    let (a, events) := { a with lines := buffer }.ofLines rest.toList
    if a.finished then (a, events) else ({ a with finished := true }, events ++ [.done])

/-- Several chunks in a row, their events joined. -/
def feedAll (a : Adapter) : List (List UInt8) → Adapter × List Event
  | [] => (a, [])
  | c :: cs =>
    let (a, events) := a.feed c
    let (a, more) := a.feedAll cs
    (a, events ++ more)

end Adapter
end LanInference
