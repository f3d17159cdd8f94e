/-
# What a server answers to a stream

A request is answered with a status, or it is never sent; a body then comes in chunks until it ends
or breaks. The events of an answer are what a reader gets who reads to the end.

Key definitions: `Reply`, `BodyStep`, `bodyEvents`, `Script`, `Script.events`.
-/
import LanInference.Wire.Adapter

namespace LanInference

/-- How a request turns out. -/
inductive Reply where
  /-- It could not be sent, or no answer came. -/
  | unsent (reason : String)
  | status (code : UInt16)
  deriving Repr, DecidableEq

/-- What a body does next. -/
inductive BodyStep where
  | chunk (bytes : List UInt8)
  /-- It comes to its proper end. -/
  | ends
  /-- The connection is lost. -/
  | breaks (reason : String)
  deriving Repr, DecidableEq

/-- Statuses from 200 to 299 are successes. -/
def isSuccessCode (code : UInt16) : Bool := decide (200 ≤ code ∧ code < 300)

/-- The events that a body gives through an adapter. A line that a broken connection leaves
unfinished is lost. -/
def bodyEvents (a : Adapter) : List BodyStep → List Event
  | [] => []
  | .chunk bytes :: rest =>
    let (a, events) := a.feed bytes
    events ++ bodyEvents a rest
  | .ends :: _ => a.finish.2
  | .breaks reason :: _ => if a.finished then [] else [.error (.transport reason)]

/-- An answer: how the request turns out, and what its body does. -/
structure Script where
  reply : Reply
  body : List BodyStep := []
  deriving Repr, DecidableEq

namespace Script

/-- Whether the answer is one that has a body to read. -/
def isSuccess (s : Script) : Bool :=
  match s.reply with
  | .unsent _ => false
  | .status code => isSuccessCode code

/-- The events of an answer. Without a success there is one, and the body does not count. -/
def events (format : WireFormat) (s : Script) : List Event :=
  match s.reply with
  | .unsent reason => [.error (.transport reason)]
  | .status code =>
    if isSuccessCode code then bodyEvents { format } s.body else [.error (.status code)]

end Script

end LanInference
