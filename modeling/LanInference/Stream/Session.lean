/-
# Stream sessions

The bookkeeping of one stream: the text it has received, and the writes that keep a recovery store
in step with it. Every delta is written through; the end clears the entry, and an error keeps it.

Key definitions: `Session`, `Session.openEntry`, `Session.record`.
-/
import LanInference.Recovery.Store
import LanInference.SessionId
import LanInference.Wire.Adapter

namespace LanInference

structure Session where
  id : SessionId
  url : String
  format : WireFormat
  text : String := ""
  terminal : Bool := false
  deriving Repr, DecidableEq

namespace Session

/-- The id of the session's entry in a recovery store. -/
def key (s : Session) : String := s.id.text

/-- The write of the text received so far. -/
def save (s : Session) : StoreOp := .put s.key s.text

/-- The write that marks the session as pending before its first delta. An entry that is there
already keeps its text until then. -/
def openEntry (s : Session) (hasEntry : Bool) : Option StoreOp :=
  if hasEntry then none else some s.save

/-- An event of the stream, with the write it calls for. Nothing counts after a terminal event. -/
def record (s : Session) (e : Event) : Session × Option StoreOp :=
  if s.terminal then (s, none)
  else
    match e with
    | .delta t =>
      let s := { s with text := s.text ++ t }
      (s, some s.save)
    | .progress _ => (s, none)
    | .done => ({ s with terminal := true }, some (.remove s.key))
    | .error _ => ({ s with terminal := true }, none)

end Session
end LanInference
