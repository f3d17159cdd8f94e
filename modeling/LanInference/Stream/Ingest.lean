/-
# One stream from its beginning to its end

What becomes of a stream whose reader reads on and which nothing interrupts: the reader gets the
events of the answer, and the recovery store takes the write of each event in turn. An answer that
is no success leaves the store alone.

Key definitions: `StoreOp.perform`, `Session.deliver`, `ingest`.
-/
import LanInference.Stream.Answer
import LanInference.Stream.Session

namespace LanInference

variable {σ : Type} [RecoveryStore σ]

/-- The store after a write, if there is one. -/
def StoreOp.perform (store : σ) : Option StoreOp → σ
  | some op => (op.apply store).1
  | none => store

/-- The session and the store after these events. -/
def Session.deliver (s : Session) (store : σ) : List Event → Session × σ
  | [] => (s, store)
  | e :: es =>
    let (s, op) := s.record e
    s.deliver (StoreOp.perform store op) es

/-- The events that the reader of a session gets, and the store after them. -/
def ingest (store : σ) (s : Session) (script : Script) : List Event × σ :=
  let events := script.events s.format
  let store := if script.isSuccess then StoreOp.perform store (s.openEntry (hasEntry store s.key))
    else store
  (events, (s.deliver store events).2)

end LanInference
