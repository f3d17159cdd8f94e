/-
# The task of a stream

A task reads the answer to one request. It records each event in its session, waits until the store
has taken the write that the event calls for, and hands the event to the reader through a channel of
bounded size. Between two moves anything can happen elsewhere; in particular the task can be
cancelled, and then it stops where it stands.

Key definitions: `Stage`, `StreamTask`, `StreamTask.respond`, `StreamTask.found`, `StreamTask.mark`,
`StreamTask.receive`, `StreamTask.record`, `StreamTask.written`, `StreamTask.send`,
`StreamTask.stop`, `Poll`, `StreamTask.poll`, `StreamTask.read`.
-/
import LanInference.Stream.Answer
import LanInference.Stream.Request

namespace LanInference

/-- Where a task stands. `last` says that the body has come to its end. -/
inductive Stage where
  /-- The request is on its way. -/
  | requesting
  /-- The store is asked whether it has an entry for the session. -/
  | lookingUp
  /-- The store has answered. -/
  | marking (hasEntry : Bool)
  /-- The write of the pending mark is awaited. -/
  | opening
  /-- More of the body is awaited. -/
  | reading
  /-- An event is to be recorded. -/
  | recording (event : Event) (rest : List Event) (last : Bool)
  /-- The write of an event is awaited. -/
  | writing (event : Event) (rest : List Event) (last : Bool)
  /-- An event is to be handed to the reader. -/
  | sending (event : Event) (rest : List Event) (last : Bool)
  /-- The task does nothing more, and is still registered. -/
  | closing
  /-- The task has left the registry, and its reader is told so. -/
  | finished
  deriving Repr, DecidableEq

/-- Where a task stands that has these events left to give. -/
def Stage.giving : List Event → Bool → Stage
  | e :: rest, last => recording e rest last
  | [], true => closing
  | [], false => reading

structure StreamTask where
  session : Session
  adapter : Adapter
  stage : Stage := .requesting
  /-- The events handed over and not read, the oldest first. -/
  channel : List Event := []
  /-- Whether the reader has cancelled or gone, or another session has taken the id. -/
  cancelled : Bool := false
  /-- Whether the reader has gone. -/
  dropped : Bool := false
  /-- The events recorded so far, the oldest first. -/
  recorded : List Event := []
  /-- The events read so far, the oldest first. -/
  yielded : List Event := []
  deriving Repr, DecidableEq

/-- What a reader finds when it asks for the next event. -/
inductive Poll where
  | event (e : Event)
  /-- There will be none. -/
  | ended
  | waiting
  deriving Repr, DecidableEq

namespace StreamTask

/-- The events that a channel holds at most. -/
def capacity : Nat := 64

def ofRequest (r : StreamRequest) : StreamTask :=
  { session := r.session, adapter := { format := r.format } }

/-- The request turns out in some way. Without a success one error is all there is. -/
def respond (t : StreamTask) (reply : Reply) : Option StreamTask :=
  match t.stage with
  | .requesting =>
    some { t with stage := match reply with
      | .unsent reason => .recording (.error (.transport reason)) [] true
      | .status code =>
        if isSuccessCode code then .lookingUp else .recording (.error (.status code)) [] true }
  | _ => none

/-- The store says whether it has an entry for the session. -/
def found (t : StreamTask) (hasEntry : Bool) : Option StreamTask :=
  match t.stage with
  | .lookingUp => some { t with stage := .marking hasEntry }
  | _ => none

/-- The session is marked as pending, if nothing marks it yet. -/
def mark (t : StreamTask) : Option (StreamTask × Option StoreOp) :=
  match t.stage with
  | .marking hasEntry =>
    match t.session.openEntry hasEntry with
    | some op => some ({ t with stage := .opening }, some op)
    | none => some ({ t with stage := .reading }, none)
  | _ => none

/-- More of the body comes. -/
def receive (t : StreamTask) (b : BodyStep) : Option StreamTask :=
  match t.stage with
  | .reading =>
    match b with
    | .chunk bytes =>
      let (adapter, events) := t.adapter.feed bytes
      some { t with adapter, stage := .giving events false }
    | .ends =>
      let (adapter, events) := t.adapter.finish
      some { t with adapter, stage := .giving events true }
    | .breaks reason => some { t with stage := .recording (.error (.transport reason)) [] true }
  | _ => none

/-- The next event is recorded. Before it goes on, the write that it calls for is awaited. -/
def record (t : StreamTask) : Option (StreamTask × Option StoreOp) :=
  match t.stage with
  | .recording e rest last =>
    let (session, op) := t.session.record e
    some ({ t with
      session
      recorded := t.recorded ++ [e]
      stage := if op.isSome then .writing e rest last else .sending e rest last }, op)
  | _ => none

/-- The awaited write is done, whether the store took it or not. -/
def written (t : StreamTask) : StreamTask :=
  { t with stage := match t.stage with
    | .opening => .reading
    | .writing e rest last => .sending e rest last
    | s => s }

/-- An event is handed over, as soon as the channel has room. A terminal one is the last, and
without a reader there is nobody to go on for. -/
def send (t : StreamTask) : Option StreamTask :=
  match t.stage with
  | .sending e rest last =>
    if t.dropped then some { t with stage := .closing }
    else if t.channel.length < capacity then
      some { t with
        channel := t.channel ++ [e]
        stage := if e.isTerminal then .closing else .giving rest last }
    else none
  | _ => none

/-- A cancelled task stops where it stands. -/
def stop (t : StreamTask) : Option StreamTask :=
  if t.cancelled ∧ t.stage ≠ .closing ∧ t.stage ≠ .finished then some { t with stage := .closing }
  else none

/-- The task leaves the registry. -/
def finish (t : StreamTask) : Option StreamTask :=
  if t.stage = .closing then some { t with stage := .finished } else none

def cancel (t : StreamTask) : StreamTask := { t with cancelled := true }

/-- The reader goes, and what it has not read goes with it. -/
def drop (t : StreamTask) : StreamTask :=
  { t with cancelled := true, dropped := true, channel := [] }

/-- What the reader finds next. Once cancelled there is nothing more. -/
def poll (t : StreamTask) : Poll :=
  if t.cancelled then .ended
  else
    match t.channel with
    | e :: _ => .event e
    | [] => if t.stage = .finished then .ended else .waiting

/-- The reader takes what it finds. -/
def read (t : StreamTask) : StreamTask :=
  match t.poll with
  | .event e => { t with channel := t.channel.tail, yielded := t.yielded ++ [e] }
  | _ => t

end StreamTask
end LanInference
