/-
# Scripted conversations

A conversation runs a streaming engine against servers that say what a script tells them. After each
thing that happens all work that is ready is finished. A reader waits for as many events as its
script gives, and finds out whether its stream has ended where the script lets it. Each choice made
here is an action of the streaming engine.

Key definitions: `Listener`, `Conversation`, `Conversation.settle`, `Conversation.hear`,
`Conversation.listen`, `Conversation.launch`, `Conversation.start`, `Conversation.send`.
-/
import LanInference.Stream.System

namespace LanInference

/-- A reader of a stream: the script its server was given so far, and how many events of it the
reader has waited for. -/
structure Listener where
  serial : Nat
  format : WireFormat
  script : Script
  awaited : Nat := 0
  deriving Repr, DecidableEq

namespace Listener

/-- The events that the script gives so far. -/
def expected (l : Listener) : Nat := (l.script.events l.format).length

end Listener

/-- A bound on the events that a step of a body can give. -/
def BodyStep.weight : BodyStep → Nat
  | .chunk bytes => bytes.length + 1
  | _ => 3

structure Conversation (σ : Type) where
  system : StreamSystem σ
  /-- Whether a request reaches its server. -/
  reachable : Bool := true
  /-- What is still to come to each task, by serial. -/
  scripts : List Script := []
  listeners : OrderedMap Listener := .empty
  deriving DecidableEq, Repr

/-- What a reader got, and whether it saw the end of its stream. -/
structure Heard where
  events : List Event := []
  ended : Bool := false
  deriving Repr, DecidableEq

namespace Conversation

variable {σ : Type} [RecoveryStore σ]

/-- An action, if it can happen. -/
def act (c : Conversation σ) (a : StreamAction) : Conversation σ :=
  match c.system.step a with
  | some system => { c with system }
  | none => c

/-- The next thing that is ready for a task. A write that is owed comes first, then a cancelled task
stops, then the task goes on with what its script brings. -/
def ready? (c : Conversation σ) (serial : Nat) : Option StreamAction := do
  let t ← c.system.tasks[serial]?
  let script ← c.scripts[serial]?
  if c.system.inFlight.any (·.1 = serial) then return .write serial
  if t.stage = .closing then return .finish serial
  if t.stage = .finished then none
  if t.cancelled then return .stop serial
  match t.stage with
  | .requesting => return .respond serial script.reply
  | .lookingUp => return .lookUp serial
  | .marking _ => return .mark serial
  | .reading => script.body.head?.map (.receive serial)
  | .recording .. => return .record serial
  | .sending .. => if t.channel.length < StreamTask.capacity then return .send serial else none
  | _ => none

/-- An action that is ready. A step of the body that is received is no longer to come. -/
def perform (c : Conversation σ) (a : StreamAction) : Conversation σ :=
  let c' := c.act a
  match a with
  | .receive serial _ =>
    { c' with scripts := c'.scripts.modify serial fun s => { s with body := s.body.tail } }
  | _ => c'

/-- Up to `n` things that are ready for a task, one after the other. -/
def settleSteps (serial : Nat) : Nat → Conversation σ → Conversation σ
  | 0, c => c
  | n + 1, c =>
    match c.ready? serial with
    | some a => settleSteps serial n (c.perform a)
    | none => c

/-- A bound on the things that can become ready for a task: an event takes three moves, a step of
the body one, and the ends of the task a few. -/
def work (c : Conversation σ) (serial : Nat) : Nat :=
  let held := match (c.system.tasks[serial]?).map (·.stage) with
    | some (.recording _ rest _) | some (.writing _ rest _) | some (.sending _ rest _) =>
      rest.length + 1
    | _ => 0
  let toCome := match c.scripts[serial]? with
    | some script => script.body.foldl (fun n b => n + b.weight) 0
    | none => 0
  4 * (held + toCome) + 16

/-- All work that is ready for a task is finished. -/
def settleTask (c : Conversation σ) (serial : Nat) : Conversation σ :=
  settleSteps serial (c.work serial) c

/-- All work that is ready is finished, task after task. -/
def settle (c : Conversation σ) : Conversation σ :=
  (List.range c.system.tasks.length).foldl settleTask c

/-- What a reader finds next. -/
def poll (c : Conversation σ) (serial : Nat) : Poll :=
  match c.system.tasks[serial]? with
  | some t => t.poll
  | none => .ended

/-- Up to `n` events are read, the first ones being `heard` already, newest first. -/
def readSteps (serial : Nat) : Nat → Conversation σ → List Event → Conversation σ × List Event
  | 0, c, heard => (c, heard.reverse)
  | n + 1, c, heard =>
    match c.poll serial with
    | .event e => readSteps serial n ((c.act (.read serial)).settleTask serial) (e :: heard)
    | _ => (c, heard.reverse)

/-- A reader waits for up to `n` events. Whether the stream has ended it sees if fewer came, if the
last was terminal, or if it asks for more because the script is `closed`. -/
def hear (c : Conversation σ) (serial n : Nat) (closed : Bool) : Conversation σ × Heard :=
  let (c, events) := readSteps serial n c []
  let asks := closed || decide (events.length < n) || events.any Event.isTerminal ||
    ((c.system.tasks[serial]?).map (·.cancelled)).getD true
  (c, ⟨events, asks && c.poll serial == .ended⟩)

/-- A reader waits for all that its script gives and that it has not waited for yet. -/
def listen (c : Conversation σ) (name : String) (closed : Bool) : Conversation σ × Heard :=
  match c.listeners.get? name with
  | some l =>
    let listeners := c.listeners.insert name { l with awaited := l.expected }
    { c with listeners }.hear l.serial (l.expected - l.awaited) closed
  | none => (c, { ended := true })

/-- Whether a body is left to come to its end or to break. -/
def isClosed (body : List BodyStep) : Bool :=
  body.any fun b => match b with
    | .chunk _ => false
    | _ => true

/-- A stream is opened under a name for its reader. The reader that had the name goes. -/
def launch (c : Conversation σ) (name : String) (r : StreamRequest) (script : Script) :
    Conversation σ :=
  let serial := c.system.tasks.length
  let before := c.listeners.get? name
  let c := c.act (.start r)
  let answer := if c.reachable then script else { script with reply := .unsent "" }
  let c := { c with
    scripts := c.scripts ++ [answer]
    listeners := c.listeners.insert name { serial, format := r.format, script } }
  let c := match before with
    | some l => c.act (.drop l.serial)
    | none => c
  c.settle

/-- A stream is opened, and its reader listens. -/
def start (c : Conversation σ) (name : String) (r : StreamRequest) (script : Script) :
    Conversation σ × Heard := (c.launch name r script).listen name (isClosed script.body)

/-- More of the body comes to a stream. -/
def send (c : Conversation σ) (name : String) (body : List BodyStep) : Conversation σ × Heard :=
  match c.listeners.get? name with
  | some l =>
    let l := { l with script := { l.script with body := l.script.body ++ body } }
    let c := { c with
      scripts := c.scripts.modify l.serial fun s => { s with body := s.body ++ body }
      listeners := c.listeners.insert name l }
    c.settle.listen name (isClosed body)
  | none => (c, { ended := true })

/-- The reader of a stream asks for one event. -/
def next (c : Conversation σ) (name : String) : Conversation σ × Heard :=
  match c.listeners.get? name with
  | some l => c.hear l.serial 1 false
  | none => (c, { ended := true })

/-- An action on a stream by the name of its reader. -/
def actOn (c : Conversation σ) (name : String) (a : Nat → StreamAction) : Conversation σ :=
  match c.listeners.get? name with
  | some l => (c.act (a l.serial)).settle
  | none => c

def cancel (c : Conversation σ) (name : String) : Conversation σ := c.actOn name .cancel

def drop (c : Conversation σ) (name : String) : Conversation σ := c.actOn name .drop

/-- The session under an id is cancelled. -/
def cancelId (c : Conversation σ) (id : SessionId) : Conversation σ := (c.act (.cancelId id)).settle

end Conversation
end LanInference
