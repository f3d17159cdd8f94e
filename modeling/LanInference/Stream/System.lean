/-
# The streaming engine

The engine runs one task for each stream it has opened, over one recovery store. Writes are handed
to the store and done at any later time, also when the task that asked for them has stopped
meanwhile. An action is one thing that can happen next; a run is a list of actions, so the runs are
all the ways in which tasks, readers and the store can take turns.

Key definitions: `StreamSystem`, `StreamAction`, `StreamSystem.step`, `StreamSystem.run`,
`StreamSystem.Reachable`.
-/
import LanInference.Recovery.Store
import LanInference.Stream.Registry
import LanInference.Stream.Task

namespace LanInference

structure StreamSystem (σ : Type) where
  store : σ
  registry : Registry := {}
  /-- The task of each session opened so far, by serial. -/
  tasks : List StreamTask := []
  /-- Writes handed to the store and not done, with the serial of who waits; the oldest first. -/
  inFlight : List (Nat × StoreOp) := []
  /-- Writes done, for whom, and whether the store took them; the newest first. -/
  applied : List (Nat × StoreOp × Bool) := []
  deriving DecidableEq, Repr

/-- What can happen next. A task is meant by its serial. -/
inductive StreamAction where
  /-- A stream is opened. -/
  | start (r : StreamRequest)
  | respond (serial : Nat) (reply : Reply)
  /-- The store is asked for the session's entry. -/
  | lookUp (serial : Nat)
  | mark (serial : Nat)
  | receive (serial : Nat) (b : BodyStep)
  | record (serial : Nat)
  /-- The store does a write that was handed to it. -/
  | write (serial : Nat)
  | send (serial : Nat)
  | stop (serial : Nat)
  | finish (serial : Nat)
  | read (serial : Nat)
  | cancel (serial : Nat)
  | drop (serial : Nat)
  /-- Whatever session runs under the id is cancelled. -/
  | cancelId (id : SessionId)
  deriving Repr, DecidableEq

namespace StreamSystem

variable {σ : Type} [RecoveryStore σ]

/-- The system with a task changed. -/
def setTask (s : StreamSystem σ) (serial : Nat) (t : StreamTask) : StreamSystem σ :=
  { s with tasks := s.tasks.set serial t }

/-- The system after a move of one task. -/
def move (s : StreamSystem σ) (serial : Nat) (f : StreamTask → Option StreamTask) :
    Option (StreamSystem σ) := do
  let t ← s.tasks[serial]?
  let t ← f t
  return s.setTask serial t

/-- The system after a move of one task that may hand a write to the store. -/
def moveWriting (s : StreamSystem σ) (serial : Nat)
    (f : StreamTask → Option (StreamTask × Option StoreOp)) : Option (StreamSystem σ) := do
  let t ← s.tasks[serial]?
  let (t, op) ← f t
  return { s.setTask serial t with inFlight := s.inFlight ++ (op.map (serial, ·)).toList }

/-- A stream is opened. The session that had its id is cancelled. -/
def start (s : StreamSystem σ) (r : StreamRequest) : StreamSystem σ :=
  let tasks := match s.registry.serial? r.id with
    | some previous => s.tasks.modify previous StreamTask.cancel
    | none => s.tasks
  { s with registry := s.registry.insert r.id, tasks := tasks ++ [.ofRequest r] }

/-- The store does the write of a session. -/
def write (s : StreamSystem σ) (serial : Nat) : Option (StreamSystem σ) :=
  (s.inFlight.find? (·.1 = serial)).map fun w =>
    let (store, result) := w.2.apply s.store
    { s with
      store
      tasks := s.tasks.modify serial StreamTask.written
      inFlight := s.inFlight.erase w
      applied := (serial, w.2, result.isOk) :: s.applied }

/-- The system after an action, if the action can happen. -/
def step (s : StreamSystem σ) : StreamAction → Option (StreamSystem σ)
  | .start r => some (s.start r)
  | .respond n reply => s.move n (·.respond reply)
  | .lookUp n => s.move n fun t => t.found (hasEntry s.store t.session.key)
  | .mark n => s.moveWriting n StreamTask.mark
  | .receive n b => s.move n (·.receive b)
  | .record n => s.moveWriting n StreamTask.record
  | .write n => s.write n
  | .send n => s.move n StreamTask.send
  | .stop n => s.move n StreamTask.stop
  | .finish n => do
    let t ← s.tasks[n]?
    let s ← s.move n StreamTask.finish
    return { s with registry := s.registry.finish t.session.id n }
  | .read n => s.move n fun t => some t.read
  | .cancel n => s.move n fun t => some t.cancel
  | .drop n => s.move n fun t => some t.drop
  | .cancelId id =>
    match s.registry.serial? id with
    | some n => s.move n fun t => some t.cancel
    | none => some s

/-- The system after a list of actions, if each can happen. -/
def run (s : StreamSystem σ) (as : List StreamAction) : Option (StreamSystem σ) := as.foldlM step s

/-- The systems that a run can lead to from a store. -/
def Reachable (store : σ) (s : StreamSystem σ) : Prop :=
  ∃ as, ({ store } : StreamSystem σ).run as = some s

/-- Whether a session runs under the id, which is what cancelling by id answers. -/
def isRunning (s : StreamSystem σ) (id : SessionId) : Bool := (s.registry.serial? id).isSome

end StreamSystem
end LanInference
