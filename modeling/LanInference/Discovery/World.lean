/-
# The engine among its tasks

The engine's browse passes and validations run beside it and report through one mailbox, in any
order and at any speed. A world is the engine with the tasks that still run, the reports on their
way, the subscriptions, and a record of everything the engine has asked for. An action is one thing
that can happen next; a run is a list of actions.

Key definitions: `PassTask`, `ValidationTask`, `World`, `World.perform`, `Action`, `World.step`,
`World.run`, `World.Reachable`.
-/
import LanInference.Discovery.Engine
import LanInference.Discovery.Subscription

namespace LanInference

/-- A browse pass that has not ended. -/
structure PassTask where
  generation : Nat
  pass : Nat
  /-- When it ends by itself. -/
  deadline : Option Nat
  cancelled : Bool := false
  deriving DecidableEq, Repr

/-- A validation in flight: the how-manieth it is, when it began, and for which session. -/
structure ValidationTask where
  serial : Nat
  since : Nat
  generation : Nat
  service : Service
  probe : ProbePolicy
  deriving DecidableEq, Repr

structure World where
  engine : Engine
  now : Nat := 0
  passes : List PassTask := []
  validations : List ValidationTask := []
  /-- Validations begun so far. -/
  dispatched : Nat := 0
  /-- Reports on their way, the oldest first. -/
  mailbox : List Report := []
  subscriptions : OrderedMap Subscription := .empty
  /-- Everything asked for so far and when, the newest first. -/
  record : List (Nat × Effect) := []
  /-- Whether anyone still holds the engine. -/
  isOpen : Bool := true
  deriving DecidableEq, Repr

/-- What can happen next. -/
inductive Action where
  /-- The engine takes a command. If that makes it read the power source twice, the two readings
  may differ. -/
  | command (c : Command) (reading rereading : PowerState)
  /-- The engine takes the oldest report. -/
  | deliver (reading : PowerState)
  /-- The poll timer fires. -/
  | timer (reading : PowerState)
  /-- A running pass sees an event. -/
  | browse (pass : Nat) (event : BrowseEvent)
  /-- A running pass ends. -/
  | passEnds (pass : Nat) (error : Option String)
  /-- A validation in flight has its result. -/
  | validated (serial : Nat) (ok : Bool)
  | elapse (time : Nat)
  | subscribe (name : String)
  | unsubscribe (name : String)
  | poll (name : String)
  /-- The last holder lets go of the engine. -/
  | shutdown
  deriving Repr, DecidableEq

namespace OrderedMap

/-- The map with every value changed by `f`. -/
def mapValues {α β : Type} (f : α → β) (m : OrderedMap α) : OrderedMap β :=
  ⟨m.entries.map fun e => (e.1, f e.2), by
    have h := m.ascending
    unfold Ascending at h ⊢
    exact List.pairwise_map.mpr h⟩

end OrderedMap

namespace World

/-- A world in which nothing has happened yet. -/
def initial (floor : Nat) (reading : PowerState) : World :=
  { engine := { floor, power := reading } }

/-- One thing the engine asks for. -/
def perform (w : World) (e : Effect) : World :=
  let w := { w with record := (w.now, e) :: w.record }
  match e with
  | .publish snapshot =>
    { w with subscriptions := w.subscriptions.mapValues (·.push snapshot) }
  | .startPass generation pass timeout =>
    { w with passes := w.passes ++ [⟨generation, pass, timeout.map (w.now + ·), false⟩] }
  | .cancelPass pass =>
    { w with
      passes := w.passes.map fun t => if t.pass = pass then { t with cancelled := true } else t }
  | .validate generation service probe =>
    { w with
      validations := w.validations ++ [⟨w.dispatched, w.now, generation, service, probe⟩]
      dispatched := w.dispatched + 1 }

/-- The world after the engine has taken an input. -/
def after (w : World) (r : Engine × List Effect) : World :=
  r.2.foldl perform { w with engine := r.1 }

def findPass? (w : World) (pass : Nat) : Option PassTask := w.passes.find? (·.pass = pass)

def findValidation? (w : World) (serial : Nat) : Option ValidationTask :=
  w.validations.find? (·.serial = serial)

/-- The world after an action, if the action can happen. -/
def step (w : World) : Action → Option World
  | .command c reading rereading =>
    if w.isOpen then some (w.after (w.engine.onCommand ⟨w.now, reading, rereading⟩ c)) else none
  | .deliver reading =>
    match w.mailbox with
    | r :: rest =>
      if w.isOpen then
        some ({ w with mailbox := rest }.after (w.engine.onReport ⟨w.now, reading, reading⟩ r))
      else none
    | [] => none
  | .timer reading =>
    match w.engine.session.bind (·.nextTick) with
    | some t =>
      if w.isOpen ∧ t ≤ w.now then some (w.after (w.engine.tick ⟨w.now, reading, reading⟩))
      else none
    | none => none
  | .browse pass event =>
    (w.findPass? pass).map fun t =>
      { w with mailbox := w.mailbox ++ [.browse t.generation pass event] }
  | .passEnds pass error =>
    (w.findPass? pass).map fun t =>
      { w with
        passes := w.passes.filter (·.pass ≠ pass)
        mailbox := w.mailbox ++ [.passEnded t.generation pass error] }
  | .validated serial ok =>
    (w.findValidation? serial).map fun t =>
      { w with
        validations := w.validations.filter (·.serial ≠ serial)
        mailbox := w.mailbox ++ [.validated t.generation t.service ok] }
  | .elapse time => some { w with now := w.now + time }
  | .subscribe name =>
    if w.isOpen then
      some { w with
        subscriptions := w.subscriptions.insert name (.start w.engine.endpoints.snapshot) }
    else none
  | .unsubscribe name => some { w with subscriptions := w.subscriptions.erase name }
  | .poll name =>
    (w.subscriptions.get? name).map fun s =>
      { w with subscriptions := w.subscriptions.insert name s.poll.1 }
  | .shutdown =>
    if w.isOpen then
      let w := w.after w.engine.cancelSession
      some { w with isOpen := false, mailbox := [] }
    else none

/-- The world after a list of actions, if each can happen. -/
def run (w : World) (as : List Action) : Option World := as.foldlM step w

/-- The worlds that a run can lead to. -/
def Reachable (floor : Nat) (w : World) : Prop :=
  ∃ reading as, (initial floor reading).run as = some w

/-- What a subscription yields when it is polled. -/
def yields (w : World) (name : String) : List Snapshot :=
  match w.subscriptions.get? name with
  | some s => s.poll.2
  | none => []

/-- The snapshots published so far, the newest first. -/
def published (w : World) : List Snapshot :=
  w.record.filterMap fun e => match e.2 with
    | .publish snapshot => some snapshot
    | _ => none

/-- The validations asked for so far, the newest first: for which session, and of what. -/
def validationsAsked (w : World) : List (Nat × Service × ProbePolicy) :=
  w.record.filterMap fun e => match e.2 with
    | .validate generation service probe => some (generation, service, probe)
    | _ => none

end World
end LanInference
