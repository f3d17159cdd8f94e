/-
# The discovery engine

The engine owns at most one scan session, the set of endpoints and the poll timer. It takes
commands, reports of its browse passes and validations, and timer instants, one at a time; each is
answered by the engine after it and what the engine asks for: passes to start and to cancel,
services to validate, and snapshots to publish. Reports carry the generation of the session they
belong to, so that what is left of an earlier session changes nothing. Times are in milliseconds.

Key definitions: `Status`, `ScanSession`, `Engine`, `Moment`, `Command`, `Report`, `Effect`,
`Engine.onCommand`, `Engine.onReport`, `Engine.tick`.
-/
import LanInference.Discovery.Instances
import LanInference.Power.Policy

namespace LanInference

inductive Status where
  | idle
  | scanning
  /-- In the background; ticks are suppressed until the foreground. -/
  | paused
  /-- The last browse pass failed; the next tick starts another. -/
  | failed (reason : String)
  deriving Repr, DecidableEq

structure ScanSession where
  generation : Nat
  userInitiated : Bool
  /-- The keys with a validation in flight. -/
  pending : OrderedMap Unit := .empty
  /-- The current browse pass. -/
  pass : Option Nat := none
  paused : Bool := false
  nextTick : Option Nat := none
  lastPoll : Option Nat := none
  lastSuccessfulPoll : Option Nat := none
  deriving DecidableEq, Repr

structure Engine where
  /-- The shortest poll interval that the host allows. -/
  floor : Nat
  /-- The last power reading taken. -/
  power : PowerState
  endpoints : EndpointSet := .empty
  session : Option ScanSession := none
  /-- The sessions started so far. -/
  generation : Nat := 0
  /-- The browse passes started so far. -/
  passes : Nat := 0
  status : Status := .idle
  deriving DecidableEq, Repr

/-- When something happens, and what the power source gives then. It may have changed when it is
read once more. -/
structure Moment where
  now : Nat
  reading : PowerState
  rereading : PowerState
  deriving Repr, DecidableEq

/-- The moment at which the power source is read once more. -/
def Moment.again (m : Moment) : Moment := { m with reading := m.rereading }

inductive Command where
  | start (userInitiated : Bool)
  | stop
  | powerChanged
  deriving Repr, DecidableEq

/-- What a browse pass or a validation reports. -/
inductive Report where
  | browse (generation pass : Nat) (event : BrowseEvent)
  | passEnded (generation pass : Nat) (error : Option String)
  | validated (generation : Nat) (service : Service) (ok : Bool)
  deriving Repr, DecidableEq

/-- What the engine asks of the host. -/
inductive Effect where
  | publish (snapshot : List Endpoint)
  | startPass (generation pass : Nat) (timeout : Option Nat)
  | cancelPass (pass : Nat)
  | validate (generation : Nat) (service : Service) (probe : ProbePolicy)
  deriving Repr, DecidableEq

namespace ScanSession

/-- The session without its current pass, which is cancelled. -/
def endPass (s : ScanSession) : ScanSession × List Effect :=
  ({ s with pass := none }, s.pass.toList.map .cancelPass)

end ScanSession

namespace Engine

/-- The policy under the last reading taken. -/
def policy (e : Engine) (userInitiated : Bool) : PollingPolicy :=
  .ofState e.power userInitiated e.floor

/-- The snapshot that subscribers are to see. -/
def publish (e : Engine) : Effect := .publish e.endpoints.snapshot

/-- The engine without its session, whose current pass is cancelled. -/
def cancelSession (e : Engine) : Engine × List Effect :=
  match e.session with
  | none => (e, [])
  | some s => ({ e with session := none }, s.endPass.2)

/-- A new browse pass of the session in place of its current one. -/
def startPass (e : Engine) (s : ScanSession) (timeout : Option Nat) : Engine × List Effect :=
  let id := e.passes + 1
  ({ e with passes := id, session := some { s with pass := some id }, status := .scanning },
    s.endPass.2 ++ [.startPass s.generation id timeout])

/-- The session stops polling until it comes to the foreground. -/
def pause (e : Engine) (s : ScanSession) : Engine × List Effect :=
  ({ e with
      session := some { s with pass := none, paused := true, nextTick := none }
      status := .paused },
    s.endPass.2)

/-- The poll timer has run out: the policy under a fresh reading decides. -/
def tick (e : Engine) (m : Moment) : Engine × List Effect :=
  let e := { e with power := m.reading }
  match e.session with
  | none => (e, [])
  | some s =>
    let policy := e.policy s.userInitiated
    let next := policy.interval.map (m.now + ·)
    match policy.decideTick (s.lastPoll.map (m.now - ·)) with
    | .suppressed => e.pause s
    | .skip => ({ e with session := some { s with nextTick := next } }, [])
    | .run => e.startPass { s with lastPoll := some m.now, nextTick := next } policy.browseTimeout

/-- A new session in place of the running one. One that the user asked for starts with no
endpoints. -/
def start (e : Engine) (m : Moment) (userInitiated : Bool) : Engine × List Effect :=
  let (e, cancelled) := e.cancelSession
  let (endpoints, cleared) := if userInitiated then e.endpoints.clear else (e.endpoints, false)
  let e := { e with
    power := m.reading
    endpoints
    generation := e.generation + 1
    session := some { generation := e.generation + 1, userInitiated }
    status := .scanning }
  let (e', effects) := e.tick m.again
  (e', cancelled ++ (if cleared then [e.publish] else []) ++ effects)

/-- The session ends; the endpoints are kept. -/
def stop (e : Engine) : Engine × List Effect :=
  let (e, effects) := e.cancelSession
  ({ e with status := .idle }, effects)

/-- The host goes to the background, which pauses a session that the user did not ask for. -/
def toBackground (e : Engine) (s : ScanSession) : Engine × List Effect :=
  if s.userInitiated then (e, []) else e.pause s

/-- The host comes to the foreground: a paused session polls at once if what it knows is stale, and
otherwise after an interval. -/
def toForeground (e : Engine) (s : ScanSession) (m : Moment) : Engine × List Effect :=
  if s.paused then
    let s := { s with paused := false }
    let e := { e with session := some s, status := .scanning }
    if isStale e.endpoints.size (s.lastSuccessfulPoll.map (m.now - ·)) then e.tick m.again
    else
      let next := (e.policy s.userInitiated).interval.map (m.now + ·)
      ({ e with session := some { s with nextTick := next } }, [])
  else (e, [])

/-- A fresh reading is taken, and a change of the background or the low-power flag acted upon. -/
def powerChanged (e : Engine) (m : Moment) : Engine × List Effect :=
  let previous := e.power
  let e := { e with power := m.reading }
  match e.session with
  | none => (e, [])
  | some s =>
    if previous.inBackground ≠ m.reading.inBackground then
      if m.reading.inBackground then e.toBackground s else e.toForeground s m
    else if previous.lowPowerMode ≠ m.reading.lowPowerMode ∧ ¬ s.paused then
      let next := (e.policy s.userInitiated).interval.map (m.now + ·)
      ({ e with session := some { s with nextTick := next } }, [])
    else (e, [])

def onCommand (e : Engine) (m : Moment) : Command → Engine × List Effect
  | .start userInitiated => e.start m userInitiated
  | .stop => e.stop
  | .powerChanged => e.powerChanged m

/-- A service has appeared. It is validated unless its key is held or pending, or the budget for
validations is used up. -/
def onAdded (e : Engine) (s : ScanSession) (service : Service) : Engine × List Effect :=
  let policy := e.policy s.userInitiated
  if e.endpoints.contains service.key || s.pending.contains service.key.text then (e, [])
  else if policy.budgetExhausted (e.endpoints.size + s.pending.size) then (e, [])
  else
    ({ e with session := some { s with pending := s.pending.insert service.key.text () } },
      [.validate s.generation service policy.probe])

/-- A service has gone: its key is neither held nor pending any more. -/
def onRemoved (e : Engine) (s : ScanSession) (service : Service) : Engine × List Effect :=
  let (endpoints, removed) := e.endpoints.remove service.key
  let e := { e with
    endpoints
    session := some { s with pending := s.pending.erase service.key.text } }
  (e, if removed.isSome then [e.publish] else [])

/-- A report counts only if it belongs to the session, and a browse event only if it comes from the
current pass. -/
def onReport (e : Engine) (m : Moment) (r : Report) : Engine × List Effect :=
  match e.session with
  | none => (e, [])
  | some s =>
    match r with
    | .browse generation pass event =>
      if s.generation = generation ∧ s.pass = some pass then
        match event with
        | .added service => e.onAdded s service
        | .removed service => e.onRemoved s service
      else (e, [])
    | .passEnded generation pass error =>
      if s.generation = generation then
        match error with
        | some reason =>
          if s.pass = some pass then
            ({ e with session := some { s with pass := none }, status := .failed reason }, [])
          else (e, [])
        | none => ({ e with session := some { s with lastSuccessfulPoll := some m.now } }, [])
      else (e, [])
    | .validated generation service ok =>
      if s.generation = generation ∧ s.pending.contains service.key.text then
        let e := { e with session := some { s with pending := s.pending.erase service.key.text } }
        if ok then
          let (endpoints, changed) := e.endpoints.insert (.ofService service)
          let e := { e with endpoints }
          (e, if changed then [e.publish] else [])
        else (e, [])
      else (e, [])

end Engine
end LanInference
