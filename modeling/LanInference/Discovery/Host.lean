/-
# A host that does what is ready

A host runs a world on a clock of its own: after each thing that happens it finishes all work that
is ready, and when time passes it stops at every instant at which a timer or a validation is due.
Each choice it makes is an action of the world.

Key definitions: `Host`, `Host.settle`, `Host.advance`, `Host.browse`, `Host.endPass`.
-/
import LanInference.Discovery.World

namespace LanInference

/-- How the validation of an endpoint turns out, and how long it takes. -/
structure Verdict where
  ok : Bool := true
  delay : Nat := 0
  deriving Repr, DecidableEq

/-- What a browser can bring in a pass. -/
inductive BrowseItem where
  | event (e : BrowseEvent)
  | failure (e : BrowseError)
  deriving Repr, DecidableEq

structure Host where
  world : World
  /-- What the power source gives. -/
  reading : PowerState
  /-- How validations turn out. -/
  verdict : EndpointKey → Verdict

namespace Host

/-- An action, if it can happen. -/
def act (h : Host) (a : Action) : Host :=
  match h.world.step a with
  | some w => { h with world := w }
  | none => h

/-- When a validation has its result. -/
def due (h : Host) (t : ValidationTask) : Nat := t.since + (h.verdict t.service.key).delay

/-- Whether a pass is over: cancelled, or at its deadline. -/
def isOver (now : Nat) (t : PassTask) : Bool :=
  t.cancelled || match t.deadline with
    | some d => decide (d ≤ now)
    | none => false

/-- The next thing that is ready: passes that are over end, then reports are delivered, then
validations give their results, then the poll timer fires. -/
def ready? (h : Host) : Option Action :=
  let w := h.world
  match w.passes.find? (isOver w.now) with
  | some t => some (.passEnds t.pass none)
  | none =>
    if w.isOpen ∧ w.mailbox ≠ [] then some (.deliver h.reading)
    else
      match w.validations.find? fun t => decide (h.due t ≤ w.now) with
      | some t => some (.validated t.serial (h.verdict t.service.key).ok)
      | none =>
        match w.engine.session.bind (·.nextTick) with
        | some t => if w.isOpen ∧ t ≤ w.now then some (.timer h.reading) else none
        | none => none

/-- Up to `n` things that are ready, one after the other. -/
def settleSteps : Nat → Host → Host
  | 0, h => h
  | n + 1, h =>
    match h.ready? with
    | some a => settleSteps n (h.act a)
    | none => h

/-- A bound on the things that can become ready at one instant: a report may begin a validation,
which reports once more; a pass reports its end; a tick replaces one pass. -/
def work (h : Host) : Nat :=
  3 * h.world.mailbox.length + 2 * h.world.validations.length + 2 * h.world.passes.length + 8

/-- All work that is ready is finished. -/
def settle (h : Host) : Host := settleSteps h.work h

/-- The instants at which something is due. -/
def instants (h : Host) : List Nat :=
  let w := h.world
  (w.engine.session.bind (·.nextTick)).toList ++ w.passes.filterMap (·.deadline) ++
    w.validations.map h.due

/-- The first instant after now, up to `target`, at which something is due. -/
def nextInstant? (h : Host) (target : Nat) : Option Nat :=
  (h.instants.filter fun t => decide (h.world.now < t ∧ t ≤ target)).min?

/-- Time passes up to `target`, with a stop at each instant at which something is due. Each stop is
later than the one before, so `n` bounds their number. -/
def advanceTo (target : Nat) : Nat → Host → Host
  | 0, h => h
  | n + 1, h =>
    match h.nextInstant? target with
    | some t => advanceTo target n ((h.act (.elapse (t - h.world.now))).settle)
    | none => (h.act (.elapse (target - h.world.now))).settle

def advance (h : Host) (time : Nat) : Host :=
  advanceTo (h.world.now + time) (time + 1) h

/-- The items of a pass up to the first failure, which ends it. -/
def feed (h : Host) (pass : Nat) : List BrowseItem → Host
  | [] => h
  | .event e :: items => (h.act (.browse pass e)).feed pass items
  | .failure e :: _ => h.act (.passEnds pass (some e.message))

/-- Items arrive at a pass. All of them are taken if the pass still runs, and none otherwise. -/
def browse (h : Host) (pass : Nat) (items : List BrowseItem) : Host × Nat :=
  match h.world.findPass? pass with
  | some _ => ((h.feed pass items).settle, items.length)
  | none => (h, 0)

/-- The events of the latest pass come to their end. -/
def endPass (h : Host) : Host := (h.act (.passEnds h.world.engine.passes none)).settle

def command (h : Host) (c : Command) : Host := (h.act (.command c h.reading h.reading)).settle

end Host
end LanInference
