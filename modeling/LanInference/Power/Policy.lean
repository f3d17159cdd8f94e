/-
# Polling policy

What a power reading allows a discovery session: how often it polls, how it probes, how many
endpoints it validates, how far apart background polls are, and how long one browse pass may take.
Times are in milliseconds.

Key definitions: `CachePolicy`, `ProbePolicy`, `PollingPolicy`, `PollingPolicy.ofState`,
`PollingPolicy.decideTick`, `PollingPolicy.budgetExhausted`, `isStale`.
-/
import LanInference.Power.State

namespace LanInference

inductive CachePolicy where
  /-- Always ask the server. -/
  | reload
  /-- Use a recent result for the same endpoint if there is one. -/
  | prefer
  deriving Repr, DecidableEq

structure ProbePolicy where
  timeout : Nat
  cache : CachePolicy
  deriving Repr, DecidableEq

namespace ProbePolicy

def normal : ProbePolicy := ⟨5000, .reload⟩

def constrained : ProbePolicy := ⟨1500, .prefer⟩

end ProbePolicy

inductive TickDecision where
  | run
  /-- Too soon after the last background poll. -/
  | skip
  /-- Polling is off until the lifecycle changes. -/
  | suppressed
  deriving Repr, DecidableEq

structure PollingPolicy where
  /-- None when polling is suppressed. -/
  interval : Option Nat
  probe : ProbePolicy
  /-- Validations stop once this many endpoints are confirmed. -/
  validationBudget : Option Nat
  /-- The least time between background polls. -/
  minSpacing : Option Nat
  browseTimeout : Option Nat
  deriving Repr, DecidableEq

namespace PollingPolicy

/-- The least time between two background polls in low-power mode. -/
def lowPowerSpacing : Nat := 120000

/-- The longest browse pass in low-power mode that the user did not ask for. -/
def lowPowerBrowseTimeout : Nat := 15000

/-- The endpoints confirmed in low-power mode before validation stops. -/
def lowPowerBudget : Nat := 3

/-- The policy under a reading: in the background only a session that the user asked for polls; low
power keeps the interval but limits validation, and thins out and shortens the passes of a session
that the user did not ask for. `floor` is the shortest interval the host supports. -/
def ofState (s : PowerState) (userInitiated : Bool) (floor : Nat) : PollingPolicy :=
  let probe := if s.isConstrained then ProbePolicy.constrained else ProbePolicy.normal
  if s.inBackground && !userInitiated then ⟨none, probe, none, none, none⟩
  else
    let thinned := s.lowPowerMode && !userInitiated
    { interval := some floor
      probe
      validationBudget := if s.lowPowerMode then some lowPowerBudget else none
      minSpacing := if thinned then some lowPowerSpacing else none
      browseTimeout := if thinned then some lowPowerBrowseTimeout else none }

def isSuppressed (p : PollingPolicy) : Bool := p.interval.isNone

/-- What to do at a tick, given the time since the session's last poll if it has polled. -/
def decideTick (p : PollingPolicy) (sinceLastPoll : Option Nat) : TickDecision :=
  if p.isSuppressed then .suppressed
  else
    match p.minSpacing, sinceLastPoll with
    | some least, some elapsed => if elapsed < least then .skip else .run
    | _, _ => .run

/-- Whether validation is to be skipped with this many endpoints confirmed. -/
def budgetExhausted (p : PollingPolicy) (confirmed : Nat) : Bool :=
  match p.validationBudget with
  | some budget => budget ≤ confirmed
  | none => false

end PollingPolicy

/-- How long a session that comes to the foreground trusts its last poll. -/
def foregroundStaleness : Nat := 60000

/-- Whether a session that comes to the foreground polls at once: it holds nothing, or has not
polled successfully for a minute. -/
def isStale (endpointCount : Nat) (sinceLastSuccess : Option Nat) : Bool :=
  endpointCount == 0 ||
    match sinceLastSuccess with
    | none => true
    | some elapsed => foregroundStaleness ≤ elapsed

end LanInference
