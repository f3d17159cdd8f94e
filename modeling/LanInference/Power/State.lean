/-
# Power readings

One reading of the host's power state, and how a mode and a suggested polling interval follow from
battery, low-power flag and charging. Times are in milliseconds.

Key definitions: `PowerMode`, `PowerMode.classify`, `PowerMode.suggestedInterval`, `PowerState`,
`PowerState.withLowPower`, `PowerState.withBattery`, `PowerState.withBackground`,
`PowerState.isConstrained`, `PowerState.same`.
-/
import LanInference.Power.Level

namespace LanInference

inductive PowerMode where
  | performance
  | balanced
  | conservative
  | lowPower
  deriving Repr, DecidableEq

namespace PowerMode

def name : PowerMode → String
  | performance => "performance"
  | balanced => "balanced"
  | conservative => "conservative"
  | lowPower => "low_power"

def all : List PowerMode := [performance, balanced, conservative, lowPower]

/-- The low-power flag decides first, then charging; a battery at one fifth or below is
conservative, one at a half or below balanced. -/
def classify (battery : Level) (lowPowerMode charging : Bool) : PowerMode :=
  if lowPowerMode then lowPower
  else if charging then performance
  else if battery.le .oneFifth then conservative
  else if battery.le .half then balanced
  else performance

/-- How often a mode suggests to poll. -/
def suggestedInterval : PowerMode → Nat
  | performance => 30000
  | balanced => 60000
  | conservative => 120000
  | lowPower => 300000

end PowerMode

structure PowerState where
  battery : Level
  lowPowerMode : Bool
  inBackground : Bool
  mode : PowerMode
  suggestedInterval : Nat
  deriving Repr, DecidableEq

namespace PowerState

/-- In the foreground with a full battery. -/
def nominal : PowerState := ⟨.one, false, false, .performance, 30000⟩

/-- The same reading with its mode and interval derived from battery and flag, not charging. -/
def derived (s : PowerState) : PowerState :=
  let mode := PowerMode.classify s.battery s.lowPowerMode false
  { s with mode, suggestedInterval := mode.suggestedInterval }

def withLowPower (on : Bool) (s : PowerState) : PowerState :=
  { s with lowPowerMode := on }.derived

def withBattery (level : Level) (s : PowerState) : PowerState :=
  { s with battery := level.clamp }.derived

def withBackground (on : Bool) (s : PowerState) : PowerState :=
  { s with inBackground := on }

/-- The low-power flag is set, or the battery is at one fifth or below. -/
def isConstrained (s : PowerState) : Bool := s.lowPowerMode || s.battery.le .oneFifth

/-- Equality of readings, batteries compared as numbers. -/
def same (s t : PowerState) : Bool :=
  s.battery.eq t.battery && s.lowPowerMode == t.lowPowerMode && s.inBackground == t.inBackground &&
    s.mode == t.mode && s.suggestedInterval == t.suggestedInterval

end PowerState
end LanInference
