/-
# Where readings come from

Two sources of power readings: what a host pushed last, and the battery directories of the
machine, of which the first that can be read counts; without a battery the machine runs on mains.

Key definitions: `PowerChange`, `PowerState.apply`, `Supply.battery?`, `BatteryReading`,
`BatteryReading.ofSupplies`, `BatteryReading.state`.
-/
import LanInference.Power.State
import LanInference.Text.Digits
import LanInference.Text.Trim
import LanInference.Text.Utf8

namespace LanInference

/-- A change that a host pushes to its reading. -/
inductive PowerChange where
  | lowPower (on : Bool)
  | background (on : Bool)
  | battery (level : Level)
  | replace (s : PowerState)
  deriving Repr, DecidableEq

/-- The pushed reading after a change. -/
def PowerState.apply (s : PowerState) : PowerChange → PowerState
  | .lowPower on => s.withLowPower on
  | .background on => s.withBackground on
  | .battery level => s.withBattery level
  | .replace t => t

/-- A battery as its directory describes it. -/
structure BatteryReading where
  level : Level
  charging : Bool
  deriving Repr, DecidableEq

/-- A power supply: the contents of its files, by name. -/
abbrev Supply := List (String × List UInt8)

namespace Supply

/-- A file's text without blanks around it, if the file is there and is UTF-8. -/
def trimmed? (s : Supply) (file : String) : Option (List Char) := do
  let (_, bytes) ← s.find? (·.1 = file)
  return Text.trim (← Utf8.decode? bytes)

/-- The reading of a supply that is a battery with a capacity in percent. -/
def battery? (s : Supply) : Option BatteryReading :=
  if s.trimmed? "type" = some "Battery".toList then
    ((s.trimmed? "capacity").bind (Text.natural? 256)).map fun capacity =>
      { level := (Level.nearest false capacity 100).clamp
        charging := (s.trimmed? "status").getD [] ≠ "Discharging".toList }
  else none

end Supply

namespace BatteryReading

/-- A machine without a battery. -/
def mains : BatteryReading := ⟨.one, true⟩

/-- The first battery among the supplies, or mains power. -/
def ofSupplies (supplies : List Supply) : BatteryReading :=
  (supplies.findSome? Supply.battery?).getD mains

/-- A battery at one fifth or below that does not charge. -/
def lowPower (r : BatteryReading) : Bool := !r.charging && r.level.le .oneFifth

/-- The power state of a machine, which is never in the background. -/
def state (r : BatteryReading) : PowerState :=
  let mode := PowerMode.classify r.level r.lowPower r.charging
  ⟨r.level, r.lowPower, false, mode, mode.suggestedInterval⟩

end BatteryReading
end LanInference
