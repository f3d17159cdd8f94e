/-
# What a pushed reading remembers

A host pushes its reading by three setters, and two of them derive mode and interval anew from the
level and the flag as they then are. So mode and interval agree with level and flag after any calls
(`PowerState.settled`), and as a setter leaves what the other two set, all that counts of a sequence
of calls is the last argument of each (`PowerSetter.last`).

Key definitions: `PowerSetter`, `PowerSetter.set`, `PowerSetter.change`, `PowerSetter.last`,
`PowerState.settled`.
Key theorems: `PowerSetter.set_settled`, `PowerSetter.foldl_set_settled`,
`PowerSetter.foldl_set_nominal`.
-/
import LanInference.Power.Provider
import LanInference.Proofs.Power.Level

namespace LanInference

/-- A call of a setter. -/
inductive PowerSetter where
  | lowPower (on : Bool)
  | battery (level : Level)
  | background (on : Bool)
  deriving Repr, DecidableEq

/-- The reading with these level and flags whose mode and interval follow from them, not
charging. -/
def PowerState.settled (battery : Level) (lowPowerMode inBackground : Bool) : PowerState where
  battery
  lowPowerMode
  inBackground
  mode := .classify battery lowPowerMode false
  suggestedInterval := (PowerMode.classify battery lowPowerMode false).suggestedInterval

namespace PowerSetter

/-- The call on a reading. -/
def set (s : PowerState) : PowerSetter → PowerState
  | lowPower on => s.withLowPower on
  | battery level => s.withBattery level
  | background on => s.withBackground on

/-- The call as a change that a host pushes. -/
def change : PowerSetter → PowerChange
  | lowPower on => .lowPower on
  | battery level => .battery level
  | background on => .background on

def lowPower? : PowerSetter → Option Bool
  | lowPower on => some on
  | _ => none

def battery? : PowerSetter → Option Level
  | battery level => some level
  | _ => none

def background? : PowerSetter → Option Bool
  | background on => some on
  | _ => none

/-- The last argument among the calls, of those that `arg?` picks. -/
def last {α : Type} (arg? : PowerSetter → Option α) (calls : List PowerSetter) : Option α :=
  (calls.filterMap arg?).getLast?

theorem last_cons {α : Type} (arg? : PowerSetter → Option α) (c : PowerSetter)
    (calls : List PowerSetter) : last arg? (c :: calls) = (last arg? calls).or (arg? c) := by
  unfold last
  cases h : arg? c with
  | none => rw [List.filterMap_cons_none h, Option.or_none]
  | some a =>
    rw [List.filterMap_cons_some h, List.getLast?_cons]
    cases (calls.filterMap arg?).getLast? <;> rfl

/-- A call replaces what it sets in a settled reading, and leaves it settled. -/
theorem set_settled (b : Level) (l g : Bool) (c : PowerSetter) :
    set (.settled b l g) c =
      .settled ((c.battery?.map Level.clamp).getD b) (c.lowPower?.getD l)
        (c.background?.getD g) := by
  cases c <;> rfl

/-- After calls on a settled reading the last call of each setter counts. -/
theorem foldl_set_settled (calls : List PowerSetter) (b : Level) (l g : Bool) :
    calls.foldl set (.settled b l g) =
      .settled (((last battery? calls).map Level.clamp).getD b) ((last lowPower? calls).getD l)
        ((last background? calls).getD g) := by
  induction calls generalizing b l g with
  | nil => rfl
  | cons c calls ih =>
    rw [List.foldl_cons, set_settled, ih, last_cons, last_cons, last_cons]
    cases last battery? calls <;> cases last lowPower? calls <;>
      cases last background? calls <;> rfl

/-- The calls on a reading are the changes that a host pushes to it. -/
theorem foldl_apply_change (calls : List PowerSetter) (s : PowerState) :
    (calls.map change).foldl PowerState.apply s = calls.foldl set s := by
  rw [List.foldl_map]
  congr
  funext s c
  cases c <;> rfl

/-- The level of the nominal reading after calls is no number, or within the bounds. -/
theorem level_bounds (level? : Option Level) :
    ((level?.map Level.clamp).getD .one).isNaN = true ∨
      Level.zero.le ((level?.map Level.clamp).getD .one) = true ∧
        ((level?.map Level.clamp).getD .one).le .one = true := by
  cases level? with
  | none => exact .inr ⟨rfl, rfl⟩
  | some level =>
    cases h : level.isNaN with
    | true => exact .inl ((Level.isNaN_clamp level).trans h)
    | false => exact .inr (Level.clamp_bounds h)

/-- **The last call of each setter decides.** After any calls on the nominal reading, the level is
the last one given, clamped, each flag is the last one given, and mode and interval follow from
level and flag. The same goes for a host's pushed reading, and other calls with the same last
arguments lead to the same reading. -/
theorem foldl_set_nominal (calls : List PowerSetter) :
    let s := calls.foldl set .nominal
    s.battery = ((last battery? calls).map Level.clamp).getD .one ∧
    s.lowPowerMode = (last lowPower? calls).getD false ∧
    s.inBackground = (last background? calls).getD false ∧
    s.mode = .classify s.battery s.lowPowerMode false ∧
    s.suggestedInterval = s.mode.suggestedInterval ∧
    (s.battery.isNaN = true ∨ Level.zero.le s.battery = true ∧ s.battery.le .one = true) ∧
    (calls.map change).foldl PowerState.apply .nominal = s ∧
    ∀ others : List PowerSetter, last battery? others = last battery? calls →
      last lowPower? others = last lowPower? calls →
      last background? others = last background? calls → others.foldl set .nominal = s := by
  have hnominal : PowerState.nominal = .settled .one false false := rfl
  intro s
  have hs : s = .settled (((last battery? calls).map Level.clamp).getD .one)
      ((last lowPower? calls).getD false) ((last background? calls).getD false) :=
    foldl_set_settled calls .one false false
  refine ⟨by rw [hs]; rfl, by rw [hs]; rfl, by rw [hs]; rfl, by rw [hs]; rfl, by rw [hs]; rfl,
    ?bounds, foldl_apply_change calls .nominal, ?others⟩
  case bounds =>
    rw [hs]
    exact level_bounds (last battery? calls)
  case others =>
    intro others hb hl hg
    rw [hs, hnominal, foldl_set_settled, hb, hl, hg]

/-- Calls that pass through a low level and end at one that is no number. -/
def wavering : List PowerSetter :=
  [.battery .oneFifth, .lowPower true, .background true, .battery .nan, .lowPower false]

/-- The last of the wavering calls, in another order. -/
def straight : List PowerSetter := [.lowPower false, .battery .nan, .background true]

theorem foldl_set_nominal_of_wavering :
    last battery? straight = last battery? wavering ∧
    last lowPower? straight = last lowPower? wavering ∧
    last background? straight = last background? wavering ∧
    wavering.foldl set .nominal = ⟨.nan, false, true, .performance, 30000⟩ ∧
    straight.foldl set .nominal = wavering.foldl set .nominal := by
  obtain ⟨-, -, -, -, -, -, -, hothers⟩ := foldl_set_nominal wavering
  exact ⟨rfl, rfl, rfl, by decide +kernel, hothers straight rfl rfl rfl⟩

end PowerSetter
end LanInference
