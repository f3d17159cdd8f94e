/-
# The poll timer when power changes

An announced change of the low-power flag starts the poll timer again, an interval from now. If the
background flag changes in the same reading, only that change is acted upon; it pauses a scan, or
lets a paused one go on with its timer armed afresh. A scan that the user asked for heeds no change
of the background flag, so a change of the low-power flag that comes along with one is lost on it
and its timer stays as it was (`Engine.Overlooks`, `World.timer_kept_of_backgroundSaving`).

Key definitions: `Engine.Overlooks`, `Engine.Restarts`.
Key theorems: `Engine.InOrder.restarts_of_powerChanged`, `Engine.InOrder.session_of_overlooks`,
`World.timer_fires_iff`, `World.Reachable.rearmed`.
-/
import LanInference.Proofs.Discovery.Lifecycle
import LanInference.Proofs.Discovery.Spacing

namespace LanInference

/-- A full battery in the foreground, in low-power mode. -/
def PowerState.saving : PowerState := nominal.withLowPower true

namespace Engine

variable {now : Nat} {e e' : Engine} {es : List Effect} {s : ScanSession}

/-- A reading that changes the background flag of a scan that the user asked for: nothing else in it
is looked at. -/
def Overlooks (e : Engine) (s : ScanSession) (p : PowerState) : Prop :=
  s.userInitiated = true ∧ p.inBackground ≠ e.power.inBackground

/-- A session that is not paused polls in intervals. -/
theorem InOrder.interval_eq (h : e.InOrder) (hs : e.session = some s) (hp : s.paused = false) :
    (e.policy s.userInitiated).interval = some e.floor := by
  have hmay : ¬ (e.power.inBackground = true ∧ s.userInitiated = false) := by
    rw [← (h.orderly s hs).reading_iff, hp]
    exact Bool.false_ne_true
  rw [policy, PollingPolicy.interval_ofState, if_neg hmay]

/-- The session goes on; it is paused, or its timer starts now. -/
def Restarts (now : Nat) (s : ScanSession) (e' : Engine) : Prop :=
  ∃ s', e'.session = some s' ∧ s'.generation = s.generation ∧
    s'.userInitiated = s.userInitiated ∧
    (s'.paused = false → s'.nextTick = some (now + e'.floor))

theorem Polls.restarts (h : Polls now e s e' es) : Restarts now s e' := by
  cases h with
  | pause => exact ⟨_, rfl, rfl, rfl, fun hp => absurd hp.symm Bool.false_ne_true⟩
  | skip | run => exact ⟨_, rfl, rfl, rfl, fun _ => rfl⟩

/-- The timer starts at the interval of a policy that polls. -/
theorem restarts_of_interval
    (hs : e'.session = some { s with
      nextTick := (e'.policy s.userInitiated).interval.map (now + ·) })
    (hmay : ¬ (e'.power.inBackground = true ∧ s.userInitiated = false)) :
    Restarts now s e' := by
  refine ⟨_, hs, rfl, rfl, fun _ => ?_⟩
  rw [policy, PollingPolicy.interval_ofState, if_neg hmay]
  rfl

theorem restarts_toBackground (hu : s.userInitiated = false) :
    Restarts now s (e.toBackground s).1 := by
  have hnot : ¬ s.userInitiated = true := by simp [hu]
  rw [toBackground, if_neg hnot]
  exact ⟨_, rfl, rfl, rfl, fun hp => absurd hp.symm Bool.false_ne_true⟩

theorem restarts_toForeground (m : Moment) (hp : s.paused = true)
    (hf : e.power.inBackground = false) : Restarts m.now s (e.toForeground s m).1 := by
  rw [toForeground, if_pos hp]
  dsimp only
  split
  · exact (polls_of_tick (s := { s with paused := false }) rfl m.again).restarts
  · exact restarts_of_interval (s := { s with paused := false }) rfl (by simp [hf])

/-- A change of the low-power flag that the session heeds starts its timer. -/
theorem InOrder.restarts_of_powerChanged (h : e.InOrder) (hs : e.session = some s) (m : Moment)
    (hlow : m.reading.lowPowerMode ≠ e.power.lowPowerMode)
    (hheeds : ¬ e.Overlooks s m.reading) : Restarts m.now s (e.powerChanged m).1 := by
  have hreading := (h.orderly s hs).reading_iff
  unfold powerChanged
  rw [hs]
  dsimp only
  by_cases hb : m.reading.inBackground = e.power.inBackground
  · rw [if_neg (fun hne => hne hb.symm)]
    by_cases hp : s.paused = true
    · rw [if_neg (fun hall => hall.2 hp)]
      exact ⟨s, rfl, rfl, rfl, fun hunpaused => absurd (hunpaused.symm.trans hp) (by decide)⟩
    · rw [if_pos ⟨Ne.symm hlow, hp⟩]
      refine restarts_of_interval rfl ?_
      rwa [hb, ← hreading]
  · have huser : s.userInitiated = false := Bool.eq_false_iff.mpr fun hu => hheeds ⟨hu, hb⟩
    rw [if_pos (Ne.symm hb)]
    cases hm : m.reading.inBackground with
    | true => exact restarts_toBackground huser
    | false =>
      have hwas : e.power.inBackground = true := by
        rw [hm] at hb
        exact Bool.eq_true_of_not_eq_false (Ne.symm hb)
      exact restarts_toForeground m (hreading.mpr ⟨hwas, huser⟩) hm

/-- A session that overlooks a reading stays as it was. -/
theorem InOrder.session_of_overlooks (h : e.InOrder) (hs : e.session = some s) (m : Moment)
    (hover : e.Overlooks s m.reading) : (e.powerChanged m).1.session = some s := by
  have hp : ¬ s.paused = true := by
    rw [(h.orderly s hs).reading_iff, hover.1]
    exact fun hall => absurd hall.2 (by decide)
  unfold powerChanged
  rw [hs]
  dsimp only
  rw [if_pos (Ne.symm hover.2)]
  cases m.reading.inBackground with
  | true => rw [if_pos rfl, toBackground, if_pos hover.1]
  | false => rw [if_neg Bool.false_ne_true, toForeground, if_neg hp]

/-- **A change of the low-power flag starts the timer of a session that goes on,** unless the
session overlooks it. -/
theorem InOrder.timer_of_powerChanged (h : e.InOrder) (hs : e.session = some s) (m : Moment)
    (hlow : m.reading.lowPowerMode ≠ e.power.lowPowerMode) :
    ∃ s', (e.powerChanged m).1.session = some s' ∧ s'.generation = s.generation ∧
      s'.userInitiated = s.userInitiated ∧
      (¬ e.Overlooks s m.reading → s'.paused = false →
        s'.nextTick = some (m.now + (e.powerChanged m).1.floor)) ∧
      (e.Overlooks s m.reading → s' = s) := by
  by_cases hover : e.Overlooks s m.reading
  · exact ⟨s, h.session_of_overlooks hs m hover, rfl, rfl, fun hheeds => absurd hover hheeds,
      fun _ => rfl⟩
  · obtain ⟨s', hs', hgeneration, huser, htimer⟩ := h.restarts_of_powerChanged hs m hlow hover
    exact ⟨s', hs', hgeneration, huser, fun _ => htimer, fun hlost => absurd hlost hover⟩

end Engine

namespace World

variable {w : World} {s : ScanSession} {floor : Nat}

/-- The poll timer can fire from the instant on for which it is armed, as long as someone holds the
engine. -/
theorem step_timer (hs : w.engine.session = some s) {t : Nat} (hnext : s.nextTick = some t)
    (p : PowerState) :
    w.step (.timer p) = if w.isOpen = true ∧ t ≤ w.now then
      some (w.after (w.engine.tick ⟨w.now, p, p⟩)) else none := by
  unfold World.step
  simp only [hs, Option.bind_some, hnext]

theorem timer_fires_iff (hs : w.engine.session = some s) {t : Nat} (hnext : s.nextTick = some t)
    (time : Nat) (p : PowerState) :
    (w.run [.elapse time, .timer p]).isSome = true ↔ w.isOpen = true ∧ t ≤ w.now + time := by
  have hstep := step_timer (w := { w with now := w.now + time }) hs hnext p
  rw [run_cons, World.step, Option.bind_some, run_cons, hstep]
  by_cases hfires : w.isOpen = true ∧ t ≤ w.now + time
  · rw [if_pos hfires]
    exact iff_of_true rfl hfires
  · rw [if_neg hfires]
    exact iff_of_false Bool.false_ne_true hfires

/-- Only an engine that someone holds has a session. -/
theorem Reachable.isOpen_of_session (h : Reachable floor w) (hs : w.engine.session = some s) :
    w.isOpen = true := by
  by_contra hclosed
  rw [h.settled.2 (Bool.eq_false_iff.mpr hclosed)] at hs
  cases hs

/-- **An announced change of the low-power flag restarts the poll timer of a session that it does
not leave paused,** whatever else the reading changes, unless the user asked for the scan and the
background flag changes too. Then the session stays as it was. -/
theorem Reachable.rearmed (h : Reachable floor w) (hs : w.engine.session = some s)
    {p : PowerState} (hlow : p.lowPowerMode ≠ w.engine.power.lowPowerMode) (q : PowerState) :
    ∃ w' s', w.step (.command .powerChanged p q) = some w' ∧ w'.now = w.now ∧
      w'.engine.session = some s' ∧ s'.generation = s.generation ∧
      s'.userInitiated = s.userInitiated ∧
      (s'.paused = false → (w'.engine.policy s'.userInitiated).interval = some floor ∧
        (¬ w.engine.Overlooks s p → s'.nextTick = some (w.now + floor) ∧
          ∀ time r, (w'.run [.elapse time, .timer r]).isSome = true ↔ floor ≤ time)) ∧
      (w.engine.Overlooks s p → s' = s) := by
  have hopen := h.isOpen_of_session hs
  have hstep : w.step (.command .powerChanged p q) =
      some (w.after (w.engine.onCommand ⟨w.now, p, q⟩ .powerChanged)) := if_pos hopen
  obtain ⟨s', hs', hgeneration, huser, htimer, hsame⟩ :=
    (h.settled.1 hopen).timer_of_powerChanged hs ⟨w.now, p, q⟩ hlow
  have hafter := h.step hstep
  generalize hw' : w.after (w.engine.onCommand ⟨w.now, p, q⟩ .powerChanged) = w' at hstep hafter
  have hsession : w'.engine.session = some s' := by rw [← hw', after_engine, ← hs']; rfl
  have hnow : w'.now = w.now := by rw [← hw', after_now]
  have hopen' := hafter.isOpen_of_session hsession
  have hfloor : (w.engine.powerChanged ⟨w.now, p, q⟩).1.floor = floor := by
    rw [← hafter.floor_eq, ← hw', after_engine]
    rfl
  refine ⟨w', s', hstep, hnow, hsession, hgeneration, huser, fun hp => ⟨?_, fun hheeds => ?_⟩,
    hsame⟩
  · rw [(hafter.settled.1 hopen').interval_eq hsession hp, hafter.floor_eq]
  · have hnext : s'.nextTick = some (w.now + floor) := by
      rw [htimer hheeds hp, hfloor]
    refine ⟨hnext, fun time r => ?_⟩
    rw [timer_fires_iff hsession hnext, hnow]
    simp [hopen']

/-- A scan pauses in the background and comes back to the foreground in low-power mode. It is too
early for another poll then. -/
def backInLowPower : List Action :=
  [.command (.start false) .nominal .nominal, .elapse 5000,
    .command .powerChanged (PowerState.nominal.withBackground true) .nominal, .elapse 20000]

theorem rearmed_of_backInLowPower : ∃ w w' s s',
    (initial 30000 .nominal).run backInLowPower = some w ∧ w.engine.session = some s ∧
    s.paused = true ∧ ¬ w.engine.Overlooks s .saving ∧
    w.step (.command .powerChanged .saving .saving) = some w' ∧ w'.engine.session = some s' ∧
    s'.paused = false ∧ s'.lastPoll = some 0 ∧ s'.nextTick = some (25000 + 30000) := by
  have hbefore : (initial 30000 .nominal).run backInLowPower = some _ := rfl
  have hafter : ((initial 30000 .nominal).run (backInLowPower ++
      [.command .powerChanged .saving .saving])).map (fun w =>
        w.engine.session.map fun s => (s.paused, s.lastPoll)) = some (some (false, some 0)) := by
    decide +kernel
  have hheeds : ∀ e s, s.userInitiated = false → ¬ Engine.Overlooks e s .saving := by
    rintro e s hu ⟨hover, -⟩
    rw [hu] at hover
    cases hover
  obtain ⟨w', s', hstep, -, hs', -, -, htimer, -⟩ :=
    @Reachable.rearmed _ _ 30000 ⟨.nominal, backInLowPower, hbefore⟩ rfl .saving (by decide)
      .saving
  rw [run_concat, hbefore, Option.bind_some, hstep, Option.map_some, hs', Option.map_some,
    Option.some.injEq, Option.some.injEq, Prod.mk.injEq] at hafter
  exact ⟨_, w', _, s', rfl, rfl, rfl, hheeds _ _ rfl, hstep, hs', hafter.1, hafter.2,
    ((htimer hafter.1).2 (hheeds _ _ rfl)).1⟩

/-- A reading in the background and in low-power mode. -/
def backgroundSaving : PowerState := PowerState.saving.withBackground true

/-- Together with the low-power flag the host sets the background flag of a scan that the user asked
for: its timer runs out after 30 seconds all the same, and not 30 seconds after the change. -/
theorem timer_kept_of_backgroundSaving : ∃ w w' s s',
    (initial 30000 .nominal).run [.command (.start true) .nominal .nominal, .elapse 10000] =
      some w ∧
    w.now = 10000 ∧ w.engine.session = some s ∧
    backgroundSaving.lowPowerMode ≠ w.engine.power.lowPowerMode ∧
    w.step (.command .powerChanged backgroundSaving backgroundSaving) = some w' ∧
    w'.engine.session = some s' ∧ s'.paused = false ∧ s'.nextTick = some 30000 ∧
    s'.nextTick ≠ some (w.now + 30000) :=
  ⟨_, _, _, _, rfl, rfl, rfl, by decide, rfl, rfl, rfl, rfl, by decide⟩

end World
end LanInference
