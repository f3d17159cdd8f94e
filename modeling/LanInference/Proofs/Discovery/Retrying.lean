/-
# Trying again after a failed pass

A session whose pass has failed waits for its poll timer. Nothing that is reported meanwhile ends
the wait (`World.Stalled.step`). The timer begins another pass, unless in low-power mode the last
one began too short a time ago; then the pass stays failed and the timer starts again
(`World.Stalled.fires`), so it is the first firing two minutes after that pass, or later, that
tries again. A timer never fires sooner after a poll than an interval (`Engine.Timed`), so with
intervals of two minutes no firing is deferred.

Key definitions: `Engine.Timed`, `Action.Undisturbed`, `World.Stalled`, `World.Begins`,
`World.Skips`.
Key theorems: `Engine.Turn.timed`, `World.Stalled.fires`, `World.Stalled.step`,
`World.Stalled.run`, `World.Reachable.retried`.
-/
import LanInference.Proofs.Discovery.Rearming

namespace LanInference

/-- Both readings call for the same: they agree in the background flag and the low-power flag. -/
def PowerState.Agrees (p q : PowerState) : Prop :=
  p.inBackground = q.inBackground ∧ p.lowPowerMode = q.lowPowerMode

/-- Whether an action leaves the engine to its timer and what is reported to it, without a change of
power. -/
def Action.Undisturbed (p : PowerState) : Action → Prop
  | .command .. | .shutdown => False
  | .timer reading => reading.Agrees p
  | _ => True

namespace Engine

variable {now : Nat} {r : Option Report} {e e' : Engine} {es : List Effect} {s : ScanSession}

/-! ### The timer and the last poll -/

/-- The last poll is past, and the timer is armed for an interval after it or later. -/
def Timed (now : Nat) (e : Engine) : Prop :=
  ∀ s last, e.session = some s → s.lastPoll = some last →
    last ≤ now ∧ ∀ t, s.nextTick = some t → last + e.floor ≤ t

theorem timed_of_none (hs : e.session = none) : e.Timed now := by
  intro s _ hs'
  rw [hs] at hs'
  cases hs'

/-- A timer that starts now is armed for an interval after every poll. -/
theorem timed_of_starts (hs : e.session = some s)
    (hlast : ∀ last, s.lastPoll = some last → last ≤ now)
    (hnext : ∀ t, s.nextTick = some t → t = now + e.floor) : e.Timed now := by
  intro s' last hs' hlast'
  obtain rfl : s = s' := Option.some.inj (hs.symm.trans hs')
  have hle := hlast last hlast'
  refine ⟨hle, fun t ht => ?_⟩
  rw [hnext t ht]
  exact Nat.add_le_add_right hle _

/-- The floor, the last poll and the timer are all that matters. -/
theorem Timed.same {s' : ScanSession} (h : e.Timed now) (hs : e.session = some s)
    (hs' : e'.session = some s') (hfloor : e'.floor = e.floor) (hlast : s'.lastPoll = s.lastPoll)
    (hnext : s'.nextTick = s.nextTick) : e'.Timed now := by
  intro t last ht hpoll
  obtain rfl : s' = t := Option.some.inj (hs'.symm.trans ht)
  rw [hfloor, hnext]
  exact h s last hs (hlast ▸ hpoll)

theorem Polls.timed (h : Polls now e s e' es)
    (hlast : ∀ last, s.lastPoll = some last → last ≤ now) : e'.Timed now := by
  cases h with
  | pause => exact timed_of_starts rfl hlast fun t ht => by cases ht
  | skip => exact timed_of_starts rfl hlast fun t ht => (Option.some.inj ht).symm
  | run =>
    exact timed_of_starts rfl (fun last hl => Nat.le_of_eq (Option.some.inj hl).symm)
      fun t ht => (Option.some.inj ht).symm

theorem Turn.timed (h : Turn now r e e' es) (ht : e.Timed now) : e'.Timed now := by
  have hpast : ∀ {s last}, e.session = some s → s.lastPoll = some last → last ≤ now :=
    fun hs hlast => (ht _ _ hs hlast).1
  cases h with
  | rest | read => exact ht
  | stop => exact timed_of_none rfl
  | start _ _ hpolls => exact hpolls.timed fun last hlast => by cases hlast
  | timer _ hs _ hpolls => exact hpolls.timed fun _ hlast => hpast hs hlast
  | background _ hs =>
    exact timed_of_starts rfl (fun _ hlast => hpast hs hlast) fun t ht => by cases ht
  | resume _ hs _ hpolls => exact hpolls.timed fun _ hlast => hpast hs hlast
  | await _ hs =>
    exact timed_of_starts rfl (fun _ hlast => hpast hs hlast)
      fun t ht => (Option.some.inj ht).symm
  | @rearm _ s p hs =>
    refine timed_of_starts rfl (fun _ hlast => hpast hs hlast) fun t ht => ?_
    obtain ⟨interval, hinterval, rfl⟩ := Option.map_eq_some_iff.mp ht
    rw [PollingPolicy.interval_ofState] at hinterval
    split at hinterval
    · cases hinterval
    · rw [← Option.some.inj hinterval]
  | ask hs | drop hs | fail hs | succeed _ hs | refuse hs | accept hs =>
    exact ht.same hs rfl rfl rfl rfl

/-! ### What is reported to a session without a pass -/

theorem Course.passes_le (h : Course r e e' es) : e.passes ≤ e'.passes := by
  cases h with
  | keeps _ hn | ends _ hn | fails _ _ _ hn => exact Nat.le_of_eq hn.symm
  | begins _ _ _ hn => exact hn ▸ Nat.le_succ _

/-- Without a current pass no report changes the status, and none makes a pass begin. -/
theorem Turn.kept_of_report {r : Report} (h : Turn now (some r) e e' es) (hc : e.current = none) :
    e'.status = e.status ∧ e'.current = none ∧ e'.passes = e.passes := by
  cases h with
  | rest => exact ⟨rfl, hc, rfl⟩
  | ask hs hp | drop hs hp | fail hs hp =>
    rw [current_eq hs, hp] at hc
    cases hc
  | succeed _ hs | refuse hs | accept hs => exact ⟨rfl, (current_eq hs).symm.trans hc, rfl⟩

end Engine

namespace World

variable {w w' origin : World} {a : Action} {s : ScanSession} {q : PowerState} {reason : String}
  {floor : Nat}

theorem Change.isOpen_eq (h : Change w a w') (ha : a ≠ .shutdown) : w'.isOpen = w.isOpen := by
  cases h with
  | turn => exact after_isOpen _ _
  | sees | passEnds | validated | aside => rfl
  | shutdown => exact absurd rfl ha

/-- Passes are never uncounted. -/
theorem Change.passes_le (h : Change w a w') : w.engine.passes ≤ w'.engine.passes := by
  cases h with
  | turn _ _ _ hturn =>
    rw [after_engine]
    exact hturn.course.passes_le
  | sees | passEnds | validated | aside => exact Nat.le_refl _
  | shutdown =>
    rw [after_engine]
    unfold Engine.cancelSession
    split <;> exact Nat.le_refl _

theorem Reachable.timed (h : Reachable floor w) : w.engine.Timed w.now := by
  refine h.step_induct (P := fun w => w.engine.Timed w.now)
    (fun reading => Engine.timed_of_none rfl) fun {w w' a} ht hstep => ?_
  have hnow := now_le_of_step hstep
  cases change_of_step hstep with
  | turn _ _ _ hturn =>
    rw [after_engine, after_now]
    exact hturn.timed ht
  | sees | passEnds | validated | aside =>
    exact fun s last hs hlast => ⟨Nat.le_trans (ht s last hs hlast).1 hnow, (ht s last hs hlast).2⟩
  | shutdown =>
    refine Engine.timed_of_none ?_
    rw [after_engine]
    unfold Engine.cancelSession
    split <;> simp_all

/-! ### Waiting for the timer -/

/-- The engine still waits to try again after the pass that has failed in the world of origin. -/
structure Stalled (reason : String) (origin : World) (s : ScanSession) (w : World) : Prop where
  isOpen : w.isOpen = true
  status : w.engine.status = .failed reason
  floor_eq : w.engine.floor = origin.engine.floor
  passes_eq : w.engine.passes = origin.engine.passes
  agrees : w.engine.power.Agrees origin.engine.power
  current : w.engine.current = none
  clock : ∃ t, w.engine.clock = some ⟨s.generation, s.userInitiated, s.lastPoll, some t⟩
  allowed : ¬ origin.engine.Suppresses s

/-- A new pass of the session of a generation begins. -/
structure Begins (generation : Nat) (w w' : World) : Prop where
  status : w'.engine.status = .scanning
  passes_eq : w'.engine.passes = w.engine.passes + 1
  current : w'.engine.current = some (generation, w.engine.passes + 1)
  running : ∃ deadline,
    w'.passes = w.passes ++ [⟨generation, w.engine.passes + 1, deadline, false⟩]

/-- No pass begins, and the timer starts again. -/
structure Skips (floor : Nat) (w w' : World) : Prop where
  status : w'.engine.status = w.engine.status
  passes_eq : w'.engine.passes = w.engine.passes
  nextTick : w'.engine.session.bind (·.nextTick) = some (w.now + floor)

theorem Reachable.stalled (h : Reachable floor w) (ho : w.isOpen = true)
    (hfailed : w.engine.status = .failed reason) :
    ∃ s, w.engine.session = some s ∧ Stalled reason w s w := by
  obtain ⟨s, t, hs, hp, hpass, hnext⟩ := h.lifecycle.failed ho reason hfailed
  refine ⟨s, hs, ho, hfailed, rfl, rfl, ⟨rfl, rfl⟩, ?_, ⟨t, ?_⟩, ?_⟩
  · rw [Engine.current_eq hs, hpass]
    rfl
  · rw [Engine.clock_eq hs, hnext]
  · intro hsuppressed
    have hpaused := (h.lifecycle.reading_iff s hs).mpr hsuppressed
    rw [hp] at hpaused
    cases hpaused

/-- What is reported to the engine leaves it waiting. -/
theorem Stalled.after_report {rest : List Report} {r : Report} {e : Engine} {es : List Effect}
    (h : Stalled reason origin s w) (hturn : Engine.Turn w.now (some r) w.engine e es) :
    Stalled reason origin s ({ w with mailbox := rest }.after (e, es)) := by
  obtain ⟨hclock, hpower, hfloor, -⟩ := hturn.clock_of_report
  obtain ⟨hstatus, hcurrent, hpasses⟩ := hturn.kept_of_report h.current
  constructor
  · rw [after_isOpen, h.isOpen]
  · rw [after_engine, hstatus, h.status]
  · rw [after_engine, hfloor, h.floor_eq]
  · rw [after_engine, hpasses, h.passes_eq]
  · rw [after_engine, hpower]
    exact h.agrees
  · rw [after_engine, hcurrent]
  · rw [after_engine, hclock]
    exact h.clock
  · exact h.allowed

/-- Only the engine matters, and that someone holds it. -/
theorem Stalled.of_eq (h : Stalled reason origin s w) (hopen : w'.isOpen = w.isOpen)
    (hengine : w'.engine = w.engine) : Stalled reason origin s w' :=
  ⟨hopen.trans h.isOpen, hengine ▸ h.status, hengine ▸ h.floor_eq, hengine ▸ h.passes_eq,
    hengine ▸ h.agrees, hengine ▸ h.current, hengine ▸ h.clock, h.allowed⟩

/-- **The timer tries again, unless it is too early for another poll.** -/
theorem Stalled.fires (h : Stalled reason origin s w) (hq : q.Agrees origin.engine.power)
    (hstep : w.step (.timer q) = some w') :
    (¬ origin.engine.Defers s w.now → w.Begins s.generation w') ∧
      (origin.engine.Defers s w.now →
        w.Skips origin.engine.floor w' ∧ Stalled reason origin s w') := by
  obtain ⟨tick, hclock⟩ := h.clock
  obtain ⟨t, ht, hgeneration, huser, hlast, hnext⟩ := Engine.clock_eq_some_iff.mp hclock
  dsimp only at hgeneration huser hlast hnext
  have hpass : t.pass = none := by
    have hcurrent := h.current
    rw [Engine.current_eq ht, Option.map_eq_none_iff] at hcurrent
    exact hcurrent
  have hw' : w' = w.after (w.engine.tick ⟨w.now, q, q⟩) := by
    rw [step_timer ht hnext] at hstep
    split at hstep
    · exact (Option.some.inj hstep).symm
    · cases hstep
  have hpolls := Engine.polls_of_tick ht ⟨w.now, q, q⟩
  generalize w.engine.tick ⟨w.now, q, q⟩ = result at hw' hpolls
  obtain ⟨e, es⟩ := result
  subst hw'
  dsimp only at hpolls
  have hdefers : Engine.Defers { w.engine with power := q } t w.now ↔
      origin.engine.Defers s w.now := by
    unfold Engine.Defers
    rw [hq.2, huser, hlast]
  cases hpolls with
  | pause hsuppressed =>
    refine absurd ?_ h.allowed
    unfold Engine.Suppresses at hsuppressed ⊢
    rwa [← hq.1, ← huser]
  | skip _ hd =>
    have hnext : some (w.now + w.engine.floor) = some (w.now + origin.engine.floor) := by
      rw [h.floor_eq]
    refine ⟨fun hnot => absurd (hdefers.mp hd) hnot, fun _ => ⟨⟨rfl, rfl, hnext⟩, ?_⟩⟩
    refine ⟨h.isOpen, h.status, h.floor_eq, h.passes_eq, hq, ?_, ⟨w.now + w.engine.floor, ?_⟩,
      h.allowed⟩
    · rw [after_engine, Engine.current_eq rfl, hpass]
      rfl
    · rw [after_engine, Engine.clock_eq rfl, hgeneration, huser, hlast]
  | run _ hd =>
    refine ⟨fun _ => ?_, fun hdefer => absurd (hdefers.mpr hdefer) hd⟩
    rw [← hgeneration]
    refine ⟨by rw [after_engine]; rfl, by rw [after_engine]; rfl,
      by rw [after_engine, Engine.current_eq rfl]; rfl, ?_⟩
    simp only [Engine.startPass, ScanSession.endPass, Engine.polled, hpass]
    exact ⟨_, rfl⟩

/-- **As long as no pass begins the engine waits,** whatever is reported to it. -/
theorem Stalled.step (h : Stalled reason origin s w) (ha : a.Undisturbed origin.engine.power)
    (hstep : w.step a = some w') :
    Stalled reason origin s w' ∨ origin.engine.passes < w'.engine.passes := by
  cases a with
  | command | shutdown => exact ha.elim
  | deliver reading =>
    obtain ⟨r, rest, -, rfl⟩ := report_of_deliver hstep
    exact .inl (h.after_report (w.engine.turn_of_onReport ⟨w.now, reading, reading⟩ r))
  | timer q =>
    obtain ⟨hbegins, hskips⟩ := h.fires ha hstep
    by_cases hdefer : origin.engine.Defers s w.now
    · exact .inl (hskips hdefer).2
    · right
      rw [(hbegins hdefer).passes_eq, h.passes_eq]
      exact Nat.lt_succ_self _
  | browse | passEnds | validated | poll | elapse | subscribe | unsubscribe =>
    have hopen := (change_of_step hstep).isOpen_eq (by simp)
    exact .inl (h.of_eq hopen (kept_of_step hstep rfl).1)

theorem Stalled.run {as : List Action} (h : Stalled reason origin s w)
    (has : ∀ a ∈ as, a.Undisturbed origin.engine.power) (hrun : w.run as = some w')
    (hpasses : w'.engine.passes = origin.engine.passes) : Stalled reason origin s w' := by
  have hwaits : Stalled reason origin s w' ∨ origin.engine.passes < w'.engine.passes := by
    refine run_induct (P := fun v => Stalled reason origin s v ∨
      origin.engine.passes < v.engine.passes) (.inl h) (fun a ha v v' hv hstep => ?_) hrun
    rcases hv with hv | hv
    · exact hv.step (has a ha) hstep
    · exact .inr (Nat.lt_of_lt_of_le hv (change_of_step hstep).passes_le)
  refine hwaits.resolve_right fun hlt => ?_
  rw [hpasses] at hlt
  exact Nat.lt_irrefl _ hlt

/-- A firing is deferred only if the interval is below the spacing. -/
theorem Stalled.floor_lt (h : Stalled reason origin s w) (ht : w.engine.Timed w.now)
    (hfires : (w.step (.timer q)).isSome = true) (hd : origin.engine.Defers s w.now) :
    origin.engine.floor < PollingPolicy.lowPowerSpacing := by
  obtain ⟨tick, hclock⟩ := h.clock
  obtain ⟨t, hs, -, -, hlast, hnext⟩ := Engine.clock_eq_some_iff.mp hclock
  obtain ⟨-, -, last, hlast', hearly⟩ := hd
  have hdue : tick ≤ w.now := by
    by_contra hlate
    rw [step_timer hs hnext, if_neg fun hall => hlate hall.2] at hfires
    cases hfires
  have hafter := (ht t last hs (hlast.trans hlast')).2 tick hnext
  rw [h.floor_eq] at hafter
  omega

/-- **A failed pass is tried again.** As long as no command and no change of power comes and no pass
has begun, the status tells of the failure and the poll timer is armed, whatever is reported; and a
firing of it begins a pass, unless it is too early for another poll. That takes low-power mode, a
scan that the user did not ask for, and an interval below two minutes; then the timer starts
again. -/
theorem Reachable.retried (h : Reachable floor w) (ho : w.isOpen = true)
    (hfailed : w.engine.status = .failed reason) :
    ∃ s, w.engine.session = some s ∧
      ∀ {as : List Action} {v : World}, (∀ a ∈ as, a.Undisturbed w.engine.power) →
        w.run as = some v → v.engine.passes = w.engine.passes →
          v.engine.status = .failed reason ∧
          (∃ tick, ∀ time q,
            (v.run [.elapse time, .timer q]).isSome = true ↔ tick ≤ v.now + time) ∧
          ∀ {q : PowerState} {v' : World}, q.Agrees w.engine.power → v.step (.timer q) = some v' →
            (¬ w.engine.Defers s v.now → v.Begins s.generation v') ∧
            (w.engine.Defers s v.now → floor < 120000 ∧ v.Skips floor v') := by
  obtain ⟨s, hs, hstalled⟩ := h.stalled ho hfailed
  refine ⟨s, hs, fun {as v} has hrun hpasses => ?_⟩
  have hv := hstalled.run has hrun hpasses
  have hreachable := h.run hrun
  refine ⟨hv.status, ?_, fun {q v'} hq hstep => ?_⟩
  · obtain ⟨tick, hclock⟩ := hv.clock
    obtain ⟨t, ht, -, -, -, hnext⟩ := Engine.clock_eq_some_iff.mp hclock
    refine ⟨tick, fun time q => ?_⟩
    rw [timer_fires_iff ht hnext]
    simp [hv.isOpen]
  · obtain ⟨hbegins, hskips⟩ := hv.fires hq hstep
    refine ⟨hbegins, fun hdefer => ?_⟩
    have hfires : (v.step (.timer q)).isSome = true := by rw [hstep]; rfl
    have hlt := hv.floor_lt hreachable.timed hfires hdefer
    have hskipped := (hskips hdefer).1
    rw [h.floor_eq] at hlt hskipped
    exact ⟨hlt, hskipped⟩

/-- A pass fails at once in low-power mode. -/
def failedSaving : List Action :=
  [.command (.start false) .saving .saving, .passEnds 1 (some "lost"), .deliver .saving]

/-- The timer fires after 50 seconds and after 50 more, both times too early for another poll, and
50 more pass. -/
def twoFirings : List Action :=
  [.elapse 50000, .timer .saving, .elapse 50000, .timer .saving, .elapse 50000]

theorem retried_of_twoFirings : ∃ w v v' : World,
    (initial 50000 .saving).run failedSaving = some w ∧ w.engine.status = .failed "lost" ∧
    w.run twoFirings = some v ∧ v.engine.status = .failed "lost" ∧
    v.step (.timer .saving) = some v' ∧ v'.now = 150000 ∧ v.Begins 1 v' := by
  have hbefore : ((initial 50000 .saving).run failedSaving).map (fun w =>
      (w.isOpen, w.engine.status, w.engine.power, w.engine.passes,
        w.engine.session.map fun s => (s.generation, s.lastPoll))) =
          some (true, .failed "lost", .saving, 1, some (1, some 0)) := rfl
  have hbetween : ((initial 50000 .saving).run (failedSaving ++ twoFirings)).map
      (fun v => (v.now, v.engine.passes)) = some (150000, 1) := by decide +kernel
  have hafter : ((initial 50000 .saving).run ((failedSaving ++ twoFirings) ++
      [.timer .saving])).map (fun v => v.now) = some 150000 := by decide +kernel
  obtain ⟨w, hw, hfacts⟩ := Option.map_eq_some_iff.mp hbefore
  obtain ⟨v, hv, hnow⟩ := Option.map_eq_some_iff.mp hbetween
  obtain ⟨v', hv', hlater⟩ := Option.map_eq_some_iff.mp hafter
  simp only [Prod.mk.injEq] at hfacts hnow
  obtain ⟨hopen, hfailed, hpower, hpasses, hsession⟩ := hfacts
  rw [run_concat, hv, Option.bind_some] at hv'
  rw [run_append, hw, Option.bind_some] at hv
  have hundisturbed : ∀ a ∈ twoFirings, a.Undisturbed w.engine.power := by
    simp [twoFirings, Action.Undisturbed, PowerState.Agrees, hpower]
  obtain ⟨s, hs, hretried⟩ :=
    @Reachable.retried w "lost" 50000 ⟨.saving, failedSaving, hw⟩ hopen hfailed
  obtain ⟨hstatus, -, hfires⟩ := hretried hundisturbed hv (hnow.2.trans hpasses.symm)
  rw [hs, Option.map_some, Option.some.injEq, Prod.mk.injEq] at hsession
  have hlate : ¬ w.engine.Defers s v.now := by
    rintro ⟨-, -, t, ht, hlt⟩
    obtain rfl : 0 = t := Option.some.inj (hsession.2.symm.trans ht)
    rw [hnow.1] at hlt
    exact absurd hlt (by decide)
  have hagrees : PowerState.saving.Agrees w.engine.power := by
    rw [hpower]
    exact ⟨rfl, rfl⟩
  have hbegins := (hfires hagrees hv').1 hlate
  rw [hsession.1] at hbegins
  exact ⟨w, v, v', hw, hfailed, hv, hstatus, hv', hlater, hbegins⟩

/-- In low-power mode the first firing after a failure begins no pass and leaves the status. -/
theorem unretried_of_failedSaving : ∃ w v : World,
    (initial 30000 .saving).run failedSaving = some w ∧ w.isOpen = true ∧
    w.engine.status = .failed "lost" ∧ w.run [.elapse 30000] = some v ∧
    ∃ v', v.step (.timer .saving) = some v' ∧ v'.engine.status = .failed "lost" ∧
      v'.engine.passes = w.engine.passes :=
  ⟨_, _, rfl, rfl, rfl, rfl, _, rfl, rfl, rfl⟩

end World
end LanInference
