/-
# The spacing of polls in low-power mode

A session remembers when its last pass began, and in low-power mode a tick skips until two minutes
have gone by since then, unless the user asked for the scan. Whatever brings the tick on, a pass
that begins under a low-power reading is therefore two minutes after all earlier ones of its session
(`World.Paced`). A skipped tick arms the timer again a poll interval later. So a session that is
left in the foreground and in low-power mode polls exactly once in the least multiple of the
interval that reaches two minutes (`World.OnSchedule`), whatever is reported to it in between.

Key definitions: `World.polledAt`, `Engine.Paces`, `World.Paced`, `pollPeriod`, `World.CalmRun`,
`World.OnSchedule`, `World.Spaced`.
Key theorems: `Engine.Turn.paces`, `World.Paced.apart`, `World.OnSchedule.step`,
`World.OnSchedule.reaches`, `World.Reachable.spaced`.
-/
import Mathlib.Algebra.Order.Floor.Div
import LanInference.Proofs.Discovery.Isolation

namespace LanInference

/-- The session whose pass an effect starts. -/
def Effect.polls? : Effect → Option Nat
  | startPass generation _ _ => some generation
  | _ => none

/-! ### What a turn does to the last poll -/

namespace Engine

variable {now : Nat} {r : Option Report} {e e' : Engine} {es : List Effect} {s : ScanSession}

theorem endPass_starts_none (s : ScanSession) : s.endPass.2.filterMap Effect.polls? = [] :=
  s.filterMap_endPass fun _ => rfl

theorem cancelSession_starts_none (e : Engine) :
    e.cancelSession.2.filterMap Effect.polls? = [] :=
  e.filterMap_cancelSession fun _ => rfl

theorem publish_starts_none (b : Bool) (snapshot : List Endpoint) :
    (if b then [Effect.publish snapshot] else []).filterMap Effect.polls? = [] := by
  cases b <;> rfl

/-- What becomes of the last poll of a session: it is kept, or a pass begins now, not too early
under the reading that the engine then has. -/
inductive Paces (now : Nat) (e' : Engine) (es : List Effect) (s s' : ScanSession) : Prop
  | keeps (hlast : s'.lastPoll = s.lastPoll) (hes : es.filterMap Effect.polls? = [])
  | polls (hlast : s'.lastPoll = some now) (hes : es.filterMap Effect.polls? = [s.generation])
      (hd : ¬ e'.Defers s now)

/-- A session goes on: it is the same one, and paces itself. -/
structure GoesOn (now : Nat) (e' : Engine) (es : List Effect) (s s' : ScanSession) : Prop where
  session : e'.session = some s'
  generation : s'.generation = s.generation
  userInitiated : s'.userInitiated = s.userInitiated
  paces : Paces now e' es s s'

theorem Polls.goesOn (h : Polls now e s e' es) : ∃ s', GoesOn now e' es s s' := by
  cases h with
  | pause => exact ⟨_, rfl, rfl, rfl, .keeps rfl (endPass_starts_none s)⟩
  | skip => exact ⟨_, rfl, rfl, rfl, .keeps rfl rfl⟩
  | run _ hd =>
    refine ⟨_, rfl, rfl, rfl, .polls rfl ?_ hd⟩
    have hcancelled : (e.polled s now).endPass.2 = s.endPass.2 := rfl
    rw [startPass, List.filterMap_append, hcancelled, endPass_starts_none]
    rfl

theorem GoesOn.prepend {fs : List Effect} {s' : ScanSession} (h : GoesOn now e' es s s')
    (hfs : fs.filterMap Effect.polls? = []) : GoesOn now e' (fs ++ es) s s' := by
  have hes : (fs ++ es).filterMap Effect.polls? = es.filterMap Effect.polls? := by
    rw [List.filterMap_append, hfs, List.nil_append]
  refine ⟨h.session, h.generation, h.userInitiated, ?_⟩
  cases h.paces with
  | keeps hlast hq => exact .keeps hlast (hes.trans hq)
  | polls hlast hp hd => exact .polls hlast (hes.trans hp) hd

/-- **After a turn there is no session, or the session goes on,** or a fresh one does. -/
theorem Turn.paces (h : Turn now r e e' es) :
    (e'.session = none ∧ es.filterMap Effect.polls? = []) ∨
      ∃ s s', (e.session = some s ∨ s = e.freshSession s.userInitiated) ∧
        GoesOn now e' es s s' := by
  cases h with
  | rest =>
    cases hs : e.session with
    | none => exact .inl ⟨rfl, rfl⟩
    | some s => exact .inr ⟨s, s, .inl rfl, hs, rfl, rfl, .keeps rfl rfl⟩
  | read p =>
    cases hs : e.session with
    | none => exact .inl ⟨rfl, rfl⟩
    | some s => exact .inr ⟨s, s, .inl rfl, rfl, rfl, rfl, .keeps rfl rfl⟩
  | stop => exact .inl ⟨rfl, cancelSession_starts_none e⟩
  | start userInitiated p hpolls =>
    obtain ⟨s', hgoes⟩ := hpolls.goesOn
    refine .inr ⟨_, s', .inr rfl, hgoes.prepend ?_⟩
    rw [List.filterMap_append, cancelSession_starts_none, clearing, publish_starts_none]
    rfl
  | timer p hs _ hpolls =>
    obtain ⟨s', hgoes⟩ := hpolls.goesOn
    exact .inr ⟨_, s', .inl hs, hgoes⟩
  | background p hs =>
    exact .inr ⟨_, _, .inl hs, rfl, rfl, rfl, .keeps rfl (endPass_starts_none _)⟩
  | @resume _ _ s p _ hs _ hpolls =>
    obtain ⟨s', hsession, hgeneration, huser, hpaces⟩ := hpolls.goesOn
    refine .inr ⟨s, s', .inl hs, hsession, hgeneration, huser, ?_⟩
    cases hpaces with
    | keeps hlast hes => exact .keeps hlast hes
    | polls hlast hes hd => exact .polls hlast hes hd
  | await p hs => exact .inr ⟨_, _, .inl hs, rfl, rfl, rfl, .keeps rfl rfl⟩
  | rearm p hs => exact .inr ⟨_, _, .inl hs, rfl, rfl, rfl, .keeps rfl rfl⟩
  | ask hs => exact .inr ⟨_, _, .inl hs, rfl, rfl, rfl, .keeps rfl rfl⟩
  | drop hs => exact .inr ⟨_, _, .inl hs, rfl, rfl, rfl, .keeps rfl (publish_starts_none _ _)⟩
  | fail hs => exact .inr ⟨_, _, .inl hs, rfl, rfl, rfl, .keeps rfl rfl⟩
  | succeed _ hs => exact .inr ⟨_, _, .inl hs, rfl, rfl, rfl, .keeps rfl rfl⟩
  | refuse hs => exact .inr ⟨_, _, .inl hs, rfl, rfl, rfl, .keeps rfl rfl⟩
  | accept hs => exact .inr ⟨_, _, .inl hs, rfl, rfl, rfl, .keeps rfl (publish_starts_none _ _)⟩

/-- A pass begins for the session that there is then. -/
theorem Turn.session_of_polls {generation : Nat} (h : Turn now r e e' es)
    (hg : generation ∈ es.filterMap Effect.polls?) :
    ∃ s, e'.session = some s ∧ s.generation = generation := by
  rcases h.paces with ⟨-, hes⟩ | ⟨s, s', -, hgoes⟩
  · rw [hes] at hg
    cases hg
  · cases hgoes.paces with
    | keeps _ hes =>
      rw [hes] at hg
      cases hg
    | polls _ hes =>
      rw [hes, List.mem_singleton] at hg
      exact ⟨s', hgoes.session, hgoes.generation.trans hg.symm⟩

end Engine

/-! ### The passes of a session -/

namespace World

variable {w w' : World} {a : Action} {e : Engine} {es : List Effect} {generation : Nat}

/-- When the passes of a session began, the newest first. -/
def polledAt (w : World) (generation : Nat) : List Nat :=
  w.record.filterMap fun x => if x.2.polls? = some generation then some x.1 else none

/-- Each pass that is asked for begins now. -/
theorem polledAt_after (w : World) (e : Engine) (es : List Effect) (generation : Nat) :
    (w.after (e, es)).polledAt generation =
      ((es.filterMap Effect.polls?).filterMap
        fun g => if g = generation then some w.now else none).reverse ++ w.polledAt generation := by
  rw [polledAt, filterMap_record_after, List.filterMap_filterMap]
  refine congrArg (List.reverse · ++ _) (List.filterMap_congr fun x _ => ?_)
  cases x.polls? with
  | none => simp
  | some g => simp

theorem polledAt_of_quiet (hes : es.filterMap Effect.polls? = []) :
    (w.after (e, es)).polledAt generation = w.polledAt generation := by
  rw [polledAt_after, hes]
  rfl

theorem polledAt_of_polls {g : Nat} (hes : es.filterMap Effect.polls? = [g]) :
    (w.after (e, es)).polledAt generation =
      if g = generation then w.now :: w.polledAt generation else w.polledAt generation := by
  rw [polledAt_after, hes]
  by_cases hg : g = generation <;> simp [hg]

theorem mem_polledAt_after {t : Nat} (h : t ∈ (w.after (e, es)).polledAt generation) :
    (generation ∈ es.filterMap Effect.polls? ∧ t = w.now) ∨ t ∈ w.polledAt generation := by
  rw [polledAt_after, List.mem_append, List.mem_reverse, List.mem_filterMap] at h
  rcases h with ⟨g, hg, ht⟩ | h
  · split at ht
    · rename_i heq
      exact .inl ⟨heq ▸ hg, (Option.some.inj ht).symm⟩
    · cases ht
  · exact .inr h

/-- The last poll of the session is its newest pass, passes began in the past, and none belongs to a
session that has not. -/
structure Paced (w : World) : Prop where
  last : ∀ s, w.engine.session = some s → ∀ t ∈ w.polledAt s.generation,
    ∃ last, s.lastPoll = some last ∧ t ≤ last
  past : ∀ generation, ∀ t ∈ w.polledAt generation, t ≤ w.now
  future : ∀ generation, w.engine.generation < generation → w.polledAt generation = []

theorem Paced.of_eq (h : w.Paced) (hengine : w'.engine = w.engine) (hrecord : w'.record = w.record)
    (hnow : w.now ≤ w'.now) : w'.Paced := by
  have hpolled : ∀ generation, w'.polledAt generation = w.polledAt generation :=
    fun generation => by rw [polledAt, hrecord, polledAt]
  refine ⟨fun s hs t ht => ?_, fun generation t ht => ?_, fun generation hlt => ?_⟩
  · exact h.last s (hengine ▸ hs) t (hpolled _ ▸ ht)
  · exact Nat.le_trans (h.past generation t (hpolled _ ▸ ht)) hnow
  · rw [hpolled]
    exact h.future generation (hengine ▸ hlt)

/-- Before a session goes on, its passes began by its last poll. -/
theorem Paced.last_of_goesOn (h : w.Paced) {s : ScanSession}
    (hs : w.engine.session = some s ∨ s = w.engine.freshSession s.userInitiated) :
    ∀ t ∈ w.polledAt s.generation, ∃ last, s.lastPoll = some last ∧ t ≤ last := by
  rcases hs with hs | hs
  · exact h.last s hs
  · -- A fresh session has a generation of its own, of which no pass has begun.
    have hnew : s.generation = w.engine.generation + 1 := congrArg ScanSession.generation hs
    rw [hnew, h.future _ (Nat.lt_succ_self _)]
    intro t ht
    cases ht

theorem Paced.after {r : Option Report} (h : w.Paced) (hturn : Engine.Turn w.now r w.engine e es)
    (hlatest : ∀ s, e.session = some s → s.generation = e.generation) :
    (w.after (e, es)).Paced := by
  have hpast : ∀ generation, ∀ t ∈ (w.after (e, es)).polledAt generation, t ≤ w.now := by
    intro generation t ht
    rcases mem_polledAt_after ht with ⟨-, rfl⟩ | ht
    · exact Nat.le_refl _
    · exact h.past generation t ht
  refine ⟨fun s' hs' t ht => ?_, fun generation t ht => ?_, fun generation hlt => ?_⟩
  · rw [after_engine] at hs'
    rcases hturn.paces with ⟨hnone, -⟩ | ⟨s, s'', hs, hgoes⟩
    · rw [hnone] at hs'
      cases hs'
    · obtain rfl : s'' = s' := Option.some.inj (hgoes.session.symm.trans hs')
      cases hgoes.paces with
      | polls hpolled => exact ⟨w.now, hpolled, hpast _ t ht⟩
      | keeps hkept hes =>
        rw [polledAt_of_quiet hes, hgoes.generation] at ht
        rw [hkept]
        exact h.last_of_goesOn hs t ht
  · rw [after_now]
    exact hpast generation t ht
  · rw [after_engine] at hlt
    refine List.eq_nil_iff_forall_not_mem.mpr fun t ht => ?_
    rcases mem_polledAt_after ht with ⟨hg, -⟩ | ht
    · obtain ⟨s', hs', rfl⟩ := hturn.session_of_polls hg
      rw [hlatest s' hs'] at hlt
      exact Nat.lt_irrefl _ hlt
    · rw [h.future generation (Nat.lt_of_le_of_lt hturn.dealing.generation_le hlt)] at ht
      cases ht

theorem Paced.step (h : w.Paced) (hb' : w'.Bookkept) (hstep : w.step a = some w') : w'.Paced := by
  have hnow := now_le_of_step hstep
  cases change_of_step hstep with
  | @turn _ r rest e es ho hm ha hturn =>
    have hrest : { w with mailbox := rest }.Paced := h.of_eq rfl rfl (Nat.le_refl _)
    refine hrest.after hturn fun s hs => ?_
    have hlatest := hb'.generation_eq (s := s) (by rw [after_engine]; exact hs)
    rw [after_engine] at hlatest
    exact hlatest
  | sees | passEnds | validated | aside => exact h.of_eq rfl rfl hnow
  | shutdown =>
    have hquiet := w.engine.cancelSession_starts_none
    have hsession : w.engine.cancelSession.1.session = none ∧
        w.engine.cancelSession.1.generation = w.engine.generation := by
      unfold Engine.cancelSession
      cases hs : w.engine.session <;> simp [hs]
    have hpolled : ∀ generation, World.polledAt
        { w.after w.engine.cancelSession with isOpen := false, mailbox := [] } generation =
          w.polledAt generation := fun generation => polledAt_of_quiet hquiet
    refine ⟨fun s hs => ?_, fun generation t ht => ?_, fun generation hlt => ?_⟩
    · rw [after_engine, hsession.1] at hs
      cases hs
    · rw [hpolled] at ht
      exact Nat.le_trans (h.past generation t ht) hnow
    · rw [after_engine, hsession.2] at hlt
      rw [hpolled]
      exact h.future generation hlt

theorem Reachable.paced {floor : Nat} (h : Reachable floor w) : w.Paced := by
  have hboth : w.Bookkept ∧ w.Paced := by
    refine h.step_induct (P := fun w => w.Bookkept ∧ w.Paced) (fun reading => ?_) fun h hstep => ?_
    · have hinitial : Reachable floor (initial floor reading) := ⟨reading, [], rfl⟩
      refine ⟨hinitial.bookkept, ?_, ?_, ?_⟩ <;> simp [initial, polledAt]
    · have hb' := h.1.change (change_of_step hstep)
      exact ⟨hb', h.2.step hb' hstep⟩
  exact hboth.2

/-- **A pass that a session begins under a low-power reading comes two minutes after all its earlier
ones,** unless the user asked for the scan. -/
theorem Paced.apart (h : w.Paced) (hstep : w.step a = some w')
    (hpolled : w'.polledAt generation ≠ w.polledAt generation) :
    ∃ s, w'.engine.session = some s ∧ s.generation = generation ∧
      w'.polledAt generation = w.now :: w.polledAt generation ∧
      (s.userInitiated = false → w'.engine.power.lowPowerMode = true →
        ∀ t ∈ w.polledAt generation, t + PollingPolicy.lowPowerSpacing ≤ w.now) := by
  cases change_of_step hstep with
  | @turn _ r rest e es ho hm ha hturn =>
    rw [after_engine]
    have hsame : ∀ generation, { w with mailbox := rest }.polledAt generation =
        w.polledAt generation := fun _ => rfl
    rcases hturn.paces with ⟨-, hes⟩ | ⟨s, s', hs, hgoes⟩
    · exact absurd (polledAt_of_quiet hes) hpolled
    · cases hgoes.paces with
      | keeps _ hes => exact absurd (polledAt_of_quiet hes) hpolled
      | polls _ hes hd =>
        by_cases hg : s.generation = generation
        · subst hg
          refine ⟨s', hgoes.session, hgoes.generation, ?_, fun huser hlow t ht => ?_⟩
          · rw [polledAt_of_polls hes, if_pos rfl]
            rfl
          · obtain ⟨last, hlast, hle⟩ := h.last_of_goesOn hs t ht
            have hlate : ¬ w.now - last < PollingPolicy.lowPowerSpacing := fun hlt =>
              hd ⟨hlow, hgoes.userInitiated.symm.trans huser, last, hlast, hlt⟩
            unfold PollingPolicy.lowPowerSpacing at hlate ⊢
            omega
        · rw [polledAt_of_polls hes, if_neg hg] at hpolled
          exact absurd rfl hpolled
  | sees | passEnds | validated | aside => exact absurd rfl hpolled
  | shutdown => exact absurd (polledAt_of_quiet w.engine.cancelSession_starts_none) hpolled

end World

/-! ### A scan that stays in low-power mode -/

/-- In the foreground and in low-power mode. -/
def PowerState.Sparing (p : PowerState) : Prop := p.inBackground = false ∧ p.lowPowerMode = true

/-- The least multiple of the poll interval that reaches the spacing. -/
def pollPeriod (floor : Nat) : Nat := floor * (PollingPolicy.lowPowerSpacing ⌈/⌉ floor)

/-- As long as the spacing is not reached, one more interval stays within the period. -/
theorem mul_succ_le_pollPeriod {floor j : Nat} (hfloor : 0 < floor)
    (h : floor * j < PollingPolicy.lowPowerSpacing) : floor * (j + 1) ≤ pollPeriod floor := by
  refine Nat.mul_le_mul_left floor (Nat.succ_le_of_lt (Nat.lt_of_not_le fun hle => ?_))
  exact Nat.not_le_of_lt h ((ceilDiv_le_iff_le_mul hfloor).mp hle)

/-- The interval that reaches the spacing is the last of the period. -/
theorem mul_succ_eq_pollPeriod {floor j : Nat} (hfloor : 0 < floor)
    (h : floor * j < PollingPolicy.lowPowerSpacing)
    (h' : PollingPolicy.lowPowerSpacing ≤ floor * (j + 1)) : floor * (j + 1) = pollPeriod floor :=
  Nat.le_antisymm (mul_succ_le_pollPeriod hfloor h)
    (Nat.mul_le_mul_left floor ((ceilDiv_le_iff_le_mul hfloor).mpr h'))

namespace Engine

variable {now : Nat} {r : Report} {e e' : Engine} {es : List Effect}

/-- What the polls of a session depend on. -/
structure PollClock where
  generation : Nat
  userInitiated : Bool
  lastPoll : Option Nat
  nextTick : Option Nat

def clock (e : Engine) : Option PollClock :=
  e.session.map fun s => ⟨s.generation, s.userInitiated, s.lastPoll, s.nextTick⟩

theorem clock_eq {s : ScanSession} (hs : e.session = some s) :
    e.clock = some ⟨s.generation, s.userInitiated, s.lastPoll, s.nextTick⟩ := by
  rw [clock, hs]
  rfl

theorem Polls.floor_eq {s : ScanSession} (h : Polls now e s e' es) : e'.floor = e.floor := by
  cases h <;> rfl

/-- The interval never changes. -/
theorem Turn.floor_eq {r : Option Report} (h : Turn now r e e' es) : e'.floor = e.floor := by
  cases h with
  | start _ _ hpolls | timer _ _ _ hpolls | resume _ _ _ hpolls => exact hpolls.floor_eq
  | rest | read | stop | background | await | rearm | ask | drop | fail | succeed | refuse
  | accept => rfl

theorem clock_eq_some_iff {c : PollClock} : e.clock = some c ↔ ∃ s, e.session = some s ∧
    s.generation = c.generation ∧ s.userInitiated = c.userInitiated ∧ s.lastPoll = c.lastPoll ∧
      s.nextTick = c.nextTick := by
  rcases c with ⟨generation, userInitiated, lastPoll, nextTick⟩
  simp [clock, Option.map_eq_some_iff, PollClock.mk.injEq]

/-- A report leaves the clock, the reading and the interval alone. -/
theorem Turn.clock_of_report (h : Turn now (some r) e e' es) :
    e'.clock = e.clock ∧ e'.power = e.power ∧ e'.floor = e.floor ∧
      es.filterMap Effect.polls? = [] := by
  cases h with
  | rest => exact ⟨rfl, rfl, rfl, rfl⟩
  | ask hs | fail hs | succeed _ hs | refuse hs => exact ⟨(clock_eq hs).symm, rfl, rfl, rfl⟩
  | drop hs | accept hs => exact ⟨(clock_eq hs).symm, rfl, rfl, publish_starts_none _ _⟩

/-- A reading that leaves both flags as they were changes nothing else. -/
theorem powerChanged_of_same {m : Moment} (hb : m.reading.inBackground = e.power.inBackground)
    (hl : m.reading.lowPowerMode = e.power.lowPowerMode) :
    e.powerChanged m = ({ e with power := m.reading }, []) := by
  unfold powerChanged
  cases e.session with
  | none => rfl
  | some s => simp [hb, hl]

/-- A scan that the user did not ask for begins with a pass, in the foreground. -/
theorem clock_of_start (e : Engine) {m : Moment} (hm : m.rereading.inBackground = false) :
    (e.start m false).1.clock =
        some ⟨e.generation + 1, false, some m.now, some (m.now + e.floor)⟩ ∧
      (e.start m false).1.power = m.rereading ∧ (e.start m false).1.floor = e.floor ∧
      (e.start m false).2.filterMap Effect.polls? = [e.generation + 1] := by
  have hpolls := polls_of_tick (e := e.renewed false m.reading) (s := e.freshSession false) rfl
    m.again
  have hclearing : e.clearing false = [] := rfl
  rw [start_eq, List.filterMap_append, List.filterMap_append, cancelSession_starts_none, hclearing]
  generalize (e.renewed false m.reading).tick m.again = result at hpolls ⊢
  obtain ⟨e', es⟩ := result
  cases hpolls with
  | pause h =>
    have hbackground : m.rereading.inBackground = true := h.1
    rw [hm] at hbackground
    cases hbackground
  | skip _ hd =>
    obtain ⟨-, -, t, ht, -⟩ := hd
    cases ht
  | run => exact ⟨rfl, rfl, rfl, rfl⟩

/-- A tick in low-power mode starts a pass, unless the last one began too short a time ago. -/
theorem clock_of_tick {m : Moment} {generation last : Nat} {next : Option Nat}
    (hm : m.reading.Sparing) (hc : e.clock = some ⟨generation, false, some last, next⟩) :
    (e.tick m).1.power = m.reading ∧ (e.tick m).1.floor = e.floor ∧
      if m.now - last < PollingPolicy.lowPowerSpacing then
        (e.tick m).1.clock = some ⟨generation, false, some last, some (m.now + e.floor)⟩ ∧
          (e.tick m).2.filterMap Effect.polls? = []
      else (e.tick m).1.clock = some ⟨generation, false, some m.now, some (m.now + e.floor)⟩ ∧
          (e.tick m).2.filterMap Effect.polls? = [generation] := by
  obtain ⟨s, hs, rfl, huser, hlast, -⟩ := clock_eq_some_iff.mp hc
  have hpolls := polls_of_tick hs m
  generalize e.tick m = result at hpolls ⊢
  obtain ⟨e', es⟩ := result
  dsimp only at huser hlast hpolls ⊢
  cases hpolls with
  | pause h =>
    have hbackground : m.reading.inBackground = true := h.1
    rw [hm.1] at hbackground
    cases hbackground
  | skip _ hd =>
    obtain ⟨-, -, t, ht, hlt⟩ := hd
    obtain rfl : last = t := Option.some.inj (hlast.symm.trans ht)
    rw [if_pos hlt, clock_eq rfl, huser, hlast]
    exact ⟨rfl, rfl, rfl, rfl⟩
  | run _ hd =>
    have hlate : ¬ m.now - last < PollingPolicy.lowPowerSpacing := fun hlt =>
      hd ⟨hm.2, huser, last, hlast, hlt⟩
    have hcancelled : (({ e with power := m.reading } : Engine).polled s m.now).endPass.2 =
        s.endPass.2 := rfl
    rw [if_neg hlate, startPass, List.filterMap_append, hcancelled, endPass_starts_none,
      clock_eq rfl]
    exact ⟨rfl, rfl, by rw [← huser]; rfl, rfl⟩

end Engine

/-- Whether an action leaves a scan running, with readings in the foreground and in low-power
mode. -/
def Action.Calm : Action → Prop
  | command .powerChanged reading rereading => reading.Sparing ∧ rereading.Sparing
  | command .. | shutdown => False
  | deliver reading | timer reading => reading.Sparing
  | _ => True

namespace World

variable {w w' : World} {a : Action} {floor generation start n j : Nat}

/-- Time does not pass over the instant for which the poll timer is armed. -/
def Punctual (w : World) : Action → Prop
  | .elapse time => ∀ t, w.engine.session.bind (·.nextTick) = some t → w.now + time ≤ t
  | _ => True

/-- A calm run in which the poll timer fires on time. -/
def CalmRun : World → List Action → World → Prop
  | w, [], w' => w' = w
  | w, a :: as, w' => a.Calm ∧ w.Punctual a ∧ ∃ v, w.step a = some v ∧ CalmRun v as w'

/-- The scan has begun `n` passes after its first, each a period after the one before, and `j` ticks
have been skipped since. -/
structure OnSchedule (floor generation start n j : Nat) (w : World) : Prop where
  isOpen : w.isOpen = true
  floor_eq : w.engine.floor = floor
  sparing : w.engine.power.Sparing
  clock : w.engine.clock = some ⟨generation, false, some (start + n * pollPeriod floor),
    some (start + n * pollPeriod floor + floor * (j + 1))⟩
  early : floor * j < PollingPolicy.lowPowerSpacing
  now_ge : start + n * pollPeriod floor + floor * j ≤ w.now
  now_le : w.now ≤ start + n * pollPeriod floor + floor * (j + 1)
  polled : w.polledAt generation =
    ((List.range (n + 1)).map fun k => start + k * pollPeriod floor).reverse

theorem OnSchedule.nextTick (h : w.OnSchedule floor generation start n j) :
    w.engine.session.bind (·.nextTick) =
      some (start + n * pollPeriod floor + floor * (j + 1)) := by
  obtain ⟨s, hs, -, -, -, hnext⟩ := Engine.clock_eq_some_iff.mp h.clock
  rw [hs]
  exact hnext

/-- The engine takes an input that leaves its clock alone. -/
theorem OnSchedule.after_quiet {e : Engine} {es : List Effect}
    (h : w.OnSchedule floor generation start n j) (hclock : e.clock = w.engine.clock)
    (hpower : e.power.Sparing) (hfloor : e.floor = w.engine.floor)
    (hes : es.filterMap Effect.polls? = []) :
    (w.after (e, es)).OnSchedule floor generation start n j where
  isOpen := by rw [after_isOpen, h.isOpen]
  floor_eq := by rw [after_engine, hfloor, h.floor_eq]
  sparing := by rw [after_engine]; exact hpower
  clock := by rw [after_engine, hclock, h.clock]
  early := h.early
  now_ge := by rw [after_now]; exact h.now_ge
  now_le := by rw [after_now]; exact h.now_le
  polled := by rw [polledAt_of_quiet hes, h.polled]

/-- The schedule depends on the engine, on what it has asked for, and on the time. -/
theorem OnSchedule.of_eq (h : w.OnSchedule floor generation start n j)
    (hopen : w'.isOpen = w.isOpen) (hengine : w'.engine = w.engine)
    (hrecord : w'.record = w.record) (hnow : w'.now = w.now) :
    w'.OnSchedule floor generation start n j where
  isOpen := hopen.trans h.isOpen
  floor_eq := hengine ▸ h.floor_eq
  sparing := hengine ▸ h.sparing
  clock := hengine ▸ h.clock
  early := h.early
  now_ge := hnow ▸ h.now_ge
  now_le := hnow ▸ h.now_le
  polled := by rw [polledAt, hrecord, ← polledAt, h.polled]

/-- Time passes up to the next tick. -/
theorem OnSchedule.elapse {time : Nat} (h : w.OnSchedule floor generation start n j)
    (hlimit : w.now + time ≤ start + n * pollPeriod floor + floor * (j + 1)) :
    { w with now := w.now + time }.OnSchedule floor generation start n j :=
  ⟨h.isOpen, h.floor_eq, h.sparing, h.clock, h.early,
    Nat.le_trans h.now_ge (Nat.le_add_right _ _), hlimit, h.polled⟩

/-- A tick is skipped, or it begins the pass that is due. -/
theorem OnSchedule.tick {reading : PowerState} (hfloor : 0 < floor)
    (h : w.OnSchedule floor generation start n j) (hreading : reading.Sparing)
    (hnow : w.now = start + n * pollPeriod floor + floor * (j + 1)) :
    ∃ n' j', w.now = start + n' * pollPeriod floor + floor * j' ∧
      (w.after (w.engine.tick ⟨w.now, reading, reading⟩)).OnSchedule floor generation start
        n' j' := by
  obtain ⟨hpower, hfloor', hclock⟩ :=
    Engine.clock_of_tick (m := ⟨w.now, reading, reading⟩) hreading h.clock
  have hsince : w.now - (start + n * pollPeriod floor) = floor * (j + 1) := by omega
  have hnext : floor * (j + 1 + 1) = floor * (j + 1) + floor := Nat.mul_succ _ _
  rw [hsince, h.floor_eq] at hclock
  -- The tick is skipped until the interval that reaches the spacing has gone by.
  split at hclock
  · rename_i hearly
    refine ⟨n, j + 1, hnow, by rw [after_isOpen, h.isOpen], ?_, ?_, ?_, hearly, ?_, ?_, ?_⟩
    · rw [after_engine, hfloor', h.floor_eq]
    · rw [after_engine, hpower]
      exact hreading
    · rw [after_engine, hclock.1, hnow, hnext, Nat.add_assoc _ (floor * (j + 1)) floor]
    · rw [after_now, hnow]
    · rw [after_now, hnow, hnext]
      omega
    · rw [polledAt_of_quiet hclock.2, h.polled]
  · -- `j` intervals were too few and one more is enough, so they make up a period.
    rename_i hlate
    have hperiod := mul_succ_eq_pollPeriod hfloor h.early (Nat.le_of_not_lt hlate)
    have hnow' : w.now = start + (n + 1) * pollPeriod floor := by
      rw [hnow, hperiod, Nat.succ_mul, Nat.add_assoc]
    refine ⟨n + 1, 0, hnow', by rw [after_isOpen, h.isOpen], ?_, ?_, ?_, ?_, ?_, ?_, ?_⟩
    · rw [after_engine, hfloor', h.floor_eq]
    · rw [after_engine, hpower]
      exact hreading
    · rw [after_engine, hclock.1, ← hnow', Nat.mul_one]
    · rw [Nat.mul_zero]
      decide
    · rw [after_now, ← hnow', Nat.mul_zero, Nat.add_zero]
    · rw [after_now, ← hnow']
      omega
    · rw [polledAt_of_polls hclock.2, if_pos rfl, h.polled, hnow', List.range_succ (n := n + 1),
        List.map_append, List.reverse_append]
      rfl

/-- **Each step of a calm run that is on time keeps to the schedule.** -/
theorem OnSchedule.step (hfloor : 0 < floor) (h : w.OnSchedule floor generation start n j)
    (hcalm : a.Calm) (htime : w.Punctual a) (hstep : w.step a = some w') :
    ∃ n' j', w'.OnSchedule floor generation start n' j' := by
  cases a with
  | command c reading rereading =>
    cases c with
    | start | stop => exact hcalm.elim
    | powerChanged =>
      have hsame := Engine.powerChanged_of_same (e := w.engine) (m := ⟨w.now, reading, rereading⟩)
        (hcalm.1.1.trans h.sparing.1.symm) (hcalm.1.2.trans h.sparing.2.symm)
      rw [step_command hstep, Engine.onCommand, hsame]
      exact ⟨n, j, h.after_quiet rfl hcalm.1 rfl rfl⟩
  | deliver reading =>
    obtain ⟨r, rest, -, rfl⟩ := report_of_deliver hstep
    have hkept := (Engine.turn_of_onReport w.engine ⟨w.now, reading, reading⟩ r).clock_of_report
    generalize w.engine.onReport ⟨w.now, reading, reading⟩ r = result at hkept ⊢
    obtain ⟨hclock, hpower, hfloor', hes⟩ := hkept
    have hrest : { w with mailbox := rest }.OnSchedule floor generation start n j :=
      h.of_eq rfl rfl rfl rfl
    exact ⟨n, j, hrest.after_quiet hclock (hpower ▸ h.sparing) hfloor' hes⟩
  | timer reading =>
    unfold World.step at hstep
    dsimp only at hstep
    rw [h.nextTick] at hstep
    dsimp only at hstep
    split at hstep
    · rename_i hdue
      cases hstep
      obtain ⟨n', j', -, hticked⟩ := h.tick hfloor hcalm (Nat.le_antisymm h.now_le hdue.2)
      exact ⟨n', j', hticked⟩
    · cases hstep
  | elapse time =>
    cases hstep
    exact ⟨n, j, h.elapse (htime _ h.nextTick)⟩
  | browse | passEnds | validated | poll =>
    obtain ⟨_, _, rfl⟩ := Option.map_eq_some_iff.mp hstep
    exact ⟨n, j, h.of_eq rfl rfl rfl rfl⟩
  | subscribe =>
    unfold World.step at hstep
    dsimp only at hstep
    split at hstep
    · cases hstep
      exact ⟨n, j, h.of_eq rfl rfl rfl rfl⟩
    · cases hstep
  | unsubscribe =>
    cases hstep
    exact ⟨n, j, h.of_eq rfl rfl rfl rfl⟩
  | shutdown => exact hcalm.elim

theorem OnSchedule.run (hfloor : 0 < floor) {as : List Action}
    (h : w.OnSchedule floor generation start n j) (hrun : w.CalmRun as w') :
    ∃ n' j', w'.OnSchedule floor generation start n' j' := by
  induction as generalizing w n j with
  | nil =>
    obtain rfl : w' = w := hrun
    exact ⟨n, j, h⟩
  | cons a as ih =>
    obtain ⟨hcalm, htime, v, hstep, hrest⟩ := hrun
    obtain ⟨n', j', hv⟩ := h.step hfloor hcalm htime hstep
    exact ih hv hrest

theorem CalmRun.append {as bs : List Action} {w'' : World} (h : w.CalmRun as w')
    (h' : w'.CalmRun bs w'') : w.CalmRun (as ++ bs) w'' := by
  induction as generalizing w with
  | nil =>
    obtain rfl : w' = w := h
    exact h'
  | cons a as ih =>
    obtain ⟨hcalm, htime, v, hstep, hrest⟩ := h
    exact ⟨hcalm, htime, v, hstep, ih hrest⟩

/-- The timer can fire when it is due. -/
theorem OnSchedule.fires (hfloor : 0 < floor) (h : w.OnSchedule floor generation start n j)
    (hdue : w.now = start + n * pollPeriod floor + floor * (j + 1)) :
    ∃ n' j' w', w.step (.timer w.engine.power) = some w' ∧ w'.now = w.now ∧
      w.now = start + n' * pollPeriod floor + floor * j' ∧
      w'.OnSchedule floor generation start n' j' := by
  obtain ⟨n', j', hnow, hticked⟩ := h.tick hfloor h.sparing hdue
  refine ⟨n', j', _, ?_, after_now _ _, hnow, hticked⟩
  unfold World.step
  dsimp only
  rw [h.nextTick]
  exact if_pos ⟨h.isOpen, Nat.le_of_eq hdue.symm⟩

/-- Time can go on: it passes up to the next tick, the timer fires, and an interval passes. -/
theorem OnSchedule.goes_on (hfloor : 0 < floor) (h : w.OnSchedule floor generation start n j) :
    ∃ as w', w.CalmRun as w' ∧ w.now < w'.now := by
  have hdue : w.now + (start + n * pollPeriod floor + floor * (j + 1) - w.now) =
      start + n * pollPeriod floor + floor * (j + 1) := Nat.add_sub_of_le h.now_le
  generalize start + n * pollPeriod floor + floor * (j + 1) - w.now = time at hdue
  have hwaited := h.elapse (Nat.le_of_eq hdue)
  obtain ⟨n', j', v, hfires, hv, hnow, hticked⟩ := hwaited.fires hfloor hdue
  have hlimit : v.now + floor ≤ start + n' * pollPeriod floor + floor * (j' + 1) := by
    rw [hv, hnow, Nat.mul_succ, Nat.add_assoc]
  have hlater : w.now < v.now + floor := by
    rw [hv]
    exact Nat.lt_of_le_of_lt (Nat.le_add_right _ time) (Nat.lt_add_of_pos_right hfloor)
  refine ⟨[.elapse time, .timer w.engine.power, .elapse floor], { v with now := v.now + floor },
    ⟨trivial, fun t ht => ?_, _, rfl, h.sparing, trivial, v, hfires, trivial, fun t ht => ?_, _,
      rfl, rfl⟩, hlater⟩
  · rw [h.nextTick] at ht
    exact Nat.le_of_eq (hdue.trans (Option.some.inj ht))
  · rw [hticked.nextTick] at ht
    exact Option.some.inj ht ▸ hlimit

/-- A calm run can be continued past any instant. -/
theorem OnSchedule.reaches (hfloor : 0 < floor) (h : w.OnSchedule floor generation start n j)
    (time : Nat) : ∃ as w', w.CalmRun as w' ∧ time ≤ w'.now := by
  induction time with
  | zero => exact ⟨[], w, rfl, Nat.zero_le _⟩
  | succ time ih =>
    obtain ⟨as, v, hrun, hreached⟩ := ih
    obtain ⟨n', j', hv⟩ := h.run hfloor hrun
    obtain ⟨bs, w', hmore, hlater⟩ := hv.goes_on hfloor
    exact ⟨as ++ bs, w', hrun.append hmore, Nat.lt_of_le_of_lt hreached hlater⟩

/-- The schedule begins with the first pass of a scan. -/
theorem onSchedule_of_start {p q : PowerState} (h : w.Paced) (ho : w.isOpen = true)
    (hq : q.Sparing) (hfloor : w.engine.floor = floor) :
    (w.after (w.engine.onCommand ⟨w.now, p, q⟩ (.start false))).OnSchedule floor
      (w.engine.generation + 1) w.now 0 0 := by
  obtain ⟨hclock, hpower, hfloor', hes⟩ :=
    w.engine.clock_of_start (m := ⟨w.now, p, q⟩) hq.1
  refine ⟨by rw [after_isOpen, ho], ?_, ?_, ?_, ?_, ?_, ?_, ?_⟩
  · rw [after_engine, Engine.onCommand, hfloor', hfloor]
  · rw [after_engine, Engine.onCommand, hpower]
    exact hq
  · rw [after_engine, Engine.onCommand, hclock, hfloor]
    simp
  · rw [Nat.mul_zero]
    decide
  · rw [after_now]
    simp
  · rw [after_now]
    simp
  · rw [Engine.onCommand, polledAt_of_polls hes, if_pos rfl, h.future _ (Nat.lt_succ_self _)]
    simp

theorem Reachable.floor_eq (h : Reachable floor w) : w.engine.floor = floor := by
  refine h.induct (P := fun w => w.engine.floor = floor) (fun _ => rfl) fun {w w' a} hw hc => ?_
  cases hc with
  | turn _ _ _ hturn => rw [after_engine, hturn.floor_eq, hw]
  | sees | passEnds | validated | aside => exact hw
  | shutdown =>
    rw [after_engine, ← hw]
    unfold Engine.cancelSession
    split <;> rfl

/-- A calm run is a run. -/
theorem CalmRun.run_eq {as : List Action} (h : w.CalmRun as w') : w.run as = some w' := by
  induction as generalizing w with
  | nil =>
    obtain rfl : w' = w := h
    rfl
  | cons a as ih =>
    obtain ⟨-, -, v, hstep, hrest⟩ := h
    rw [run_cons, hstep, Option.bind_some, ih hrest]

/-- How the passes of scans that the user did not ask for are spaced in low-power mode. -/
structure Spaced (floor : Nat) (w : World) : Prop where
  /-- A pass under a low-power reading begins two minutes after all earlier ones of its session. -/
  apart : ∀ {a : Action} {w' : World} {generation : Nat}, w.step a = some w' →
    w'.polledAt generation ≠ w.polledAt generation →
      ∃ s, w'.engine.session = some s ∧ s.generation = generation ∧
        w'.polledAt generation = w.now :: w.polledAt generation ∧
        (s.userInitiated = false → w'.engine.power.lowPowerMode = true →
          ∀ t ∈ w.polledAt generation, t + 120000 ≤ w.now)
  /-- In the foreground and in low-power mode passes begin once in a period, from the start on. -/
  scheduled : 0 < floor → ∀ {p q : PowerState} {w₁ : World}, p.Sparing → q.Sparing →
    w.step (.command (.start false) p q) = some w₁ →
      (∃ s, w₁.engine.session = some s ∧ s.generation = w.engine.generation + 1 ∧
        s.userInitiated = false) ∧
      ∀ {as : List Action} {w' : World}, w₁.CalmRun as w' → w₁.run as = some w' ∧
        (∃ n, w'.polledAt (w.engine.generation + 1) =
            ((List.range (n + 1)).map fun k => w.now + k * pollPeriod floor).reverse ∧
          w.now + n * pollPeriod floor ≤ w'.now ∧
          w'.now ≤ w.now + (n + 1) * pollPeriod floor) ∧
        ∀ time, ∃ bs w'', w'.CalmRun bs w'' ∧ time ≤ w''.now

/-- **In every reachable world polls are spaced.** -/
theorem Reachable.spaced (h : Reachable floor w) : w.Spaced floor where
  apart hstep hpolled := h.paced.apart hstep hpolled
  scheduled hfloor {p q w₁} _ hq hstep := by
    have ho : w.isOpen = true := by
      by_contra hclosed
      rw [World.step, if_neg hclosed] at hstep
      cases hstep
    have hbegins := onSchedule_of_start (p := p) h.paced ho hq h.floor_eq
    rw [← step_command hstep] at hbegins
    obtain ⟨s, hs, hgeneration, huser, -⟩ := Engine.clock_eq_some_iff.mp hbegins.clock
    refine ⟨⟨s, hs, hgeneration, huser⟩, fun {as w'} hrun => ?_⟩
    obtain ⟨n, j, hon⟩ := hbegins.run hfloor hrun
    refine ⟨hrun.run_eq, ⟨n, hon.polled, ?_, ?_⟩, hon.reaches hfloor⟩
    · exact Nat.le_trans (Nat.le_add_right _ _) hon.now_ge
    · have hwithin := mul_succ_le_pollPeriod hfloor hon.early
      have hnext : (n + 1) * pollPeriod floor = n * pollPeriod floor + pollPeriod floor :=
        Nat.succ_mul _ _
      have hnow := hon.now_le
      omega

/-- With an interval of 50 seconds every third tick begins a pass. -/
theorem spaced_of_fifty_seconds : ∃ w₁ as w' n,
    (initial 50000 .nominal).step (.command (.start false) (PowerState.nominal.withLowPower true)
      (PowerState.nominal.withLowPower true)) = some w₁ ∧ w₁.CalmRun as w' ∧ 1 ≤ n ∧
        w'.polledAt 1 = ((List.range (n + 1)).map (0 + · * 150000)).reverse := by
  have hreachable : Reachable 50000 (initial 50000 .nominal) := ⟨.nominal, [], rfl⟩
  have hsparing : (PowerState.nominal.withLowPower true).Sparing := ⟨rfl, rfl⟩
  have hperiod : pollPeriod 50000 = 150000 := by decide
  obtain ⟨w₁, hw₁⟩ : ∃ w₁, (initial 50000 .nominal).step (.command (.start false)
      (PowerState.nominal.withLowPower true) (PowerState.nominal.withLowPower true)) = some w₁ :=
    ⟨_, rfl⟩
  obtain ⟨-, hruns⟩ := (Reachable.spaced hreachable).scheduled (by decide) hsparing hsparing hw₁
  have hrest : w₁.CalmRun [] w₁ := rfl
  obtain ⟨-, -, hreaches⟩ := hruns hrest
  obtain ⟨as, w', hrun, hlate⟩ := hreaches 200000
  obtain ⟨-, ⟨n, hpolled, -, hnow⟩, -⟩ := hruns hrun
  rw [hperiod] at hpolled hnow
  refine ⟨w₁, as, w', n, hw₁, hrun, ?_, hpolled⟩
  have hstart : (initial 50000 .nominal).now = 0 := rfl
  omega

end World
end LanInference
