/-
# The turns of the discovery engine

All that one input does to the engine, one case for each outcome: the engine before and after, and
what it asks of the host. A poll (`Engine.Polls`) is what a tick comes to, whether the timer brings
it on, a new session, or a session that comes to the foreground. The inputs are functions; each of
their results is one of these turns.

Key definitions: `Engine.Suppresses`, `Engine.Defers`, `Engine.Polls`, `Engine.Turn`.
Key theorems: `Engine.polls_of_tick`, `Engine.turn_of_onCommand`, `Engine.turn_of_onReport`,
`Engine.turn_of_tick`.
-/
import LanInference.Discovery.Engine

namespace LanInference

/-! ### What a policy decides -/

namespace PollingPolicy

/-- In the background only a session that the user asked for has an interval. -/
theorem interval_ofState (p : PowerState) (userInitiated : Bool) (floor : Nat) :
    (ofState p userInitiated floor).interval =
      if p.inBackground = true ∧ userInitiated = false then none else some floor := by
  unfold ofState
  cases p.inBackground <;> cases userInitiated <;> rfl

theorem decideTick_of_suppressed {p : PowerState} {userInitiated : Bool} (floor : Nat)
    (h : p.inBackground = true ∧ userInitiated = false) (since : Option Nat) :
    (ofState p userInitiated floor).decideTick since = .suppressed := by
  have hnone := interval_ofState p userInitiated floor
  rw [if_pos h] at hnone
  unfold decideTick isSuppressed
  rw [hnone]
  rfl

/-- A session that may poll skips a tick only in low-power mode, if the user did not ask for it and
its last poll was too short a time ago. -/
theorem decideTick_of_not_suppressed {p : PowerState} {userInitiated : Bool} (floor : Nat)
    (h : ¬ (p.inBackground = true ∧ userInitiated = false)) (since : Option Nat) :
    (ofState p userInitiated floor).decideTick since =
      if p.lowPowerMode = true ∧ userInitiated = false ∧ ∃ t ∈ since, t < lowPowerSpacing then .skip
      else .run := by
  have hsome := interval_ofState p userInitiated floor
  rw [if_neg h] at hsome
  unfold decideTick isSuppressed
  rw [hsome]
  have hspacing : (ofState p userInitiated floor).minSpacing =
      if p.lowPowerMode = true ∧ userInitiated = false then some lowPowerSpacing else none := by
    unfold ofState
    cases hb : p.inBackground <;> cases hu : userInitiated <;> cases hl : p.lowPowerMode <;>
      simp_all
  rw [hspacing]
  by_cases hthin : p.lowPowerMode = true ∧ userInitiated = false
  · rw [if_pos hthin]
    cases since with
    | none => simp
    | some t => simp [hthin]
  · have hnot : ¬ (p.lowPowerMode = true ∧ userInitiated = false ∧
        ∃ t ∈ since, t < lowPowerSpacing) := fun hall => hthin ⟨hall.1, hall.2.1⟩
    rw [if_neg hthin, if_neg hnot]
    rfl

end PollingPolicy

/-! ### Turns -/

namespace Engine

/-- Under the last reading taken the session may not poll. -/
def Suppresses (e : Engine) (s : ScanSession) : Prop :=
  e.power.inBackground = true ∧ s.userInitiated = false

/-- Under the last reading taken it is too early for the session to poll. -/
def Defers (e : Engine) (s : ScanSession) (now : Nat) : Prop :=
  e.power.lowPowerMode = true ∧ s.userInitiated = false ∧
    ∃ t, s.lastPoll = some t ∧ now - t < PollingPolicy.lowPowerSpacing

/-- The session whose poll begins now. -/
def polled (e : Engine) (s : ScanSession) (now : Nat) : ScanSession :=
  { s with lastPoll := some now, nextTick := some (now + e.floor) }

/-- What a tick of a session comes to. -/
inductive Polls (now : Nat) (e : Engine) (s : ScanSession) : Engine → List Effect → Prop
  | pause (h : e.Suppresses s) : Polls now e s (e.pause s).1 (e.pause s).2
  | skip (h : ¬ e.Suppresses s) (hd : e.Defers s now) :
      Polls now e s { e with session := some { s with nextTick := some (now + e.floor) } } []
  | run (h : ¬ e.Suppresses s) (hd : ¬ e.Defers s now) :
      Polls now e s (e.startPass (e.polled s now) (e.policy s.userInitiated).browseTimeout).1
        (e.startPass (e.polled s now) (e.policy s.userInitiated).browseTimeout).2

/-- The session that a start begins with. -/
def freshSession (e : Engine) (userInitiated : Bool) : ScanSession :=
  { generation := e.generation + 1, userInitiated }

/-- The engine that a start leaves to its first tick. -/
def renewed (e : Engine) (userInitiated : Bool) (p : PowerState) : Engine :=
  { e with
    power := p
    endpoints := if userInitiated then .empty else e.endpoints
    generation := e.generation + 1
    session := some (e.freshSession userInitiated)
    status := .scanning }

/-- The empty set is published if a start has taken endpoints away. -/
def clearing (e : Engine) (userInitiated : Bool) : List Effect :=
  if userInitiated && !e.endpoints.byKey.isEmpty then [.publish EndpointSet.empty.snapshot] else []

/-- The engine whose paused session has come to the foreground. -/
def resumed (e : Engine) (s : ScanSession) (p : PowerState) : Engine :=
  { e with power := p, session := some { s with paused := false }, status := .scanning }

/-- The engine that has got the result of a validation, with the endpoints it holds then. -/
def answered (e : Engine) (s : ScanSession) (service : Service) (endpoints : EndpointSet) :
    Engine :=
  { e with
    endpoints
    session := some { s with pending := s.pending.erase service.key.text } }

/-- A report that the engine passes over is neither a removal seen by the current pass nor the
result of a validation that the session waits for. -/
def Ignores (e : Engine) (r : Option Report) : Prop :=
  ∀ s, e.session = some s → match r with
    | some (.browse generation pass (.removed _)) =>
      ¬ (s.generation = generation ∧ s.pass = some pass)
    | some (.validated generation service _) =>
      ¬ (s.generation = generation ∧ s.pending.contains service.key.text = true)
    | _ => True

/-- One input: the report it is, if it is one, the engine before and after, and what it asks for. -/
inductive Turn (now : Nat) : Option Report → Engine → Engine → List Effect → Prop
  /-- A report that does not count. -/
  | rest {r : Option Report} {e : Engine} (h : e.Ignores r) : Turn now r e e []
  /-- A reading that calls for nothing. -/
  | read {e : Engine} (p : PowerState)
      (h : ∀ s, e.session = some s → p.inBackground = e.power.inBackground ∨
        s.userInitiated = true ∨ (p.inBackground = false ∧ s.paused = false)) :
      Turn now none e { e with power := p } []
  | stop (e : Engine) :
      Turn now none e { e with session := none, status := .idle } e.cancelSession.2
  | start {e e' : Engine} (userInitiated : Bool) (p : PowerState) {es : List Effect}
      (h : Polls now (e.renewed userInitiated p) (e.freshSession userInitiated) e' es) :
      Turn now none e e' (e.cancelSession.2 ++ e.clearing userInitiated ++ es)
  | timer {e e' : Engine} {s : ScanSession} (p : PowerState) {es : List Effect}
      (hs : e.session = some s) (hnext : s.nextTick.isSome = true)
      (h : Polls now { e with power := p } s e' es) : Turn now none e e' es
  /-- The host goes to the background. -/
  | background {e : Engine} {s : ScanSession} (p : PowerState) (hs : e.session = some s)
      (h : ({ e with power := p } : Engine).Suppresses s) :
      Turn now none e ({ e with power := p }.pause s).1 ({ e with power := p }.pause s).2
  /-- The host comes to the foreground, and the session polls at once. -/
  | resume {e e' : Engine} {s : ScanSession} (p : PowerState) {es : List Effect}
      (hs : e.session = some s) (hp : s.paused = true)
      (h : Polls now (e.resumed s p) { s with paused := false } e' es) : Turn now none e e' es
  /-- The host comes to the foreground, and the session polls after an interval. -/
  | await {e : Engine} {s : ScanSession} (p : PowerState) (hs : e.session = some s)
      (hp : s.paused = true) (hf : p.inBackground = false) :
      Turn now none e { e with
        power := p
        session := some { s with paused := false, nextTick := some (now + e.floor) }
        status := .scanning } []
  /-- The low-power flag has changed: the timer starts again. -/
  | rearm {e : Engine} {s : ScanSession} (p : PowerState) (hs : e.session = some s)
      (hp : s.paused = false) (hb : p.inBackground = e.power.inBackground)
      (hl : p.lowPowerMode ≠ e.power.lowPowerMode) :
      Turn now none e { e with
        power := p
        session := some { s with
          nextTick := (PollingPolicy.ofState p s.userInitiated e.floor).interval.map (now + ·) } }
        []
  | ask {e : Engine} {s : ScanSession} {pass : Nat} {service : Service} (hs : e.session = some s)
      (hp : s.pass = some pass) (hheld : e.endpoints.contains service.key = false)
      (hpending : s.pending.contains service.key.text = false)
      (hbudget : (e.policy s.userInitiated).budgetExhausted
        (e.endpoints.size + s.pending.size) = false) :
      Turn now (some (.browse s.generation pass (.added service))) e
        { e with session := some { s with pending := s.pending.insert service.key.text () } }
        [.validate s.generation service (e.policy s.userInitiated).probe]
  | drop {e : Engine} {s : ScanSession} {pass : Nat} {service : Service} (hs : e.session = some s)
      (hp : s.pass = some pass) :
      Turn now (some (.browse s.generation pass (.removed service))) e
        (e.onRemoved s service).1 (e.onRemoved s service).2
  | fail {e : Engine} {s : ScanSession} {pass : Nat} {reason : String} (hs : e.session = some s)
      (hp : s.pass = some pass) :
      Turn now (some (.passEnded s.generation pass (some reason))) e
        { e with session := some { s with pass := none }, status := .failed reason } []
  | succeed {e : Engine} {s : ScanSession} (pass : Nat) (hs : e.session = some s) :
      Turn now (some (.passEnded s.generation pass none)) e
        { e with session := some { s with lastSuccessfulPoll := some now } } []
  | refuse {e : Engine} {s : ScanSession} {service : Service} (hs : e.session = some s)
      (hpending : s.pending.contains service.key.text = true) :
      Turn now (some (.validated s.generation service false)) e
        (e.answered s service e.endpoints) []
  | accept {e : Engine} {s : ScanSession} {service : Service} (hs : e.session = some s)
      (hpending : s.pending.contains service.key.text = true) :
      Turn now (some (.validated s.generation service true)) e
        (e.answered s service (e.endpoints.insert (.ofService service)).1)
        (if (e.endpoints.insert (.ofService service)).2 then
          [.publish (e.endpoints.insert (.ofService service)).1.snapshot] else [])

/-! ### The inputs are turns -/

variable {e : Engine} {s : ScanSession}

/-- A tick of a session is a poll under the fresh reading. -/
theorem polls_of_tick (hs : e.session = some s) (m : Moment) :
    Polls m.now { e with power := m.reading } s (e.tick m).1 (e.tick m).2 := by
  have hinterval := PollingPolicy.interval_ofState m.reading s.userInitiated e.floor
  unfold tick policy
  simp only [hs]
  by_cases h : m.reading.inBackground = true ∧ s.userInitiated = false
  · simp only [PollingPolicy.decideTick_of_suppressed e.floor h]
    exact .pause h
  · rw [if_neg h] at hinterval
    simp only [PollingPolicy.decideTick_of_not_suppressed e.floor h, hinterval, Option.map_some]
    by_cases hd : ({ e with power := m.reading } : Engine).Defers s m.now
    · obtain ⟨hl, hu, t, ht, hlt⟩ := hd
      rw [if_pos ⟨hl, hu, m.now - t, by simp [ht], hlt⟩]
      exact .skip h ⟨hl, hu, t, ht, hlt⟩
    · rw [if_neg]
      · exact .run h hd
      · rintro ⟨hl, hu, t, ht, hlt⟩
        obtain ⟨last, hlast, rfl⟩ := Option.map_eq_some_iff.mp (Option.mem_def.mp ht)
        exact hd ⟨hl, hu, last, hlast, hlt⟩

/-- A start ends the old session, takes endpoints away if the user asked for it, and ticks. -/
theorem start_eq (e : Engine) (m : Moment) (userInitiated : Bool) :
    e.start m userInitiated =
      (((e.renewed userInitiated m.reading).tick m.again).1,
        e.cancelSession.2 ++ e.clearing userInitiated ++
          ((e.renewed userInitiated m.reading).tick m.again).2) := by
  unfold start cancelSession clearing renewed freshSession
  cases e.session <;> cases userInitiated <;> rfl

/-- A stop ends the session and keeps the rest. -/
theorem stop_eq (e : Engine) :
    e.stop = ({ e with session := none, status := .idle }, e.cancelSession.2) := by
  unfold stop cancelSession
  cases hs : e.session <;> simp [hs]

theorem turn_of_start (e : Engine) (m : Moment) (userInitiated : Bool) :
    Turn m.now none e (e.start m userInitiated).1 (e.start m userInitiated).2 := by
  have hpolls := polls_of_tick (e := e.renewed userInitiated m.reading)
    (s := e.freshSession userInitiated) rfl m.again
  rw [start_eq]
  exact .start userInitiated m.rereading hpolls

theorem turn_of_powerChanged (e : Engine) (m : Moment) :
    Turn m.now none e (e.powerChanged m).1 (e.powerChanged m).2 := by
  unfold powerChanged
  rcases e with ⟨floor, power, endpoints, session, generation, passes, status⟩
  cases session with
  | none => exact .read m.reading (by simp)
  | some s =>
    dsimp only
    by_cases hb : power.inBackground = m.reading.inBackground
    · rw [if_neg (fun hne => hne hb)]
      by_cases hl : power.lowPowerMode ≠ m.reading.lowPowerMode ∧ ¬ s.paused = true
      · rw [if_pos hl]
        exact .rearm m.reading rfl (by simpa using hl.2) hb.symm (Ne.symm hl.1)
      · rw [if_neg hl]
        exact .read m.reading fun _ _ => .inl hb.symm
    · rw [if_pos hb]
      cases hm : m.reading.inBackground with
      | true =>
        simp only [if_true, toBackground]
        by_cases hu : s.userInitiated = true
        · rw [if_pos hu]
          refine .read m.reading fun s' hs' => .inr (.inl ?_)
          rw [← Option.some.inj hs', hu]
        · rw [if_neg hu]
          exact .background m.reading rfl ⟨hm, by simpa using hu⟩
      | false =>
        simp only [Bool.false_eq_true, if_false, toForeground]
        by_cases hp : s.paused = true
        · rw [if_pos hp]
          split
          · have hpolls := polls_of_tick (s := { s with paused := false }) (e := resumed
              ⟨floor, power, endpoints, some s, generation, passes, status⟩ s m.reading) rfl m.again
            exact .resume m.rereading rfl hp hpolls
          · have hinterval := PollingPolicy.interval_ofState m.reading s.userInitiated floor
            rw [if_neg (by simp [hm])] at hinterval
            simp only [policy, hinterval, Option.map_some]
            exact .await m.reading rfl hp hm
        · rw [if_neg hp]
          refine .read m.reading fun s' hs' => .inr (.inr ⟨hm, ?_⟩)
          rw [← Option.some.inj hs']
          simpa using hp

theorem turn_of_onCommand (e : Engine) (m : Moment) (c : Command) :
    Turn m.now none e (e.onCommand m c).1 (e.onCommand m c).2 := by
  cases c with
  | start userInitiated => exact turn_of_start e m userInitiated
  | powerChanged => exact turn_of_powerChanged e m
  | stop =>
    rw [onCommand, stop_eq]
    exact .stop e

theorem turn_of_tick (hs : e.session = some s) (hnext : s.nextTick.isSome = true) (m : Moment) :
    Turn m.now none e (e.tick m).1 (e.tick m).2 :=
  .timer m.reading hs hnext (polls_of_tick hs m)

theorem turn_of_onAdded (hs : e.session = some s) (now : Nat) {pass : Nat} (service : Service)
    (hp : s.pass = some pass) :
    Turn now (some (.browse s.generation pass (.added service))) e (e.onAdded s service).1
      (e.onAdded s service).2 := by
  unfold onAdded
  by_cases hknown : (e.endpoints.contains service.key || s.pending.contains service.key.text) = true
  · simp only [hknown, if_true]
    exact .rest fun _ _ => trivial
  · have hnew := Bool.or_eq_false_iff.mp (Bool.eq_false_iff.mpr hknown)
    rw [if_neg hknown]
    split
    · exact .rest fun _ _ => trivial
    · rename_i hbudget
      exact .ask hs hp hnew.1 hnew.2 (Bool.eq_false_iff.mpr hbudget)

theorem turn_of_onReport (e : Engine) (m : Moment) (r : Report) :
    Turn m.now (some r) e (e.onReport m r).1 (e.onReport m r).2 := by
  unfold onReport
  cases hs : e.session with
  | none => exact .rest fun s hs' => by rw [hs] at hs'; cases hs'
  | some s =>
    have hsame : ∀ s', e.session = some s' → s' = s := fun s' hs' =>
      Option.some.inj (hs'.symm.trans hs)
    cases r with
    | browse generation pass event =>
      by_cases h : s.generation = generation ∧ s.pass = some pass
      · obtain ⟨rfl, hp⟩ := h
        cases event with
        | added service =>
          simp only [hp, and_self, if_true]
          exact turn_of_onAdded hs m.now service hp
        | removed service =>
          simp only [hp, and_self, if_true]
          exact .drop hs hp
      · simp only [h, if_false]
        refine .rest fun s' hs' => ?_
        rw [hsame s' hs']
        cases event with
        | added => trivial
        | removed => exact h
    | passEnded generation pass error =>
      have hrest : e.Ignores (some (.passEnded generation pass error)) := fun _ _ => trivial
      by_cases hg : s.generation = generation
      · subst hg
        cases error with
        | none =>
          simp only [if_true]
          exact .succeed pass hs
        | some reason =>
          by_cases hp : s.pass = some pass
          · simp only [hp, if_true]
            exact .fail hs hp
          · simp only [hp, if_true, if_false]
            exact .rest hrest
      · simp only [hg, if_false]
        exact .rest hrest
    | validated generation service ok =>
      by_cases h : s.generation = generation ∧ s.pending.contains service.key.text = true
      · obtain ⟨rfl, hpending⟩ := h
        cases ok with
        | true =>
          simp only [hpending, and_self, if_true]
          exact .accept hs hpending
        | false =>
          simp only [hpending, and_self, if_true]
          exact .refuse hs hpending
      · simp only [h, if_false]
        refine .rest fun s' hs' => ?_
        rw [hsame s' hs']
        exact h

end Engine
end LanInference
