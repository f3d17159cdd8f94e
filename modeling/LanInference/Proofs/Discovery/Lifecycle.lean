/-
# The lifecycle of the engine

Status, pause, poll timer, current pass and the last power reading are kept apart and changed by
different inputs, and they never contradict each other: `Engine.InOrder` holds after every turn.
What the engine asks for keeps the running passes in step: a pass that is not cancelled is the
current pass of the session (`World.PassesKept`). Together they say what holds of every reachable
world.

Key definitions: `Engine.Orderly`, `Engine.InOrder`, `Engine.Course`, `World.PassesKept`,
`World.Lifecycle`.
Key theorems: `Engine.InOrder.turn`, `Engine.Turn.course`, `World.PassesKept.change`,
`World.Reachable.lifecycle`.
-/
import LanInference.Proofs.Discovery.Change

namespace LanInference

namespace Engine

/-! ### Status, pause and timer -/

/-- The status, the timer, the pass and the last reading agree on whether a session is paused. -/
structure Orderly (e : Engine) (s : ScanSession) : Prop where
  status_iff : e.status = .paused ↔ s.paused = true
  timer_iff : s.paused = true ↔ s.nextTick = none
  reading_iff : s.paused = true ↔ e.power.inBackground = true ∧ s.userInitiated = false
  pass_eq : s.paused = true → s.pass = none
  failed : ∀ reason, e.status = .failed reason → s.paused = false ∧ s.pass = none

structure InOrder (e : Engine) : Prop where
  idle_iff : e.status = .idle ↔ e.session = none
  orderly : ∀ s, e.session = some s → e.Orderly s

variable {now : Nat} {r : Option Report} {e e' : Engine} {es : List Effect} {s s' : ScanSession}

/-- An engine is in order if its session is, and it is not idle. -/
theorem inOrder_of_session (hs : e.session = some s) (hidle : e.status ≠ .idle)
    (h : e.Orderly s) : e.InOrder := by
  refine ⟨⟨fun hi => absurd hi hidle, fun hn => ?_⟩, fun t ht => ?_⟩
  · rw [hs] at hn
    cases hn
  · rw [hs, Option.some.injEq] at ht
    rwa [← ht]

theorem InOrder.not_idle (h : e.InOrder) (hs : e.session = some s) : e.status ≠ .idle := by
  intro hidle
  have hnone := h.idle_iff.mp hidle
  rw [hs] at hnone
  cases hnone

/-- A session that is not paused is being scanned for, or its last pass has failed. -/
theorem InOrder.status_of_unpaused (h : e.InOrder) (hs : e.session = some s)
    (hp : s.paused = false) :
    e.status = .scanning ∨ ∃ reason, e.status = .failed reason ∧ s.pass = none := by
  have ho := h.orderly s hs
  cases hstatus : e.status with
  | idle => exact absurd hstatus (h.not_idle hs)
  | scanning => exact .inl rfl
  | paused =>
    have hpaused := ho.status_iff.mp hstatus
    rw [hp] at hpaused
    cases hpaused
  | failed reason => exact .inr ⟨reason, rfl, (ho.failed reason hstatus).2⟩

/-- What the engine does with the keys of a session leaves its lifecycle alone. -/
theorem InOrder.same (h : e.InOrder) (hs : e.session = some s) (hs' : e'.session = some s')
    (hstatus : e'.status = e.status) (hpower : e'.power = e.power)
    (huser : s'.userInitiated = s.userInitiated) (hpaused : s'.paused = s.paused)
    (htimer : s'.nextTick = s.nextTick) (hpass : s'.pass = s.pass) : e'.InOrder := by
  have ho := h.orderly s hs
  have hidle := h.not_idle hs
  rw [← hstatus] at hidle
  refine inOrder_of_session hs' hidle ⟨?_, ?_, ?_, ?_, ?_⟩
  · rw [hstatus, hpaused]
    exact ho.status_iff
  · rw [hpaused, htimer]
    exact ho.timer_iff
  · rw [hpaused, hpower, huser]
    exact ho.reading_iff
  · rw [hpaused, hpass]
    exact ho.pass_eq
  · rw [hstatus, hpaused, hpass]
    exact ho.failed

theorem inOrder_pause (h : e.Suppresses s) : (e.pause s).1.InOrder := by
  obtain ⟨hb, hu⟩ := h
  refine inOrder_of_session rfl (by simp [pause]) ⟨?_, ?_, ?_, ?_, ?_⟩ <;> simp [pause, hb, hu]

/-- A session that is not paused, may poll and has its timer armed is in order. -/
theorem orderly_of_armed (hstatus : e.status = .scanning ∨
      ∃ reason, e.status = .failed reason ∧ s.pass = none)
    (hp : s.paused = false) (ht : s.nextTick.isSome = true) (h : ¬ e.Suppresses s) :
    e.Orderly s := by
  obtain ⟨t, ht⟩ := Option.isSome_iff_exists.mp ht
  unfold Suppresses at h
  refine ⟨?_, ?_, ?_, ?_, ?_⟩
  · rcases hstatus with hs | ⟨reason, hs, _⟩ <;> simp [hs, hp]
  · simp [hp, ht]
  · rw [hp]
    exact ⟨fun hfalse => absurd hfalse Bool.false_ne_true, fun hall => absurd hall h⟩
  · simp [hp]
  · intro reason hfailed
    rcases hstatus with hs | ⟨_, _, hpass⟩
    · rw [hs] at hfailed
      cases hfailed
    · exact ⟨hp, hpass⟩

theorem not_idle_of_scanning_or_failed (hstatus : e.status = .scanning ∨
    ∃ reason, e.status = .failed reason ∧ s.pass = none) : e.status ≠ .idle := by
  rcases hstatus with h | ⟨reason, h, _⟩ <;> simp [h]

/-- Whatever a poll comes to, it leaves the engine in order. -/
theorem Polls.inOrder (h : Polls now e s e' es) (hp : s.paused = false)
    (hstatus : e.status = .scanning ∨ ∃ reason, e.status = .failed reason ∧ s.pass = none) :
    e'.InOrder := by
  cases h with
  | pause h => exact inOrder_pause h
  | skip h _ =>
    exact inOrder_of_session rfl (not_idle_of_scanning_or_failed hstatus)
      (orderly_of_armed hstatus hp rfl h)
  | run h _ =>
    exact inOrder_of_session rfl (by simp [startPass]) (orderly_of_armed (.inl rfl) hp rfl h)

/-- **Every turn leaves the engine in order.** -/
theorem InOrder.turn (h : e.InOrder) (ht : Turn now r e e' es) : e'.InOrder := by
  cases ht with
  | rest => exact h
  | read p hcalm =>
    refine ⟨h.idle_iff, fun s hs => ?_⟩
    have ho := h.orderly s hs
    refine ⟨ho.status_iff, ho.timer_iff, ?_, ho.pass_eq, ho.failed⟩
    rcases hcalm s hs with hb | hu | ⟨hb, hp⟩
    · rw [hb]
      exact ho.reading_iff
    · have hreading := ho.reading_iff
      simp only [hu, Bool.true_eq_false, and_false] at hreading ⊢
      exact hreading
    · simp [hb, hp]
  | stop => exact ⟨by simp, by simp⟩
  | start userInitiated p hpolls => exact hpolls.inOrder rfl (.inl rfl)
  | @timer _ _ s p _ hs hnext hpolls =>
    have ho := h.orderly s hs
    have hp : s.paused = false := by
      by_contra hpaused
      rw [ho.timer_iff.mp (by simpa using hpaused)] at hnext
      cases hnext
    exact hpolls.inOrder hp (h.status_of_unpaused hs hp)
  | background p hs hsuppress => exact inOrder_pause hsuppress
  | resume p hs hp hpolls => exact hpolls.inOrder rfl (.inl rfl)
  | await p hs hp hf =>
    refine inOrder_of_session rfl (by simp) (orderly_of_armed (.inl rfl) rfl rfl ?_)
    rintro ⟨hb, _⟩
    rw [hf] at hb
    cases hb
  | @rearm _ s p hs hp hb hl =>
    have ho := h.orderly s hs
    have hmay : ¬ (p.inBackground = true ∧ s.userInitiated = false) := by
      rw [hb, ← ho.reading_iff, hp]
      simp
    have hstatus := h.status_of_unpaused hs hp
    refine inOrder_of_session rfl (h.not_idle hs) (orderly_of_armed hstatus hp ?_ hmay)
    rw [PollingPolicy.interval_ofState, if_neg hmay]
    rfl
  | ask hs => exact h.same hs rfl rfl rfl rfl rfl rfl rfl
  | drop hs => exact h.same hs rfl rfl rfl rfl rfl rfl rfl
  | @fail _ s pass reason hs hpass =>
    have ho := h.orderly s hs
    have hp : s.paused = false := by
      by_contra hpaused
      rw [ho.pass_eq (by simpa using hpaused)] at hpass
      cases hpass
    have ht : s.nextTick.isSome = true := by
      by_contra hnone
      have hpaused := ho.timer_iff.mpr (by simpa using hnone)
      rw [hp] at hpaused
      cases hpaused
    refine inOrder_of_session rfl (by simp) (orderly_of_armed (.inr ⟨reason, rfl, rfl⟩) hp ht ?_)
    intro hall
    rw [ho.reading_iff.mpr hall] at hp
    cases hp
  | succeed pass hs => exact h.same hs rfl rfl rfl rfl rfl rfl rfl
  | refuse hs => exact h.same hs rfl rfl rfl rfl rfl rfl rfl
  | accept hs => exact h.same hs rfl rfl rfl rfl rfl rfl rfl

/-! ### Passes -/

/-- The current pass of the session, with the session's generation. -/
def current (e : Engine) : Option (Nat × Nat) :=
  e.session.bind fun s => s.pass.map (s.generation, ·)

/-- What is asked for to cancel the current pass. -/
def cancels (e : Engine) : List Effect := (e.current.map (·.2)).toList.map .cancelPass

/-- What a turn does about passes. -/
inductive Course (r : Option Report) (e e' : Engine) (es : List Effect) : Prop
  | keeps (hc : e'.current = e.current) (hn : e'.passes = e.passes)
      (hq : ∀ x ∈ es, x.isPass = false)
  | ends {quiet : List Effect} (hc : e'.current = none) (hn : e'.passes = e.passes)
      (hes : es = e.cancels ++ quiet) (hq : ∀ x ∈ quiet, x.isPass = false)
  | begins {quiet : List Effect} (generation : Nat) (timeout : Option Nat)
      (hc : e'.current = some (generation, e.passes + 1)) (hn : e'.passes = e.passes + 1)
      (hes : es = e.cancels ++ quiet ++ [.startPass generation (e.passes + 1) timeout])
      (hq : ∀ x ∈ quiet, x.isPass = false)
  | fails {generation pass : Nat} {reason : String}
      (hr : r = some (.passEnded generation pass (some reason)))
      (hb : e.current = some (generation, pass)) (hc : e'.current = none)
      (hn : e'.passes = e.passes) (hes : es = [])

theorem current_eq (hs : e.session = some s) : e.current = s.pass.map (s.generation, ·) := by
  rw [current, hs, Option.bind_some]

theorem current_eq_some_iff {generation pass : Nat} : e.current = some (generation, pass) ↔
    ∃ s, e.session = some s ∧ s.generation = generation ∧ s.pass = some pass := by
  simp [current, Option.bind_eq_some_iff, and_left_comm]

theorem cancels_eq (hs : e.session = some s) : e.cancels = s.endPass.2 := by
  rw [cancels, current_eq hs, ScanSession.endPass]
  cases s.pass <;> rfl

theorem cancelSession_eq (e : Engine) : e.cancelSession.2 = e.cancels := by
  unfold cancelSession
  cases hs : e.session with
  | none => simp [cancels, current, hs]
  | some s => exact (cancels_eq hs).symm

theorem Course.halts (hc : e'.current = none) (hn : e'.passes = e.passes) (hes : es = e.cancels) :
    Course r e e' es :=
  .ends hc hn (hes.trans (List.append_nil _).symm) (by simp)

theorem course_of_cancelSession (e : Engine) :
    Course r e e.cancelSession.1 e.cancelSession.2 := by
  have hsession : e.cancelSession.1.session = none ∧ e.cancelSession.1.passes = e.passes := by
    unfold cancelSession
    cases hs : e.session <;> simp [hs]
  refine .halts ?_ hsession.2 (cancelSession_eq e)
  rw [current, hsession.1]
  rfl

/-- A poll goes on with the current pass, ends it, or begins another. -/
theorem Polls.course (h : Polls now e s e' es) (hs : e.session = some s) : Course r e e' es := by
  cases h with
  | pause =>
    exact .halts rfl rfl (cancels_eq hs).symm
  | skip => exact .keeps (current_eq hs).symm rfl (by simp)
  | run =>
    have hes : (e.startPass (e.polled s now) (e.policy s.userInitiated).browseTimeout).2 =
        e.cancels ++ [] ++ [.startPass s.generation (e.passes + 1)
          (e.policy s.userInitiated).browseTimeout] := by
      rw [cancels_eq hs, List.append_nil]
      rfl
    exact .begins s.generation _ rfl rfl hes (by simp)

/-- Only the current pass and the number of passes matter of the engine before. -/
theorem Course.of_eq {e₁ : Engine} (h : Course r e₁ e' es) (hc : e₁.current = e.current)
    (hn : e₁.passes = e.passes) : Course r e e' es := by
  have hcancels : e₁.cancels = e.cancels := by rw [cancels, hc, cancels]
  cases h with
  | keeps hc' hn' hq => exact .keeps (hc'.trans hc) (hn'.trans hn) hq
  | ends hc' hn' hes hq => exact .ends hc' (hn'.trans hn) (hcancels ▸ hes) hq
  | begins generation timeout hc' hn' hes hq =>
    rw [hn] at hc' hn' hes
    exact .begins generation timeout hc' hn' (hcancels ▸ hes) hq
  | fails hr hb hc' hn' hes => exact .fails hr (hc.symm.trans hb) hc' (hn'.trans hn) hes

theorem Turn.course (ht : Turn now r e e' es) : Course r e e' es := by
  cases ht with
  | rest => exact .keeps rfl rfl (by simp)
  | read => exact .keeps rfl rfl (by simp)
  | stop => exact .halts rfl rfl (cancelSession_eq e)
  | start userInitiated p hpolls =>
    have hclearing : ∀ x ∈ e.clearing userInitiated, x.isPass = false := by
      unfold clearing
      split <;> simp [Effect.isPass]
    cases hpolls with
    | pause => exact .ends rfl rfl (by rw [cancelSession_eq]; simp [pause, freshSession,
        ScanSession.endPass]) hclearing
    | skip _ hd =>
      obtain ⟨_, _, t, ht, _⟩ := hd
      cases ht
    | run =>
      exact .begins (e.generation + 1) _ rfl rfl (by rw [cancelSession_eq]; rfl) hclearing
  | timer p hs _ hpolls => exact (hpolls.course hs).of_eq rfl rfl
  | background p hs =>
    exact .halts rfl rfl (cancels_eq hs).symm
  | resume p hs _ hpolls => exact (hpolls.course rfl).of_eq (current_eq hs).symm rfl
  | await p hs => exact .keeps (current_eq hs).symm rfl (by simp)
  | rearm p hs => exact .keeps (current_eq hs).symm rfl (by simp)
  | ask hs => exact .keeps (current_eq hs).symm rfl (by simp [Effect.isPass])
  | drop hs =>
    refine .keeps (current_eq hs).symm rfl ?_
    unfold onRemoved
    dsimp only
    split <;> simp [Effect.isPass, publish]
  | fail hs hp =>
    exact .fails rfl (by rw [current_eq hs, hp]; rfl) rfl rfl rfl
  | succeed pass hs => exact .keeps (current_eq hs).symm rfl (by simp)
  | refuse hs => exact .keeps (current_eq hs).symm rfl (by simp)
  | accept hs =>
    refine .keeps (current_eq hs).symm rfl ?_
    split <;> simp [Effect.isPass]

end Engine

namespace World

variable {w : World} {e : Engine}

/-- The passes that have not ended, oldest first. -/
def passIds (w : World) : List Nat := w.passes.map (·.pass)

/-- The running passes agree with the session: only its current pass is not cancelled, and none of
them has reported its end. -/
structure PassesKept (w : World) : Prop where
  ascending : w.passIds.Pairwise (· < ·)
  started : ∀ p ∈ w.passIds, p ≤ w.engine.passes
  running : ∀ t ∈ w.passes, t.cancelled = false →
    w.engine.current = some (t.generation, t.pass)
  reported : ∀ generation p error, .passEnded generation p error ∈ w.mailbox →
    p ∉ w.passIds ∧ p ≤ w.engine.passes

theorem mem_passIds {t : PassTask} (ht : t ∈ w.passes) : t.pass ∈ w.passIds :=
  List.mem_map_of_mem ht

theorem passIds_after_cancels (w : World) (e : Engine) :
    (w.after (e, w.engine.cancels)).passIds = w.passIds := by
  refine foldl_perform World.passIds _ _ fun x hx v => ?_
  obtain ⟨p, _, rfl⟩ := List.mem_map.mp hx
  simp only [perform, passIds, List.map_map]
  refine List.map_congr_left fun t _ => ?_
  simp only [Function.comp_apply]
  split <;> rfl

/-- Effects that are not about passes, asked for after the current pass is cancelled. -/
theorem passes_after_cancels {quiet : List Effect} (hq : ∀ x ∈ quiet, x.isPass = false) :
    (w.after (e, w.engine.cancels ++ quiet)).passes = (w.after (e, w.engine.cancels)).passes := by
  rw [after_append, passes_after_quiet hq]

/-- The same passes run, though some may be cancelled, and no end of a pass has been reported
since. -/
theorem PassesKept.of_passIds {w' : World} (h : w.PassesKept) (hids : w'.passIds = w.passIds)
    (hn : w'.engine.passes = w.engine.passes)
    (hm : ∀ g p error, .passEnded g p error ∈ w'.mailbox → .passEnded g p error ∈ w.mailbox)
    (hrunning : ∀ t ∈ w'.passes, t.cancelled = false →
      w'.engine.current = some (t.generation, t.pass)) : w'.PassesKept := by
  refine ⟨?_, ?_, hrunning, fun g p error hmem => ?_⟩
  · rw [hids]
    exact h.ascending
  · rw [hids, hn]
    exact h.started
  · rw [hids, hn]
    exact h.reported g p error (hm g p error hmem)

/-- The passes, the session and the reports of ended passes are all that matters. -/
theorem PassesKept.of_eq {w' : World} (h : w.PassesKept) (hpasses : w'.passes = w.passes)
    (hengine : w'.engine = w.engine) (hm : ∀ g p error, .passEnded g p error ∈ w'.mailbox →
      .passEnded g p error ∈ w.mailbox) : w'.PassesKept := by
  refine h.of_passIds (congrArg (List.map _) hpasses) (congrArg _ hengine) hm ?_
  rw [hpasses, hengine]
  exact h.running

/-- Once the current pass is cancelled no running pass is left that is not. -/
theorem PassesKept.cancelled (h : w.PassesKept) {t : PassTask}
    (ht : t ∈ (w.after (e, w.engine.cancels)).passes) : t.cancelled = true := by
  by_contra hrunning
  cases hc : w.engine.current with
  | none =>
    rw [Engine.cancels, hc] at ht
    have hcurrent := h.running t ht (by simpa using hrunning)
    rw [hc] at hcurrent
    cases hcurrent
  | some gp =>
    rw [Engine.cancels, hc] at ht
    obtain ⟨t₀, ht₀, rfl⟩ := List.mem_map.mp ht
    by_cases hpass : t₀.pass = gp.2
    · rw [if_pos hpass] at hrunning
      exact hrunning rfl
    · rw [if_neg hpass] at hrunning
      have hcurrent := h.running t₀ ht₀ (by simpa using hrunning)
      rw [hc, Option.some.injEq] at hcurrent
      exact hpass (by rw [hcurrent])

/-- A new pass may begin once all others are cancelled. -/
theorem PassesKept.begins {v : World} {generation : Nat} {timeout : Option Nat}
    (h : w.PassesKept) (hids : v.passIds = w.passIds)
    (hcancelled : ∀ t ∈ v.passes, t.cancelled = true) (hm : v.mailbox = w.mailbox)
    (hc : e.current = some (generation, w.engine.passes + 1))
    (hn : e.passes = w.engine.passes + 1) :
    (v.after (e, [.startPass generation (w.engine.passes + 1) timeout])).PassesKept := by
  have hnew : (v.after (e, [.startPass generation (w.engine.passes + 1) timeout])).passIds =
      w.passIds ++ [w.engine.passes + 1] := by
    rw [← hids]
    exact List.map_append
  refine ⟨?_, ?_, ?_, ?_⟩
  · rw [hnew, List.pairwise_append]
    refine ⟨h.ascending, by simp, fun p hp q hq => ?_⟩
    have hle := h.started p hp
    rw [List.mem_singleton.mp hq]
    omega
  · intro p hp
    rw [after_engine, hn]
    rw [hnew, List.mem_append, List.mem_singleton] at hp
    rcases hp with hp | rfl
    · have hle := h.started p hp
      omega
    · exact Nat.le_refl _
  · intro t ht hrunning
    rcases List.mem_append.mp ht with ht | ht
    · rw [hcancelled t ht] at hrunning
      cases hrunning
    · rw [after_engine, hc, List.mem_singleton.mp ht]
  · intro g p error hmem
    rw [after_mailbox, hm] at hmem
    obtain ⟨hgone, hle⟩ := h.reported g p error hmem
    rw [hnew, after_engine, hn, List.mem_append, List.mem_singleton]
    refine ⟨?_, by omega⟩
    rintro (hp | rfl)
    · exact hgone hp
    · omega

/-- What a turn of the engine does about passes keeps the running ones in step with it. -/
theorem PassesKept.after {r : Option Report} {es : List Effect} (h : w.PassesKept)
    (hr : ∀ g p reason, r = some (.passEnded g p (some reason)) → p ∉ w.passIds)
    (hcourse : Engine.Course r w.engine e es) : (w.after (e, es)).PassesKept := by
  have hmailbox : ∀ g p error, .passEnded g p error ∈ (w.after (e, es)).mailbox →
      .passEnded g p error ∈ w.mailbox := by
    rw [after_mailbox]
    exact fun _ _ _ hmem => hmem
  have hcancels : ∀ quiet : List Effect, (∀ x ∈ quiet, x.isPass = false) →
      (w.after (e, w.engine.cancels ++ quiet)).passIds = w.passIds ∧
        ∀ t ∈ (w.after (e, w.engine.cancels ++ quiet)).passes, t.cancelled = true := by
    intro quiet hq
    rw [passIds, passes_after_cancels hq]
    exact ⟨passIds_after_cancels w e, fun t ht => h.cancelled ht⟩
  cases hcourse with
  | keeps hc hn hq =>
    have hpasses := passes_after_quiet (w := w) (e := e) hq
    refine h.of_passIds (congrArg (List.map _) hpasses) (by rw [after_engine, hn]) hmailbox ?_
    rw [hpasses, after_engine, hc]
    exact h.running
  | @ends quiet hc hn hes hq =>
    subst hes
    obtain ⟨hids, hcancelled⟩ := hcancels quiet hq
    refine h.of_passIds hids (by rw [after_engine, hn]) hmailbox fun t ht hrunning => ?_
    rw [hcancelled t ht] at hrunning
    cases hrunning
  | @begins quiet generation timeout hc hn hes hq =>
    subst hes
    obtain ⟨hids, hcancelled⟩ := hcancels quiet hq
    rw [after_append]
    exact h.begins hids hcancelled (after_mailbox _ _) hc hn
  | @fails generation pass reason hreport hb hc hn hes =>
    subst hes
    refine h.of_passIds rfl hn hmailbox fun t ht hrunning => ?_
    have hcurrent := h.running t ht hrunning
    rw [hb, Option.some.injEq, Prod.mk.injEq] at hcurrent
    have hgone := hr generation pass reason hreport
    rw [hcurrent.2] at hgone
    exact absurd (mem_passIds ht) hgone

theorem PassesKept.change {w' : World} {a : Action} (h : w.PassesKept) (hc : Change w a w') :
    w'.PassesKept := by
  cases hc with
  | @turn a r rest e es ho hm ha hturn =>
    have hrest : { w with mailbox := rest }.PassesKept :=
      h.of_eq rfl rfl fun g p error hmem => hm ▸ List.mem_append_right _ hmem
    refine hrest.after (fun g p reason hreport => (h.reported g p (some reason) ?_).1) hturn.course
    rw [hm, hreport]
    exact List.mem_append_left _ (List.mem_singleton_self _)
  | sees ht event =>
    exact h.of_eq rfl rfl fun g p error hmem => (List.mem_append.mp hmem).resolve_right (by simp)
  | @passEnds t ht error =>
    have hids : ({ w with
        passes := w.passes.filter (·.pass ≠ t.pass)
        mailbox := w.mailbox ++ [.passEnded t.generation t.pass error] } : World).passIds =
          w.passIds.filter (· ≠ t.pass) := by
      simp only [passIds, List.filter_map]
      rfl
    refine ⟨?_, ?_, ?_, ?_⟩
    · rw [hids]
      exact h.ascending.filter _
    · rw [hids]
      exact fun p hp => h.started p (List.mem_filter.mp hp).1
    · exact fun u hu => h.running u (List.mem_filter.mp hu).1
    · intro g p error' hmem
      rw [hids]
      rcases List.mem_append.mp hmem with hmem | hmem
      · obtain ⟨hgone, hle⟩ := h.reported g p error' hmem
        exact ⟨fun hp => hgone (List.mem_filter.mp hp).1, hle⟩
      · simp only [List.mem_singleton, Report.passEnded.injEq] at hmem
        obtain ⟨_, rfl, _⟩ := hmem
        exact ⟨by simp, h.started t.pass (mem_passIds ht)⟩
  | validated ht ok =>
    exact h.of_eq rfl rfl fun g p error hmem => (List.mem_append.mp hmem).resolve_right (by simp)
  | aside => exact h.of_eq rfl rfl fun g p error hmem => hmem
  | shutdown =>
    have hkept := h.after (r := none) (by simp) w.engine.course_of_cancelSession
    exact hkept.of_eq rfl rfl (by simp)

/-! ### Reachable worlds -/

/-- What holds between the fields of the engine, and between it and the passes that still run. The
status and the timer of an engine that nobody holds any more do not count. -/
structure Lifecycle (w : World) : Prop where
  idle_iff : w.isOpen = true → (w.engine.status = .idle ↔ w.engine.session = none)
  status_iff : ∀ s, w.engine.session = some s → (w.engine.status = .paused ↔ s.paused = true)
  timer_iff : ∀ s, w.engine.session = some s → (s.paused = true ↔ s.nextTick = none)
  reading_iff : ∀ s, w.engine.session = some s →
    (s.paused = true ↔ w.engine.power.inBackground = true ∧ s.userInitiated = false)
  pass_eq : ∀ s, w.engine.session = some s → s.paused = true → s.pass = none
  failed : w.isOpen = true → ∀ reason, w.engine.status = .failed reason → ∃ s tick,
    w.engine.session = some s ∧ s.paused = false ∧ s.pass = none ∧ s.nextTick = some tick
  running : ∀ t ∈ w.passes, t.cancelled = false → ∃ s,
    w.engine.session = some s ∧ s.generation = t.generation ∧ s.pass = some t.pass
  single : (w.passes.filter fun t => !t.cancelled).length ≤ 1

/-- As long as someone holds the engine it is in order, and without a holder it has no session. -/
def Settled (w : World) : Prop :=
  (w.isOpen = true → w.engine.InOrder) ∧ (w.isOpen = false → w.engine.session = none)

theorem Settled.change {w' : World} {a : Action} (h : w.Settled) (hc : Change w a w') :
    w'.Settled := by
  cases hc with
  | turn ho hm ha hturn =>
    refine ⟨fun _ => ?_, fun hclosed => ?_⟩
    · rw [after_engine]
      exact (h.1 ho).turn hturn
    · rw [after_isOpen, ho] at hclosed
      cases hclosed
  | sees | passEnds | validated | aside => exact h
  | shutdown =>
    refine ⟨fun hopen => absurd hopen Bool.false_ne_true, fun _ => ?_⟩
    rw [after_engine]
    unfold Engine.cancelSession
    split <;> simp_all

theorem Reachable.settled {floor : Nat} (h : Reachable floor w) : w.Settled := by
  refine h.induct (fun reading => ⟨fun _ => ⟨by simp [initial], by simp [initial]⟩, ?_⟩)
    fun h hc => h.change hc
  exact fun hclosed => absurd hclosed Bool.true_eq_false.mp

theorem Reachable.passesKept {floor : Nat} (h : Reachable floor w) : w.PassesKept := by
  refine h.induct (fun reading => ⟨?_, ?_, ?_, ?_⟩) fun h hc => h.change hc <;>
    simp [initial, passIds]

theorem PassesKept.single (h : w.PassesKept) :
    (w.passes.filter fun t => !t.cancelled).length ≤ 1 := by
  have hascending := (List.pairwise_map.mp h.ascending).filter fun t => !t.cancelled
  have hrunning : ∀ t ∈ w.passes.filter fun t => !t.cancelled,
      w.engine.current = some (t.generation, t.pass) := by
    intro t ht
    obtain ⟨hmem, hlive⟩ := List.mem_filter.mp ht
    exact h.running t hmem (by simpa using hlive)
  rcases hlist : w.passes.filter (fun t => !t.cancelled) with _ | ⟨t, _ | ⟨u, rest⟩⟩
  · rw [hlist]
    exact Nat.zero_le 1
  · rw [hlist]
    exact Nat.le_refl 1
  · rw [hlist] at hascending hrunning
    have hlt : t.pass < u.pass := List.rel_of_pairwise_cons hascending List.mem_cons_self
    have hboth := (hrunning t (by simp)).symm.trans (hrunning u (by simp))
    rw [Option.some.injEq, Prod.mk.injEq] at hboth
    omega

/-- **Status, pause, timer, pass and reading agree in every reachable world, and no pass runs
uncancelled but the current one of the session.** -/
theorem Reachable.lifecycle {floor : Nat} (h : Reachable floor w) : w.Lifecycle := by
  have hsettled := h.settled
  have hkept := h.passesKept
  have horderly : ∀ s, w.engine.session = some s → w.engine.Orderly s := by
    intro s hs
    by_cases hopen : w.isOpen = true
    · exact (hsettled.1 hopen).orderly s hs
    · rw [hsettled.2 (by simpa using hopen)] at hs
      cases hs
  refine ⟨fun hopen => (hsettled.1 hopen).idle_iff, fun s hs => (horderly s hs).status_iff,
    fun s hs => (horderly s hs).timer_iff, fun s hs => (horderly s hs).reading_iff,
    fun s hs => (horderly s hs).pass_eq, ?_, ?_, hkept.single⟩
  · intro hopen reason hfailed
    cases hs : w.engine.session with
    | none =>
      have hidle := (hsettled.1 hopen).idle_iff.mpr hs
      rw [hfailed] at hidle
      cases hidle
    | some s =>
      obtain ⟨hp, hpass⟩ := (horderly s hs).failed reason hfailed
      have htimer : s.nextTick ≠ none := by
        intro hnone
        rw [(horderly s hs).timer_iff.mpr hnone] at hp
        cases hp
      obtain ⟨tick, htick⟩ := Option.ne_none_iff_exists'.mp htimer
      exact ⟨s, tick, rfl, hp, hpass, htick⟩
  · exact fun t ht hrunning => Engine.current_eq_some_iff.mp (hkept.running t ht hrunning)

/-- A scan pauses in the background and polls again in the foreground; then its pass fails. The pass
of before the pause has not noticed yet that it is cancelled. -/
def failedScan : List Action :=
  [.command (.start false) .nominal .nominal,
    .command .powerChanged { PowerState.nominal with inBackground := true } .nominal,
    .command .powerChanged .nominal .nominal, .passEnds 2 (some "lost"), .deliver .nominal]

theorem lifecycle_of_failedScan :
    ∃ w : World, (initial 10000 .nominal).run failedScan = some w ∧
      w.engine.status = .failed "lost" ∧ w.passes.map (·.cancelled) = [true] ∧ w.Lifecycle :=
  ⟨_, rfl, rfl, rfl, @Reachable.lifecycle _ 10000 ⟨.nominal, failedScan, rfl⟩⟩

end World
end LanInference
