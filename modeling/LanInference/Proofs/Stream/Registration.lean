/-
# Which session an id stands for

Sessions are numbered in the order in which they are opened, and several may be opened under one
id. Whatever the tasks, the readers and those who open do, and in whatever order, the registry has
an entry for an id exactly as long as the latest session of the id has not finished, and the entry
is the number of that session; an earlier one that is still running has been cancelled. So to cancel
by id reaches the latest session alone, and what becomes of a replaced one never touches its
replacement.

Key definitions: `StreamSystem.Opened`, `StreamSystem.Running`, `StreamSystem.Cancelled`,
`StreamSystem.IsLatest`, `StreamSystem.Retains`, `StreamSystem.Registered`,
`StreamSystem.Registers`.
Key theorems: `StreamSystem.exists_latest`, `StreamSystem.retains_of_step`,
`StreamSystem.Registered.start`, `StreamSystem.Registered.finish`, `StreamSystem.registers`.
-/
import Mathlib.Data.List.Induction
import LanInference.Proofs.Stream.Recoverability

namespace LanInference

/-! ### What a task keeps -/

namespace StreamTask

/-- The session is the same, it has finished if it had, and it is cancelled if it was. -/
structure GoesOn (t t' : StreamTask) : Prop where
  id_eq : t'.session.id = t.session.id
  finished_iff : t'.stage = .finished ↔ t.stage = .finished
  cancelled : t.cancelled = true → t'.cancelled = true

variable {b : Bool} {signal : Option Signal} {t t' : StreamTask} {op : Option StoreOp}

theorem GoesOn.refl (t : StreamTask) : t.GoesOn t := ⟨rfl, Iff.rfl, id⟩

theorem goesOn_written (t : StreamTask) : t.GoesOn t.written := by
  refine ⟨rfl, ?_, id⟩
  unfold written
  cases t.stage <;> simp

theorem goesOn_cancel (t : StreamTask) : t.GoesOn t.cancel := ⟨rfl, Iff.rfl, fun _ => rfl⟩

theorem goesOn_drop (t : StreamTask) : t.GoesOn t.drop := ⟨rfl, Iff.rfl, fun _ => rfl⟩

theorem goesOn_read (t : StreamTask) : t.GoesOn t.read := by
  unfold read
  cases t.poll <;> exact ⟨rfl, Iff.rfl, id⟩

theorem stage_giving_ne_finished (es : List Event) (last : Bool) :
    Stage.giving es last ≠ .finished := by
  cases es with
  | nil => cases last <;> simp [Stage.giving]
  | cons e rest => simp [Stage.giving]

/-- A turn finishes no task but one that is closing. -/
theorem Turn.goesOn (h : Turn b signal t t' op) (hs : t.stage ≠ .closing) : t.GoesOn t' := by
  refine ⟨h.session_eq.1, ?_, fun hc => (h.cancelled hc).1⟩
  cases h with
  | unsent _ h | refused _ h | accepted _ h | found h | mark h | marked h | breaks _ h => simp [h]
  | chunk _ h | ends h => simp [h, stage_giving_ne_finished]
  | record h =>
    unfold afterRecord
    dsimp only
    split <;> simp [h]
  | send h =>
    unfold afterSend
    dsimp only
    split <;> simp [h, stage_giving_ne_finished]
  | leave h => simp [h]
  | stop _ _ h => simp [h]
  | finish h => exact absurd h hs
  | take | wait | cancel | drop => exact Iff.rfl

end StreamTask

namespace StreamSystem

variable {σ : Type} [RecoveryStore σ] {s s' : StreamSystem σ} {a : StreamAction} {m n : Nat}
  {id : SessionId}

/-! ### Sessions by number -/

section Sessions

omit [RecoveryStore σ]

/-- The session of this number was opened under the id. -/
def Opened (s : StreamSystem σ) (n : Nat) (id : SessionId) : Prop :=
  ∃ t, s.tasks[n]? = some t ∧ t.session.id = id

/-- The session of this number has been opened and has not finished. -/
def Running (s : StreamSystem σ) (n : Nat) : Prop :=
  ∃ t, s.tasks[n]? = some t ∧ t.stage ≠ .finished

def Cancelled (s : StreamSystem σ) (n : Nat) : Prop :=
  ∃ t, s.tasks[n]? = some t ∧ t.cancelled = true

/-- The most recently opened session of an id. -/
def IsLatest (s : StreamSystem σ) (n : Nat) (id : SessionId) : Prop :=
  s.Opened n id ∧ ∀ m, s.Opened m id → m ≤ n

theorem Opened.lt (h : s.Opened n id) : n < s.tasks.length := by
  obtain ⟨t, ht, -⟩ := h
  exact (List.getElem?_eq_some_iff.mp ht).1

theorem Opened.id_eq {id' : SessionId} (h : s.Opened n id) (h' : s.Opened n id') : id = id' := by
  obtain ⟨t, ht, rfl⟩ := h
  obtain ⟨t', ht', rfl⟩ := h'
  rw [Option.some.inj (ht.symm.trans ht')]

theorem IsLatest.eq (h : s.IsLatest m id) (h' : s.IsLatest n id) : m = n :=
  Nat.le_antisymm (h'.2 m h.1) (h.2 n h'.1)

/-- An id under which a session was opened has a latest one. -/
theorem exists_latest {m : Nat} (h : s.Opened m id) : ∃ n, s.IsLatest n id ∧ m ≤ n := by
  by_cases hlast : ∀ k, s.Opened k id → k ≤ m
  · exact ⟨m, ⟨h, hlast⟩, Nat.le_refl m⟩
  · obtain ⟨k, hk⟩ := not_forall.mp hlast
    obtain ⟨hopened, hlt⟩ := Classical.not_imp.mp hk
    have hbound := hopened.lt
    obtain ⟨n, hlatest, hle⟩ := exists_latest hopened
    exact ⟨n, hlatest, by omega⟩
termination_by s.tasks.length - m

/-- The same sessions are there and running, those cancelled stay so, and the registry is as it
was. -/
structure Retains (s s' : StreamSystem σ) : Prop where
  registry_eq : s'.registry = s.registry
  length_eq : s'.tasks.length = s.tasks.length
  opened_iff : ∀ n id, s'.Opened n id ↔ s.Opened n id
  running_iff : ∀ n, s'.Running n ↔ s.Running n
  cancelled : ∀ {n}, s.Cancelled n → s'.Cancelled n

theorem Retains.refl (s : StreamSystem σ) : s.Retains s :=
  ⟨rfl, rfl, fun _ _ => Iff.rfl, fun _ => Iff.rfl, id⟩

/-- Each task goes on. -/
theorem retains_of_tasks (hregistry : s'.registry = s.registry)
    (hlen : s'.tasks.length = s.tasks.length)
    (h : ∀ (k : Nat) (t : StreamTask), s.tasks[k]? = some t →
      ∃ t', s'.tasks[k]? = some t' ∧ t.GoesOn t') : s.Retains s' := by
  have hback : ∀ {k : Nat} {t' : StreamTask}, s'.tasks[k]? = some t' →
      ∃ t, s.tasks[k]? = some t ∧ t.GoesOn t' := by
    intro k t' ht'
    have hk := (List.getElem?_eq_some_iff.mp ht').1
    rw [hlen] at hk
    have ht := List.getElem?_eq_getElem hk
    obtain ⟨u, hu, hgo⟩ := h k _ ht
    exact ⟨_, ht, Option.some.inj (hu.symm.trans ht') ▸ hgo⟩
  refine ⟨hregistry, hlen, fun k id => ⟨?_, ?_⟩, fun k => ⟨?_, ?_⟩, ?_⟩
  · rintro ⟨t', ht', rfl⟩
    obtain ⟨t, ht, hgo⟩ := hback ht'
    exact ⟨t, ht, hgo.id_eq.symm⟩
  · rintro ⟨t, ht, rfl⟩
    obtain ⟨t', ht', hgo⟩ := h k t ht
    exact ⟨t', ht', hgo.id_eq⟩
  · rintro ⟨t', ht', hstage⟩
    obtain ⟨t, ht, hgo⟩ := hback ht'
    exact ⟨t, ht, fun hf => hstage (hgo.finished_iff.mpr hf)⟩
  · rintro ⟨t, ht, hstage⟩
    obtain ⟨t', ht', hgo⟩ := h k t ht
    exact ⟨t', ht', fun hf => hstage (hgo.finished_iff.mp hf)⟩
  · rintro k ⟨t, ht, hc⟩
    obtain ⟨t', ht', hgo⟩ := h k t ht
    exact ⟨t', ht', hgo.cancelled hc⟩

/-- One task goes on, and the others are as they were. -/
theorem retains_of_set {t t' : StreamTask} (ht : s.tasks[n]? = some t) (h : t.GoesOn t')
    (hregistry : s'.registry = s.registry) (htasks : s'.tasks = s.tasks.set n t') :
    s.Retains s' := by
  have hlen := (List.getElem?_eq_some_iff.mp ht).1
  refine retains_of_tasks hregistry (by simp [htasks]) fun k u hu => ?_
  by_cases hk : n = k
  · subst hk
    exact ⟨t', by simp [htasks, hlen], Option.some.inj (ht.symm.trans hu) ▸ h⟩
  · exact ⟨u, by simp [htasks, hk, hu], .refl u⟩

/-- A task that is told that its write is done goes on. -/
theorem retains_of_modify (hregistry : s'.registry = s.registry)
    (htasks : s'.tasks = s.tasks.modify n StreamTask.written) : s.Retains s' := by
  refine retains_of_tasks hregistry (by simp [htasks]) fun k u hu => ?_
  by_cases hk : n = k
  · exact ⟨u.written, by simp [htasks, hk, hu], u.goesOn_written⟩
  · exact ⟨u, by simp [htasks, hk, hu], .refl u⟩

/-- A move of a task that goes on by it. -/
theorem retains_of_move {f : StreamTask → Option StreamTask} (h : s.move n f = some s')
    (hf : ∀ t t', f t = some t' → t.GoesOn t') : s.Retains s' := by
  obtain ⟨t, t', ht, hft, rfl⟩ := move_inv h
  exact retains_of_set ht (hf t t' hft) rfl rfl

theorem retains_of_moveWriting {f : StreamTask → Option (StreamTask × Option StoreOp)}
    (h : s.moveWriting n f = some s') (hf : ∀ t t' op, f t = some (t', op) → t.GoesOn t') :
    s.Retains s' := by
  obtain ⟨t, t', op, ht, hft, rfl⟩ := moveWriting_inv h
  exact retains_of_set ht (hf t t' op hft) rfl rfl

end Sessions

/-! ### What an action does to the sessions -/

/-- **Nothing but opening a stream and finishing a task changes which sessions run.** -/
theorem retains_of_step (h : s.step a = some s') (hstart : ∀ r, a ≠ .start r)
    (hfinish : ∀ n, a ≠ .finish n) : s.Retains s' := by
  cases a with
  | start r => exact absurd rfl (hstart r)
  | finish n => exact absurd rfl (hfinish n)
  | respond n reply =>
    refine retains_of_move h fun t t' ht => ?_
    exact (StreamTask.turn_of_respond (b := false) ht).goesOn fun hs => by
      simp [StreamTask.respond, hs] at ht
  | lookUp n =>
    refine retains_of_move h fun t t' ht => ?_
    exact (StreamTask.turn_of_found ht).goesOn fun hs => by simp [StreamTask.found, hs] at ht
  | mark n =>
    refine retains_of_moveWriting h fun t t' op ht => ?_
    exact (StreamTask.turn_of_mark (b := false) ht).goesOn fun hs => by
      simp [StreamTask.mark, hs] at ht
  | receive n step =>
    refine retains_of_move h fun t t' ht => ?_
    exact (StreamTask.turn_of_receive (b := false) ht).goesOn fun hs => by
      simp [StreamTask.receive, hs] at ht
  | record n =>
    refine retains_of_moveWriting h fun t t' op ht => ?_
    exact (StreamTask.turn_of_record (b := false) ht).goesOn fun hs => by
      simp [StreamTask.record, hs] at ht
  | send n =>
    refine retains_of_move h fun t t' ht => ?_
    exact (StreamTask.turn_of_send (b := false) ht).goesOn fun hs => by
      simp [StreamTask.send, hs] at ht
  | stop n =>
    refine retains_of_move h fun t t' ht => ?_
    exact (StreamTask.turn_of_stop (b := false) ht).goesOn fun hs => by
      simp [StreamTask.stop, hs] at ht
  | write n =>
    simp only [step, write] at h
    obtain ⟨w, -, rfl⟩ := Option.map_eq_some_iff.mp h
    exact retains_of_modify rfl rfl
  | read n => exact retains_of_move h fun t t' ht => Option.some.inj ht ▸ t.goesOn_read
  | cancel n => exact retains_of_move h fun t t' ht => Option.some.inj ht ▸ t.goesOn_cancel
  | drop n => exact retains_of_move h fun t t' ht => Option.some.inj ht ▸ t.goesOn_drop
  | cancelId id =>
    simp only [step] at h
    split at h
    · exact retains_of_move h fun t t' ht => Option.some.inj ht ▸ t.goesOn_cancel
    · cases h
      exact .refl s

/-! ### Opening -/

section Opening

omit [RecoveryStore σ]

/-- When a stream is opened, the tasks that were there go on. -/
theorem goesOn_start (r : StreamRequest) {t : StreamTask} (ht : s.tasks[n]? = some t) :
    ∃ t', (s.start r).tasks[n]? = some t' ∧ t.GoesOn t' := by
  rcases tasks_start r ht with h | h
  · exact ⟨t, h, .refl t⟩
  · exact ⟨t.cancel, h, t.goesOn_cancel⟩

/-- The tasks then are those and the new one. -/
theorem task_start_cases {r : StreamRequest} {t' : StreamTask}
    (ht' : (s.start r).tasks[n]? = some t') :
    (n = s.tasks.length ∧ t' = .ofRequest r) ∨ ∃ t, s.tasks[n]? = some t ∧ t.GoesOn t' := by
  obtain ⟨hnew, hlen⟩ := tasks_start_new s r
  have hn := (List.getElem?_eq_some_iff.mp ht').1
  by_cases hlast : n = s.tasks.length
  · subst hlast
    exact .inl ⟨rfl, Option.some.inj (ht'.symm.trans hnew)⟩
  · have ht := List.getElem?_eq_getElem (show n < s.tasks.length by omega)
    obtain ⟨u, hu, hgo⟩ := goesOn_start r ht
    exact .inr ⟨_, ht, Option.some.inj (hu.symm.trans ht') ▸ hgo⟩

theorem opened_start_iff (r : StreamRequest) :
    (s.start r).Opened n id ↔ s.Opened n id ∨ (n = s.tasks.length ∧ r.id = id) := by
  constructor
  · rintro ⟨t', ht', rfl⟩
    rcases task_start_cases ht' with ⟨hn, rfl⟩ | ⟨t, ht, hgo⟩
    · exact .inr ⟨hn, rfl⟩
    · exact .inl ⟨t, ht, hgo.id_eq.symm⟩
  · rintro (⟨t, ht, rfl⟩ | ⟨rfl, rfl⟩)
    · obtain ⟨t', ht', hgo⟩ := goesOn_start r ht
      exact ⟨t', ht', hgo.id_eq⟩
    · exact ⟨_, (tasks_start_new s r).1, rfl⟩

theorem running_start_iff (r : StreamRequest) :
    (s.start r).Running n ↔ s.Running n ∨ n = s.tasks.length := by
  constructor
  · rintro ⟨t', ht', hstage⟩
    rcases task_start_cases ht' with ⟨hn, -⟩ | ⟨t, ht, hgo⟩
    · exact .inr hn
    · exact .inl ⟨t, ht, fun hf => hstage (hgo.finished_iff.mpr hf)⟩
  · rintro (⟨t, ht, hstage⟩ | rfl)
    · obtain ⟨t', ht', hgo⟩ := goesOn_start r ht
      exact ⟨t', ht', fun hf => hstage (hgo.finished_iff.mp hf)⟩
    · exact ⟨_, (tasks_start_new s r).1, by simp [StreamTask.ofRequest]⟩

theorem cancelled_start (r : StreamRequest) (h : s.Cancelled n) : (s.start r).Cancelled n := by
  obtain ⟨t, ht, hc⟩ := h
  obtain ⟨t', ht', hgo⟩ := goesOn_start r ht
  exact ⟨t', ht', hgo.cancelled hc⟩

/-- The session that the registry had under the id is cancelled. -/
theorem cancelled_start_of_entry {r : StreamRequest} (h : s.registry.serial? r.id = some n)
    (hn : n < s.tasks.length) : (s.start r).Cancelled n := by
  have ht := List.getElem?_eq_getElem hn
  have hlen : n < (s.tasks.modify n StreamTask.cancel).length := by simpa using hn
  refine ⟨s.tasks[n].cancel, ?_, rfl⟩
  simp only [start, h]
  rw [List.getElem?_append_left hlen, List.getElem?_modify, ht]
  simp

end Opening

/-! ### Finishing -/

/-- A task that finishes was closing, and leaves the registry. -/
theorem closing_of_finish (h : s.step (.finish n) = some s') :
    ∃ t, s.tasks[n]? = some t ∧ t.stage = .closing ∧
      s'.registry = s.registry.finish t.session.id n ∧
      s'.tasks = s.tasks.set n { t with stage := .finished } := by
  obtain ⟨t, t', ht, hfinish, rfl⟩ := finish_inv h
  have hclosing : t.stage = .closing := by
    by_contra hs
    simp [StreamTask.finish, hs] at hfinish
  obtain rfl : { t with stage := .finished } = t' := by
    simpa [StreamTask.finish, hclosing] using hfinish
  exact ⟨t, ht, hclosing, rfl, rfl⟩

/-! ### The registry follows -/

/-- The registry has the latest session of each id as long as it runs, and an earlier one that still
runs has been cancelled. -/
structure Registered (s : StreamSystem σ) : Prop where
  opened_eq : s.registry.opened = s.tasks.length
  entry_iff : ∀ id n, s.registry.serial? id = some n ↔ s.IsLatest n id ∧ s.Running n
  replaced : ∀ {m n : Nat} {id : SessionId}, s.Opened m id → s.Opened n id → m < n → s.Running m →
    s.Cancelled m

namespace Registered

omit [RecoveryStore σ]

theorem empty (store : σ) : ({ store } : StreamSystem σ).Registered where
  opened_eq := rfl
  entry_iff id n := by
    constructor
    · intro h
      cases h
    · rintro ⟨⟨⟨t, ht, -⟩, -⟩, -⟩
      cases ht
  replaced := by
    rintro m n id ⟨t, ht, -⟩
    cases ht

theorem retains (h : s.Registered) (hs : s.Retains s') : s'.Registered where
  opened_eq := by rw [hs.registry_eq, hs.length_eq, h.opened_eq]
  entry_iff id n := by
    simp only [hs.registry_eq, h.entry_iff, IsLatest, hs.opened_iff, hs.running_iff]
  replaced hm hn hlt hrun := by
    rw [hs.opened_iff] at hm hn
    rw [hs.running_iff] at hrun
    exact hs.cancelled (h.replaced hm hn hlt hrun)

/-- A stream is opened: it is the latest of its id, and the one that was has been cancelled. -/
theorem start (h : s.Registered) (r : StreamRequest) : (s.start r).Registered := by
  have hlt : ∀ {k id}, s.Opened k id → k < s.tasks.length := Opened.lt
  have hregistry : ∀ id, (s.start r).registry.serial? id =
      if id = r.id then some s.tasks.length else s.registry.serial? id := fun id => by
    rw [← h.opened_eq]
    exact s.registry.serial?_insert r.id id
  refine ⟨?_, fun id n => ?_, ?_⟩
  · rw [(tasks_start_new s r).2, ← h.opened_eq]
    rfl
  · rw [hregistry]
    simp only [IsLatest, opened_start_iff, running_start_iff]
    by_cases hid : id = r.id
    · subst hid
      rw [if_pos rfl]
      constructor
      · intro hn
        cases hn
        refine ⟨⟨.inr ⟨rfl, rfl⟩, ?_⟩, .inr rfl⟩
        rintro m (hm | ⟨rfl, -⟩)
        · exact Nat.le_of_lt (hlt hm)
        · exact Nat.le_refl _
      · rintro ⟨⟨hn | ⟨rfl, -⟩, hmax⟩, -⟩
        · have hle := hmax _ (.inr ⟨rfl, rfl⟩)
          have hn := hlt hn
          omega
        · rfl
    · have hne : r.id ≠ id := Ne.symm hid
      rw [if_neg hid, h.entry_iff, IsLatest]
      simp only [hne, and_false, or_false]
      refine and_congr_right fun hlatest => ⟨.inl, fun hrun => hrun.resolve_right ?_⟩
      exact Nat.ne_of_lt (hlt hlatest.1)
  · intro m n id hm hn hmn hrun
    rw [opened_start_iff] at hm hn
    rw [running_start_iff] at hrun
    have hm' : s.Opened m id := hm.resolve_right fun ⟨heq, _⟩ => by
      rcases hn with hn | ⟨hn, -⟩
      · have hn := hlt hn
        omega
      · omega
    have hrun' : s.Running m := hrun.resolve_right (Nat.ne_of_lt (hlt hm'))
    rcases hn with hn | ⟨-, rfl⟩
    · exact cancelled_start r (h.replaced hm' hn hmn hrun')
    · -- The new session replaces the latest so far, which the registry has if it still runs.
      obtain ⟨latest, hlatest, hle⟩ := exists_latest hm'
      rcases Nat.lt_or_eq_of_le hle with hbefore | rfl
      · exact cancelled_start r (h.replaced hm' hlatest.1 hbefore hrun')
      · exact cancelled_start_of_entry ((h.entry_iff _ _).mpr ⟨hlatest, hrun'⟩) (hlt hm')

/-- A task finishes: it leaves the registry if it is the latest of its id, and no other does. -/
theorem finish {t : StreamTask} (h : s.Registered) (ht : s.tasks[n]? = some t)
    (hregistry : s'.registry = s.registry.finish t.session.id n)
    (htasks : s'.tasks = s.tasks.set n { t with stage := .finished }) : s'.Registered := by
  have hn := (List.getElem?_eq_some_iff.mp ht).1
  have hself : s'.tasks[n]? = some { t with stage := .finished } := by simp [htasks, hn]
  have hother : ∀ k, n ≠ k → s'.tasks[k]? = s.tasks[k]? := fun k hk => by simp [htasks, hk]
  have hopened : ∀ k id, s'.Opened k id ↔ s.Opened k id := fun k id => by
    by_cases hk : n = k
    · subst hk
      simp [Opened, hself, ht]
    · rw [Opened, Opened, hother k hk]
  have hrunning : ∀ k, s'.Running k ↔ s.Running k ∧ k ≠ n := fun k => by
    by_cases hk : n = k
    · subst hk
      simp [Running, hself]
    · simp [Running, hother k hk, Ne.symm hk]
  have hcancelled : ∀ {k}, s.Cancelled k → s'.Cancelled k := by
    rintro k ⟨u, hu, hc⟩
    by_cases hk : n = k
    · subst hk
      rw [Option.some.inj (hu.symm.trans ht)] at hc
      exact ⟨_, hself, hc⟩
    · exact ⟨u, (hother k hk).trans hu, hc⟩
  refine ⟨?_, fun id k => ?_, ?_⟩
  · have hsame : s'.registry.opened = s.registry.opened := by
      rw [hregistry]
      unfold Registry.finish
      split <;> rfl
    rw [hsame, h.opened_eq, htasks, List.length_set]
  · rw [hregistry, Registry.serial?_finish]
    simp only [IsLatest, hopened, hrunning]
    have hentry := h.entry_iff id
    split
    · -- The entry goes; the session it was for is the latest of the id, and runs no more.
      rename_i hown
      obtain ⟨rfl, hown⟩ := hown
      have hlatest := ((h.entry_iff _ _).mp hown).1
      refine ⟨fun hnone => (nomatch hnone), ?_⟩
      rintro ⟨hk, -, hne⟩
      exact absurd (IsLatest.eq hk hlatest) hne
    · rename_i hown
      rw [hentry]
      refine and_congr_right fun hk => ⟨fun hrun => ⟨hrun, ?_⟩, And.left⟩
      rintro rfl
      have hid : id = t.session.id := hk.1.id_eq ⟨t, ht, rfl⟩
      subst hid
      exact hown ⟨rfl, (hentry _).mpr ⟨hk, hrun⟩⟩
  · intro m k id hm hk hmk hrun
    rw [hopened] at hm hk
    exact hcancelled (h.replaced hm hk hmk ((hrunning m).mp hrun).1)

end Registered

/-- **Every action keeps the registry in step.** -/
theorem Registered.step (h : s.Registered) (hstep : s.step a = some s') : s'.Registered := by
  by_cases hstart : ∃ r, a = .start r
  · obtain ⟨r, rfl⟩ := hstart
    cases hstep
    exact h.start r
  by_cases hfinish : ∃ n, a = .finish n
  · obtain ⟨n, rfl⟩ := hfinish
    obtain ⟨t, ht, -, hregistry, htasks⟩ := closing_of_finish hstep
    exact h.finish ht hregistry htasks
  · exact h.retains (retains_of_step hstep (not_exists.mp hstart) (not_exists.mp hfinish))

theorem Reachable.registered {store : σ} (h : Reachable store s) : s.Registered := by
  obtain ⟨as, has⟩ := h
  exact run_keeps (fun h hstep => h.step hstep) (.empty store) has

/-! ### What cancelling and finishing reach -/

namespace Registered

/-- To cancel by id cancels the session that the registry has, and no other. -/
theorem cancelId (h : s.Registered) (id : SessionId) :
    ∃ s', s.step (.cancelId id) = some s' ∧ s'.registry = s.registry ∧ ∀ m : Nat,
      s'.tasks[m]? = if s.registry.serial? id = some m then (s.tasks[m]?).map StreamTask.cancel
        else s.tasks[m]? := by
  cases hentry : s.registry.serial? id with
  | none => exact ⟨s, by simp [StreamSystem.step, hentry], rfl, fun m => by simp⟩
  | some n =>
    obtain ⟨⟨t, ht, -⟩, -⟩ := ((h.entry_iff id n).mp hentry).1
    have hn := (List.getElem?_eq_some_iff.mp ht).1
    refine ⟨s.setTask n t.cancel, by simp [StreamSystem.step, hentry, move, ht], rfl, fun m => ?_⟩
    by_cases hm : n = m
    · subst hm
      rw [if_pos rfl, ht]
      simp [setTask, hn]
    · simp [setTask, hm]

omit [RecoveryStore σ] in
/-- Whether a session runs under an id is whether its latest one does. -/
theorem isRunning_iff (h : s.Registered) (id : SessionId) :
    s.isRunning id = true ↔ ∃ n, s.IsLatest n id ∧ s.Running n := by
  rw [isRunning, Option.isSome_iff_exists]
  exact exists_congr fun n => h.entry_iff id n

/-- What becomes of a replaced session leaves its replacement and the registry alone. -/
theorem spared (h : s.Registered) (hm : s.Opened m id) (hn : s.Opened n id) (hmn : m < n)
    (ha : a = .finish m ∨ a = .cancel m ∨ a = .drop m) (hstep : s.step a = some s') :
    s'.registry = s.registry ∧ s'.tasks[n]? = s.tasks[n]? := by
  have hne : m ≠ n := Nat.ne_of_lt hmn
  have hmove : ∀ {f : StreamTask → Option StreamTask}, s.move m f = some s' →
      s'.registry = s.registry ∧ s'.tasks[n]? = s.tasks[n]? := fun hf => by
    obtain ⟨t, t', -, -, rfl⟩ := move_inv hf
    exact ⟨rfl, by simp [setTask, hne]⟩
  rcases ha with rfl | rfl | rfl
  · obtain ⟨t, ht, -, hregistry, htasks⟩ := closing_of_finish hstep
    refine ⟨?_, by simp [htasks, hne]⟩
    -- The entry of the id is for a session that is not before the replacement.
    have hid : t.session.id = id := Opened.id_eq ⟨t, ht, rfl⟩ hm
    have hother : s.registry.serial? t.session.id ≠ some m := fun hentry => by
      have hlatest := ((h.entry_iff _ _).mp hentry).1
      have hle := hlatest.2 n (hid ▸ hn)
      omega
    rw [hregistry, Registry.finish, if_neg hother]
  · exact hmove hstep
  · exact hmove hstep

end Registered

/-- What a registry is for: the sessions opened so far are numbered in their order, so that no two
have one serial; it has an entry for an id exactly as long as the latest session of the id has not
finished, and every earlier one has finished or is cancelled. To cancel by id is answered
by whether there is such an entry, and cancels its session and no other. When a replaced session
finishes, or its reader cancels it or goes, its replacement stays as it is, and stays registered. -/
structure Registers (s : StreamSystem σ) : Prop where
  opened_eq : s.registry.opened = s.tasks.length
  entry_iff : ∀ id n, s.registry.serial? id = some n ↔ s.IsLatest n id ∧ s.Running n
  replaced : ∀ {m n : Nat} {id : SessionId}, s.Opened m id → s.Opened n id → m < n → s.Running m →
    s.Cancelled m
  answered : ∀ id, s.isRunning id = true ↔ ∃ n, s.IsLatest n id ∧ s.Running n
  cancelled : ∀ id, ∃ s', s.step (.cancelId id) = some s' ∧ s'.registry = s.registry ∧
    ∀ m : Nat, s'.tasks[m]? =
      if s.registry.serial? id = some m then (s.tasks[m]?).map StreamTask.cancel else s.tasks[m]?
  spared : ∀ {m n : Nat} {id : SessionId} {a : StreamAction} {s' : StreamSystem σ},
    s.Opened m id → s.Opened n id → m < n → a = .finish m ∨ a = .cancel m ∨ a = .drop m →
    s.step a = some s' → s'.registry = s.registry ∧ s'.tasks[n]? = s.tasks[n]?

/-- **The registry stands for the latest session of each id,** in every run over any store. -/
theorem registers {store : σ} (h : Reachable store s) : s.Registers where
  opened_eq := h.registered.opened_eq
  entry_iff := h.registered.entry_iff
  replaced := h.registered.replaced
  answered := h.registered.isRunning_iff
  cancelled := h.registered.cancelId
  spared := h.registered.spared

/-- A stream is opened again under its id before its task has finished. -/
def reopenedRun : List StreamAction := [.start pullRequest, .start pullRequest, .stop 0, .finish 0]

/-- The replaced task has finished late, and the registry has its replacement. -/
theorem registers_of_reopenedRun : ∃ s : StreamSystem MemoryStore, Reachable {} s ∧ s.Registers ∧
    s.registry.serial? pullRequest.id = some 1 ∧ s.Cancelled 0 ∧ ¬ s.Running 0 ∧ s.Running 1 := by
  have hex : ∃ s : StreamSystem MemoryStore,
      ({ store := {} } : StreamSystem MemoryStore).run reopenedRun = some s ∧
      s.registry.serial? pullRequest.id = some 1 ∧ s.Cancelled 0 ∧
      s.tasks[0]?.map (·.stage) = some .finished ∧ s.Running 1 :=
    ⟨_, rfl, rfl, ⟨_, rfl, rfl⟩, rfl, ⟨_, rfl, by decide⟩⟩
  obtain ⟨s, hrun, hentry, hcancelled, hstage, hrunning⟩ := hex
  have hreachable : Reachable {} s := ⟨reopenedRun, hrun⟩
  refine ⟨s, hreachable, registers hreachable, hentry, hcancelled, ?_, hrunning⟩
  rintro ⟨t, ht, hne⟩
  rw [ht] at hstage
  exact hne (Option.some.inj hstage)

end StreamSystem
end LanInference
