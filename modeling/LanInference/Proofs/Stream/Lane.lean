/-
# The system projects onto the lane of one stream

A lane is what one stream has of the system: its task, the writes it has handed to the store and
those that are done, and the entry under its key. Whatever the system does next, each lane makes one
of its own moves or none: a turn of the task, or a write of its own that is done. Other streams do
not touch it, as long as they have other keys. So what holds along every run of a lane holds of the
stream in every run of the system.

Key definitions: `Lane`, `Lane.Move`, `Lane.Run`, `StreamSystem.Change`, `StreamSystem.Sound`,
`StreamSystem.Owns`, `StreamSystem.Shows`, `StreamSystem.Tracks`.
Key theorems: `StreamSystem.change_of_step`, `StreamSystem.Tracks.change`,
`StreamSystem.Shows.change`, `StreamSystem.run_lane`.
-/
import Mathlib.Data.List.Induction
import LanInference.Proofs.Recovery.Reliable
import LanInference.Proofs.Stream.Turn
import LanInference.Stream.System

namespace LanInference

/-! ### Lanes -/

/-- What one stream has of the system. -/
structure Lane where
  task : StreamTask
  /-- Writes handed to the store and not done, the oldest first. -/
  owed : List StoreOp := []
  /-- Writes done, the newest first. -/
  done : List StoreOp := []
  /-- The entry under the session's key. -/
  entry : Option String
  /-- Whether an entry of the session has been found or written. -/
  marked : Bool := false

namespace Lane

/-- The lane of a stream that is opened over an entry. -/
def start (r : StreamRequest) (prior : Option String) : Lane :=
  { task := .ofRequest r, entry := prior }

/-- The lane after a turn of its task. -/
def turned (l : Lane) (t : StreamTask) (op : Option StoreOp) : Lane :=
  { l with
    task := t
    owed := l.owed ++ op.toList
    marked := l.marked || decide (t.stage = .reading) }

/-- The lane after a write that leaves these owed. -/
def wrote (l : Lane) (op : StoreOp) (owed : List StoreOp) : Lane :=
  { l with
    task := l.task.written
    owed := owed
    done := op :: l.done
    entry := op.entryAfter
    marked := true }

/-- What a lane does next. -/
inductive Move : Option Signal → Lane → Lane → Prop
  | turn {signal : Option Signal} {l : Lane} {t : StreamTask} {op : Option StoreOp}
      (h : StreamTask.Turn l.entry.isSome signal l.task t op) : Move signal l (l.turned t op)
  | written {l : Lane} {op : StoreOp} {owed : List StoreOp} (h : l.owed = op :: owed) :
      Move none l (l.wrote op owed)
  | pause (l : Lane) : Move none l l

/-- The lanes that a stream's moves lead to, and what it hears on the way. -/
inductive Run (r : StreamRequest) (prior : Option String) : List Signal → Lane → Prop
  | start : Run r prior [] (.start r prior)
  | move {signals : List Signal} {signal : Option Signal} {l l' : Lane} :
      Run r prior signals l → Move signal l l' → Run r prior (signals ++ signal.toList) l'

/-- The entry changes as a write is done, and then only. -/
theorem Move.entry_cases {signal : Option Signal} {l l' : Lane} (h : Move signal l l') :
    (l'.done = l.done ∧ l'.entry = l.entry) ∨
      ∃ op, l'.done = op :: l.done ∧ l'.entry = op.entryAfter := by
  cases h with
  | turn => exact .inl ⟨rfl, rfl⟩
  | @written _ op => exact .inr ⟨op, rfl, rfl⟩
  | pause => exact .inl ⟨rfl, rfl⟩

end Lane

/-- What an action lets a stream hear. -/
def StreamAction.signal? (serial : Nat) : StreamAction → Option Signal
  | .respond n reply => if n = serial then some (.reply reply) else none
  | .receive n b => if n = serial then some (.body b) else none
  | _ => none

/-- What a stream hears in a run. -/
def signals (serial : Nat) (as : List StreamAction) : List Signal :=
  as.filterMap (StreamAction.signal? serial)

theorem signals_concat (serial : Nat) (as : List StreamAction) (a : StreamAction) :
    signals serial (as ++ [a]) = signals serial as ++ (a.signal? serial).toList := by
  simp only [signals, List.filterMap_append]
  cases ha : a.signal? serial <;> simp [ha]

namespace StreamSystem

variable {σ : Type} [RecoveryStore σ] {s s' : StreamSystem σ} {a : StreamAction}

/-! ### What an action changes -/

/-- A task is changed, and may have handed a write to the store. -/
def turned (s : StreamSystem σ) (serial : Nat) (t : StreamTask) (op : Option StoreOp)
    (registry : Registry) : StreamSystem σ :=
  { s.setTask serial t with
    registry
    inFlight := s.inFlight ++ (op.map (serial, ·)).toList }

/-- What an action does to the system. -/
inductive Change (s : StreamSystem σ) : StreamAction → StreamSystem σ → Prop
  | start (r : StreamRequest) : Change s (.start r) (s.start r)
  | turn {a : StreamAction} {n : Nat} {t t' : StreamTask} {signal : Option Signal}
      {op : Option StoreOp} (registry : Registry) (ht : s.tasks[n]? = some t)
      (h : StreamTask.Turn (hasEntry s.store t.session.key) signal t t' op)
      (ha : ∀ m, a.signal? m = if n = m then signal else none) :
      Change s a (s.turned n t' op registry)
  | write {n : Nat} {w : Nat × StoreOp} (h : s.inFlight.find? (·.1 = n) = some w) :
      Change s (.write n)
        { s with
          store := (w.2.apply s.store).1
          tasks := s.tasks.modify n StreamTask.written
          inFlight := s.inFlight.erase w
          applied := (n, w.2, (w.2.apply s.store).2.isOk) :: s.applied }
  | idle {a : StreamAction} (ha : ∀ m, a.signal? m = none) : Change s a s

omit [RecoveryStore σ] in
theorem turned_none (s : StreamSystem σ) (n : Nat) (t : StreamTask) :
    s.turned n t none s.registry = s.setTask n t := by
  simp [turned, setTask]

section Moves

omit [RecoveryStore σ]

variable {n : Nat}

/-- A move finds its task and changes that. -/
theorem move_inv {f : StreamTask → Option StreamTask} (h : s.move n f = some s') :
    ∃ t t', s.tasks[n]? = some t ∧ f t = some t' ∧ s' = s.setTask n t' := by
  obtain ⟨t, ht, h⟩ := Option.bind_eq_some_iff.mp h
  obtain ⟨t', hft, h⟩ := Option.bind_eq_some_iff.mp h
  exact ⟨t, t', ht, hft, (Option.some.inj h).symm⟩

theorem moveWriting_inv {f : StreamTask → Option (StreamTask × Option StoreOp)}
    (h : s.moveWriting n f = some s') : ∃ t t' op, s.tasks[n]? = some t ∧ f t = some (t', op) ∧
      s' = s.turned n t' op s.registry := by
  obtain ⟨t, ht, h⟩ := Option.bind_eq_some_iff.mp h
  obtain ⟨⟨t', op⟩, hft, h⟩ := Option.bind_eq_some_iff.mp h
  exact ⟨t, t', op, ht, hft, (Option.some.inj h).symm⟩

end Moves

theorem finish_inv {n : Nat} (h : s.step (.finish n) = some s') :
    ∃ t t', s.tasks[n]? = some t ∧ t.finish = some t' ∧
      s' = s.turned n t' none (s.registry.finish t.session.id n) := by
  obtain ⟨t, ht, h⟩ := Option.bind_eq_some_iff.mp h
  obtain ⟨moved, hmove, h⟩ := Option.bind_eq_some_iff.mp h
  obtain ⟨u, t', hu, hfinish, rfl⟩ := move_inv hmove
  obtain rfl : t = u := Option.some.inj (ht.symm.trans hu)
  refine ⟨t, t', ht, hfinish, ?_⟩
  simpa [turned, setTask] using h.symm

/-- A move of a task, if each result of `f` is a turn. -/
theorem change_of_move {n : Nat} {f : StreamTask → Option StreamTask} {signal : Option Signal}
    (h : s.move n f = some s')
    (hf : ∀ t t', f t = some t' →
      StreamTask.Turn (hasEntry s.store t.session.key) signal t t' none)
    (ha : ∀ m, a.signal? m = if n = m then signal else none) : Change s a s' := by
  obtain ⟨t, t', ht, hft, rfl⟩ := move_inv h
  rw [← turned_none]
  exact .turn s.registry ht (hf t t' hft) ha

theorem change_of_moveWriting {n : Nat} {f : StreamTask → Option (StreamTask × Option StoreOp)}
    (h : s.moveWriting n f = some s')
    (hf : ∀ t t' op, f t = some (t', op) →
      StreamTask.Turn (hasEntry s.store t.session.key) none t t' op)
    (ha : ∀ m, a.signal? m = none) : Change s a s' := by
  obtain ⟨t, t', op, ht, hft, rfl⟩ := moveWriting_inv h
  exact .turn s.registry ht (hf t t' op hft) (by simpa using ha)

/-- **Every action is one of the changes.** -/
theorem change_of_step (h : s.step a = some s') : Change s a s' := by
  cases a with
  | start r =>
    cases h
    exact .start r
  | respond n reply => exact change_of_move h (fun _ _ => StreamTask.turn_of_respond) fun _ => rfl
  | lookUp n =>
    exact change_of_move h (fun _ _ => StreamTask.turn_of_found) fun _ => (ite_self none).symm
  | mark n => exact change_of_moveWriting h (fun _ _ _ => StreamTask.turn_of_mark) fun _ => rfl
  | receive n b => exact change_of_move h (fun _ _ => StreamTask.turn_of_receive) fun _ => rfl
  | record n => exact change_of_moveWriting h (fun _ _ _ => StreamTask.turn_of_record) fun _ => rfl
  | write n =>
    simp only [step, write] at h
    cases hw : s.inFlight.find? (·.1 = n) with
    | none => simp [hw] at h
    | some w =>
      simp only [hw, Option.map_some, Option.some.injEq] at h
      rw [← h]
      exact .write hw
  | send n =>
    exact change_of_move h (fun _ _ => StreamTask.turn_of_send) fun _ => (ite_self none).symm
  | stop n =>
    exact change_of_move h (fun _ _ => StreamTask.turn_of_stop) fun _ => (ite_self none).symm
  | finish n =>
    obtain ⟨t, t', ht, hfinish, rfl⟩ := finish_inv h
    exact .turn _ ht (StreamTask.turn_of_finish hfinish) fun _ => (ite_self none).symm
  | read n =>
    refine change_of_move h (fun t t' ht => ?_) fun _ => (ite_self none).symm
    cases ht
    exact StreamTask.turn_read _ t
  | cancel n =>
    refine change_of_move h (fun t t' ht => ?_) fun _ => (ite_self none).symm
    cases ht
    exact .cancel t
  | drop n =>
    refine change_of_move h (fun t t' ht => ?_) fun _ => (ite_self none).symm
    cases ht
    exact .drop t
  | cancelId id =>
    simp only [step] at h
    split at h
    · refine change_of_move h (fun t t' ht => ?_) fun _ => (ite_self none).symm
      cases ht
      exact .cancel t
    · cases h
      exact .idle fun _ => rfl

/-! ### What stays -/

/-- What a run keeps of the system: the store stays in good states, and each write belongs to a
session. -/
structure Sound (good : σ → Prop) (s : StreamSystem σ) : Prop where
  store_good : good s.store
  owed_own : ∀ w ∈ s.inFlight, ∃ t, s.tasks[w.1]? = some t ∧ w.2.id = t.session.key
  done_own : ∀ w ∈ s.applied, w.1 < s.tasks.length

/-- One stream and no other writes under an id. -/
def Owns (s : StreamSystem σ) (n : Nat) (id : SessionId) : Prop :=
  ∀ m t, s.tasks[m]? = some t → (t.session.key = id.text ↔ m = n)

omit [RecoveryStore σ] in
/-- When a stream is opened, a stream that was there may be cancelled. -/
theorem tasks_start (r : StreamRequest) {m : Nat} {t : StreamTask} (h : s.tasks[m]? = some t) :
    (s.start r).tasks[m]? = some t ∨ (s.start r).tasks[m]? = some t.cancel := by
  obtain ⟨hm, _⟩ := List.getElem?_eq_some_iff.mp h
  unfold start
  cases s.registry.serial? r.id with
  | none => exact .inl (by rw [List.getElem?_append_left hm, h])
  | some previous =>
    have hm' : m < (s.tasks.modify previous StreamTask.cancel).length := by simpa using hm
    simp only [List.getElem?_append_left hm', List.getElem?_modify, h]
    by_cases hp : previous = m
    · exact .inr (by simp [hp])
    · exact .inl (by simp [hp])

omit [RecoveryStore σ] in
theorem tasks_start_new (s : StreamSystem σ) (r : StreamRequest) :
    (s.start r).tasks[s.tasks.length]? = some (.ofRequest r) ∧
      (s.start r).tasks.length = s.tasks.length + 1 := by
  unfold start
  cases s.registry.serial? r.id with
  | none => simp
  | some previous => simp

/-- A task that is there stays, and takes at most one turn or is told that a write is done. -/
theorem Change.later (h : Change s a s') {m : Nat} {t : StreamTask} (ht : s.tasks[m]? = some t) :
    ∃ t', s'.tasks[m]? = some t' ∧
      (t' = t.written ∨ ∃ hasEntry signal op, StreamTask.Turn hasEntry signal t t' op) := by
  obtain ⟨hm, _⟩ := List.getElem?_eq_some_iff.mp ht
  cases h with
  | start r =>
    rcases tasks_start r ht with h | h
    · exact ⟨t, h, .inr ⟨false, none, none, .wait t⟩⟩
    · exact ⟨t.cancel, h, .inr ⟨false, none, none, .cancel t⟩⟩
  | @turn _ n u u' signal op _ hu h _ =>
    by_cases hn : n = m
    · subst hn
      have hut : u = t := Option.some.inj (hu.symm.trans ht)
      subst hut
      exact ⟨u', by simp [turned, setTask, hm], .inr ⟨_, signal, op, h⟩⟩
    · exact ⟨t, by simp [turned, setTask, hn, ht], .inr ⟨false, none, none, .wait t⟩⟩
  | @write n _ _ =>
    by_cases hn : n = m
    · exact ⟨t.written, by simp [hn, ht], .inl rfl⟩
    · exact ⟨t, by simp [hn, ht], .inr ⟨false, none, none, .wait t⟩⟩
  | idle => exact ⟨t, ht, .inr ⟨false, none, none, .wait t⟩⟩

/-- A stream keeps its id. -/
theorem Change.key_eq (h : Change s a s') {m : Nat} {t : StreamTask} (ht : s.tasks[m]? = some t) :
    ∃ t', s'.tasks[m]? = some t' ∧ t'.session.key = t.session.key := by
  obtain ⟨t', ht', rfl | ⟨_, _, _, h⟩⟩ := h.later ht
  · exact ⟨t.written, ht', rfl⟩
  · exact ⟨t', ht', congrArg SessionId.text h.session_eq.1⟩

/-- Once cancelled a stream stays so, and its reader gets nothing more. -/
theorem Change.cancelled (h : Change s a s') {m : Nat} {t : StreamTask}
    (ht : s.tasks[m]? = some t) (hc : t.cancelled = true) :
    ∃ t', s'.tasks[m]? = some t' ∧ t'.cancelled = true ∧ t'.yielded = t.yielded := by
  obtain ⟨t', ht', rfl | ⟨_, _, _, h⟩⟩ := h.later ht
  · exact ⟨t.written, ht', hc, rfl⟩
  · exact ⟨t', ht', h.cancelled hc⟩

theorem Change.length_le (h : Change s a s') : s.tasks.length ≤ s'.tasks.length := by
  cases h with
  | start r => rw [(tasks_start_new s r).2]; exact Nat.le_succ _
  | turn => simp [turned, setTask]
  | write => simp
  | idle => exact Nat.le_refl _

/-- Nothing but opening a stream adds a task. -/
theorem Change.length_eq (h : Change s a s') (ha : ∀ r, a ≠ .start r) :
    s'.tasks.length = s.tasks.length := by
  cases h with
  | start r => exact absurd rfl (ha r)
  | turn => simp [turned, setTask]
  | write => simp
  | idle => rfl

theorem Change.owns_of_length {n : Nat} {id : SessionId} (h : Change s a s')
    (hlen : s'.tasks.length = s.tasks.length) (ho : s.Owns n id) : s'.Owns n id := by
  intro m t' ht'
  have hm := (List.getElem?_eq_some_iff.mp ht').1
  rw [hlen] at hm
  have ht := List.getElem?_eq_getElem hm
  obtain ⟨u, hu, hk⟩ := h.key_eq ht
  rw [Option.some.inj (ht'.symm.trans hu), hk]
  exact ho m _ ht

theorem Change.owns {n : Nat} {id : SessionId} (h : Change s a s') (ho : s'.Owns n id) :
    s.Owns n id := by
  intro m t ht
  obtain ⟨t', ht', hk⟩ := h.key_eq ht
  rw [← hk]
  exact ho m t' ht'

/-- The store changes as a write is done, and then only. -/
theorem Change.store_cases (h : Change s a s') :
    (s'.store = s.store ∧ s'.applied = s.applied) ∨
      ∃ w ∈ s.inFlight, s'.store = (w.2.apply s.store).1 ∧
        s'.applied = (w.1, w.2, (w.2.apply s.store).2.isOk) :: s.applied := by
  cases h with
  | start | turn | idle => exact .inl ⟨rfl, rfl⟩
  | @write n w hw =>
    have hn : w.1 = n := by simpa using List.find?_some hw
    exact .inr ⟨w, List.mem_of_find?_eq_some hw, rfl, by rw [hn]⟩

/-- Writes that belong to sessions still do, and a new one does. -/
theorem Change.owed_own (h : Change s a s')
    (hs : ∀ w ∈ s.inFlight, ∃ t, s.tasks[w.1]? = some t ∧ w.2.id = t.session.key) :
    ∀ w ∈ s'.inFlight, ∃ t, s'.tasks[w.1]? = some t ∧ w.2.id = t.session.key := by
  have hkeep : ∀ w ∈ s.inFlight, ∃ t, s'.tasks[w.1]? = some t ∧ w.2.id = t.session.key := by
    intro w hw
    obtain ⟨t, ht, hid⟩ := hs w hw
    obtain ⟨t', ht', hk⟩ := h.key_eq ht
    exact ⟨t', ht', hid.trans hk.symm⟩
  have hlater := @Change.key_eq _ _ s s' a h
  intro w hw
  cases h with
  | start | idle => exact hkeep w hw
  | @turn _ n t t' _ op _ ht h _ =>
    rcases List.mem_append.mp hw with hw | hw
    · exact hkeep w hw
    · obtain ⟨o, ho, rfl⟩ := Option.map_eq_some_iff.mp (Option.mem_toList.mp hw)
      obtain ⟨u, hu, hk⟩ := hlater ht
      exact ⟨u, hu, (h.op_id o ho).trans hk.symm⟩
  | write => exact hkeep w (List.mem_of_mem_erase hw)

variable {good : σ → Prop}

/-- A write that is done leaves the entries of other ids alone. -/
theorem Sound.write (hrel : Reliable good) (hs : s.Sound good) {w : Nat × StoreOp}
    (hw : w ∈ s.inFlight) : good (w.2.apply s.store).1 ∧
      ∃ t, s.tasks[w.1]? = some t ∧ ∀ id : SessionId, storedText (w.2.apply s.store).1 id.text =
        if id.text = t.session.key then w.2.entryAfter else storedText s.store id.text := by
  obtain ⟨t, ht, hid⟩ := hs.owed_own w hw
  obtain ⟨store, happ, hgood, hget⟩ := hrel.apply hs.store_good t.session.id hid
  rw [happ]
  exact ⟨hgood, t, ht, hget⟩

theorem Sound.change (hrel : Reliable good) (hs : s.Sound good) (h : Change s a s') :
    s'.Sound good := by
  have hold : ∀ w ∈ s.applied, w.1 < s'.tasks.length := fun w hw =>
    Nat.lt_of_lt_of_le (hs.done_own w hw) h.length_le
  rcases h.store_cases with ⟨hstore, happlied⟩ | ⟨w, hw, hstore, happlied⟩
  · exact ⟨hstore ▸ hs.store_good, h.owed_own hs.owed_own, happlied ▸ hold⟩
  · obtain ⟨hgood, t, ht, -⟩ := hs.write hrel hw
    refine ⟨hstore ▸ hgood, h.owed_own hs.owed_own, fun v hv => ?_⟩
    rw [happlied] at hv
    rcases List.mem_cons.mp hv with rfl | hv
    · exact Nat.lt_of_lt_of_le (List.getElem?_eq_some_iff.mp ht).1 h.length_le
    · exact hold v hv

/-! ### The projection -/

/-- What the system has of one stream. -/
structure Shows (s : StreamSystem σ) (n : Nat) (l : Lane) : Prop where
  task_eq : s.tasks[n]? = some l.task
  owed_eq : (s.inFlight.filter (·.1 = n)).map (·.2) = l.owed
  done_eq : (s.applied.filter (·.1 = n)).map (·.2.1) = l.done
  entry_eq : storedText s.store l.task.session.key = l.entry

/-- What the store gives for the id of a stream. -/
theorem Shows.get_eq {good : σ → Prop} (hrel : Reliable good) (hgood : good s.store) {n : Nat}
    {l : Lane} {id : SessionId} (ho : s.Owns n id) (hl : s.Shows n l) :
    RecoveryStore.get s.store id.text = .ok l.entry := by
  have hkey : l.task.session.key = id.text := (ho n l.task hl.task_eq).mpr rfl
  rw [hrel.get_ok hgood id, ← hl.entry_eq, hkey]

/-- The first write of a stream leaves the others in their order. -/
theorem filter_erase {ws : List (Nat × StoreOp)} {n : Nat} {w : Nat × StoreOp}
    (h : ws.find? (·.1 = n) = some w) (m : Nat) :
    ws.filter (·.1 = m) =
      if n = m then w :: (ws.erase w).filter (·.1 = m) else (ws.erase w).filter (·.1 = m) := by
  have hw : w.1 = n := by simpa using List.find?_some h
  rw [← List.erase_filter]
  by_cases hm : n = m
  · subst hm
    rw [← List.head?_filter] at h
    obtain ⟨rest, hr⟩ := List.head?_eq_some_iff.mp h
    simp [hr]
  · have hn : w ∉ ws.filter (·.1 = m) := by simp [hw, hm]
    rw [if_neg hm, List.erase_of_not_mem hn]

/-- What the system has of one stream but for the entry, which others may write too. -/
structure Tracks (s : StreamSystem σ) (n : Nat) (l : Lane) : Prop where
  task_eq : s.tasks[n]? = some l.task
  owed_eq : (s.inFlight.filter (·.1 = n)).map (·.2) = l.owed
  done_eq : (s.applied.filter (·.1 = n)).map (·.2.1) = l.done

variable {n : Nat} {l : Lane} {id : SessionId}

theorem Shows.tracks (hl : s.Shows n l) : s.Tracks n l := ⟨hl.task_eq, hl.owed_eq, hl.done_eq⟩

/-- A change of the system is a move of the lane, as long as the lane has an entry where the store
tells of one. -/
theorem Tracks.change (hl : s.Tracks n l)
    (hentry : hasEntry s.store l.task.session.key = l.entry.isSome) (h : Change s a s') :
    ∃ l', s'.Tracks n l' ∧ Lane.Move (a.signal? n) l l' := by
  cases h with
  | start r =>
    rcases tasks_start r hl.task_eq with ht | ht
    · exact ⟨l, ⟨ht, hl.owed_eq, hl.done_eq⟩, .pause l⟩
    · exact ⟨l.turned l.task.cancel none,
        ⟨ht, hl.owed_eq.trans (List.append_nil _).symm, hl.done_eq⟩, .turn (.cancel l.task)⟩
  | @turn _ m t t' signal op _ ht h ha =>
    by_cases hm : m = n
    · subst hm
      have htl : t = l.task := Option.some.inj (ht.symm.trans hl.task_eq)
      subst htl
      have hlen := (List.getElem?_eq_some_iff.mp ht).1
      rw [ha m, if_pos rfl]
      rw [hentry] at h
      refine ⟨l.turned t' op, ⟨?_, ?_, hl.done_eq⟩, .turn h⟩
      · simp [turned, setTask, hlen, Lane.turned]
      · cases op <;> simp [turned, Lane.turned, ← hl.owed_eq]
    · rw [ha n, if_neg hm]
      refine ⟨l, ⟨?_, ?_, hl.done_eq⟩, .pause l⟩
      · simpa [turned, setTask, hm] using hl.task_eq
      · cases op <;> simpa [turned, hm] using hl.owed_eq
  | @write m w hw =>
    have hfilter := filter_erase hw n
    by_cases hm : m = n
    · subst hm
      rw [if_pos rfl] at hfilter
      have howed : l.owed = w.2 :: ((s.inFlight.erase w).filter (·.1 = m)).map (·.2) := by
        rw [← hl.owed_eq, hfilter, List.map_cons]
      refine ⟨l.wrote w.2 _, ⟨?_, rfl, ?_⟩, .written howed⟩
      · simp [hl.task_eq, Lane.wrote]
      · simp [Lane.wrote, ← hl.done_eq]
    · rw [if_neg hm] at hfilter
      refine ⟨l, ⟨?_, ?_, ?_⟩, .pause l⟩
      · simpa [hm] using hl.task_eq
      · rw [← hfilter]
        exact hl.owed_eq
      · simpa [hm] using hl.done_eq
  | idle ha =>
    rw [ha n]
    exact ⟨l, hl, .pause l⟩

/-- A change of the system is a move of the lane, if the writes owed under its key are its own. -/
theorem Shows.change_of_own (hrel : Reliable good) (hs : s.Sound good) (hl : s.Shows n l)
    (hown : ∀ w ∈ s.inFlight, w.2.id = l.task.session.key → w.1 = n) (h : Change s a s') :
    ∃ l', s'.Shows n l' ∧ Lane.Move (a.signal? n) l l' := by
  have hfound : hasEntry s.store l.task.session.key = l.entry.isSome := by
    rw [hasEntry_eq, hl.entry_eq]
  obtain ⟨l', hl', hm⟩ := hl.tracks.change hfound h
  have hkey : l'.task.session.key = l.task.session.key := by
    obtain ⟨t, ht, hk⟩ := h.key_eq hl.task_eq
    rw [← hk, Option.some.inj (hl'.task_eq.symm.trans ht)]
  refine ⟨l', ⟨hl'.task_eq, hl'.owed_eq, hl'.done_eq, ?_⟩, hm⟩
  rw [hkey]
  have hdone' := hl'.done_eq
  rcases h.store_cases with ⟨hstore, happlied⟩ | ⟨w, hw, hstore, happlied⟩
  · rw [happlied, hl.done_eq] at hdone'
    rcases hm.entry_cases with ⟨-, he⟩ | ⟨op, hdone, -⟩
    · rw [hstore, he, hl.entry_eq]
    · simp [hdone] at hdone'
  · obtain ⟨-, t, ht, hafter⟩ := hs.write hrel hw
    have hentry := hafter l.task.session.id
    rw [hstore]
    by_cases hwn : w.1 = n
    · rw [hwn, hl.task_eq] at ht
      have htl : l.task = t := Option.some.inj ht
      rw [← htl, Session.key, if_pos rfl] at hentry
      rw [happlied, List.filter_cons_of_pos (by simp [hwn]), List.map_cons, hl.done_eq] at hdone'
      rcases hm.entry_cases with ⟨hdone, -⟩ | ⟨op, hdone, he⟩
      · simp [hdone] at hdone'
      · rw [hdone] at hdone'
        rw [he, ← (List.cons.inj hdone').1]
        exact hentry
    · have hother : l.task.session.id.text ≠ t.session.key := fun heq => by
        obtain ⟨u, hu, hid⟩ := hs.owed_own w hw
        rw [Option.some.inj (hu.symm.trans ht)] at hid
        exact hwn (hown w hw (hid.trans heq.symm))
      rw [if_neg hother] at hentry
      rw [happlied, List.filter_cons_of_neg (by simp [hwn]), hl.done_eq] at hdone'
      rcases hm.entry_cases with ⟨-, he⟩ | ⟨op, hdone, -⟩
      · rw [he, ← hl.entry_eq]
        exact hentry
      · simp [hdone] at hdone'

omit [RecoveryStore σ] in
/-- The writes under the id of a stream that has it alone are its own. -/
theorem Owns.own (ho : s.Owns n id) (hs : s.Sound good) {key : String} (hkey : key = id.text) :
    ∀ w ∈ s.inFlight, w.2.id = key → w.1 = n := by
  intro w hw hid
  obtain ⟨t, ht, hown⟩ := hs.owed_own w hw
  exact (ho w.1 t ht).mp (hown.symm.trans (hid.trans hkey))

/-- **A change of the system is a move of the lane.** -/
theorem Shows.change (hrel : Reliable good) (hs : s.Sound good) (ho : s.Owns n id)
    (hl : s.Shows n l) (h : Change s a s') :
    ∃ l', s'.Shows n l' ∧ Lane.Move (a.signal? n) l l' :=
  hl.change_of_own hrel hs (ho.own hs ((ho n l.task hl.task_eq).mpr rfl)) h

/-! ### Runs -/

/-- Where a stream stands in a run that began over a store: it is still to be opened and nothing has
touched the entry of its id, or its lane has come here by a run of its own. -/
inductive Follows (store : σ) (n : Nat) (id : SessionId) (heard : List Signal)
    (s : StreamSystem σ) : Prop
  | before (hn : s.tasks.length ≤ n) (hheard : heard = [])
      (hstored : storedText s.store id.text = storedText store id.text)
  | opened {r : StreamRequest} {l : Lane} (hl : s.Shows n l)
      (hrun : Lane.Run r (storedText store id.text) heard l)

omit [RecoveryStore σ] in
/-- A stream that is opened has done and owes nothing. -/
theorem tracks_start (howed : ∀ w ∈ s.inFlight, w.1 < s.tasks.length)
    (hdone : ∀ w ∈ s.applied, w.1 < s.tasks.length) (r : StreamRequest) (prior : Option String) :
    (s.start r).Tracks s.tasks.length (.start r prior) := by
  have hnoneOwed : s.inFlight.filter (·.1 = s.tasks.length) = [] :=
    List.filter_eq_nil_iff.mpr fun w hw => by simpa using Nat.ne_of_lt (howed w hw)
  have hnoneDone : s.applied.filter (·.1 = s.tasks.length) = [] :=
    List.filter_eq_nil_iff.mpr fun w hw => by simpa using Nat.ne_of_lt (hdone w hw)
  exact ⟨(tasks_start_new s r).1, congrArg (List.map (·.2)) hnoneOwed,
    congrArg (List.map (·.2.1)) hnoneDone⟩

omit [RecoveryStore σ] in
theorem lt_of_own (hs : ∀ w ∈ s.inFlight, ∃ t, s.tasks[w.1]? = some t ∧ w.2.id = t.session.key) :
    ∀ w ∈ s.inFlight, w.1 < s.tasks.length := by
  intro w hw
  obtain ⟨t, ht, -⟩ := hs w hw
  exact (List.getElem?_eq_some_iff.mp ht).1

theorem shows_start (hs : s.Sound good) (r : StreamRequest) :
    (s.start r).Shows s.tasks.length (.start r (storedText s.store r.id.text)) := by
  have hl := tracks_start (lt_of_own hs.owed_own) hs.done_own r (storedText s.store r.id.text)
  exact ⟨hl.task_eq, hl.owed_eq, hl.done_eq, rfl⟩

theorem Follows.change {store : σ} {heard : List Signal} (hrel : Reliable good)
    (hs : s.Sound good) (hf : s.Follows store n id heard) (h : Change s a s')
    (ho : s'.Owns n id) : s'.Follows store n id (heard ++ (a.signal? n).toList) := by
  cases hf with
  | opened hl hrun =>
    obtain ⟨l', hl', hm⟩ := hl.change hrel hs (h.owns ho) h
    exact .opened hl' (hrun.move hm)
  | before hn hheard hstored =>
    subst hheard
    cases h with
    | start r =>
      by_cases hlen : s.tasks.length = n
      · subst hlen
        have hnew := (tasks_start_new s r).1
        have hid : r.id.text = id.text := (ho _ _ hnew).mpr rfl
        have hrun : Lane.Run r (storedText store id.text) []
            (.start r (storedText s.store r.id.text)) := by
          rw [hid, hstored]
          exact .start
        exact .opened (shows_start hs r) hrun
      · have hlen' := (tasks_start_new s r).2
        exact .before (by omega) rfl hstored
    | @turn _ m t _ _ _ _ ht _ ha =>
      have hm := (List.getElem?_eq_some_iff.mp ht).1
      rw [ha n, if_neg (by omega)]
      exact .before (by simpa [turned, setTask] using hn) rfl hstored
    | @write m w hw =>
      have hmem := List.mem_of_find?_eq_some hw
      obtain ⟨_, t, ht, hstore⟩ := hs.write hrel hmem
      have hlt := (List.getElem?_eq_some_iff.mp ht).1
      have hkey : id.text ≠ t.session.key := fun he => by
        have hn := ((Change.write hw).owns ho _ t ht).mp he.symm
        omega
      have hentry := hstore id
      rw [if_neg hkey] at hentry
      exact .before (by simpa using hn) rfl (hentry.trans hstored)
    | idle ha =>
      rw [ha n]
      exact .before hn rfl hstored

theorem run_concat (s : StreamSystem σ) (as : List StreamAction) (a : StreamAction) :
    s.run (as ++ [a]) = (s.run as).bind fun s => s.step a := by
  simp [run, List.foldlM_append]

/-- A run up to its last action, and that action. -/
theorem run_concat_inv {as : List StreamAction} (h : s.run (as ++ [a]) = some s') :
    ∃ between, s.run as = some between ∧ between.step a = some s' := by
  rwa [run_concat, Option.bind_eq_some_iff] at h

/-- What every action keeps, every run keeps. -/
theorem run_keeps {P : StreamSystem σ → Prop} {as : List StreamAction}
    (hkeep : ∀ {s s' : StreamSystem σ} {a : StreamAction}, P s → s.step a = some s' → P s')
    (hs : P s) (h : s.run as = some s') : P s' := by
  induction as using List.reverseRecOn generalizing s' with
  | nil =>
    cases h
    exact hs
  | append_singleton as a ih =>
    obtain ⟨between, hbetween, hstep⟩ := run_concat_inv h
    exact hkeep (ih hbetween) hstep

theorem Reachable.step {store : σ} (h : Reachable store s) (hstep : s.step a = some s') :
    Reachable store s' := by
  obtain ⟨as, has⟩ := h
  exact ⟨as ++ [a], by rw [run_concat, has, Option.bind_some, hstep]⟩

theorem sound_run (hrel : Reliable good) {store : σ} (hstore : good store)
    (as : List StreamAction) (h : ({ store } : StreamSystem σ).run as = some s) :
    s.Sound good := by
  refine run_keeps (fun hs hstep => ?_) ⟨hstore, by simp, by simp⟩ h
  exact Sound.change hrel hs (change_of_step hstep)

theorem Reachable.sound (hrel : Reliable good) {store : σ} (hstore : good store)
    (h : Reachable store s) : s.Sound good := by
  obtain ⟨as, has⟩ := h
  exact sound_run hrel hstore as has

/-- **A run of the system is a run of each lane**, over the entry that the store had to begin
with. -/
theorem run_follows (hrel : Reliable good) {store : σ} (hstore : good store)
    (as : List StreamAction) (h : ({ store } : StreamSystem σ).run as = some s)
    (ho : s.Owns n id) : s.Follows store n id (signals n as) := by
  induction as using List.reverseRecOn generalizing s with
  | nil =>
    cases h
    exact .before (Nat.zero_le n) rfl rfl
  | append_singleton as a ih =>
    obtain ⟨before, hbefore, hstep⟩ := run_concat_inv h
    have hchange := change_of_step hstep
    have hf := ih hbefore (hchange.owns ho)
    rw [signals_concat]
    exact hf.change hrel (sound_run hrel hstore as hbefore) hchange ho

theorem run_append (s : StreamSystem σ) (as bs : List StreamAction) :
    s.run (as ++ bs) = (s.run as).bind fun s => s.run bs := by
  simp only [run, List.foldlM_append]
  rfl

theorem run_cancelled (as : List StreamAction) (h : s.run as = some s') {m : Nat} {t : StreamTask}
    (ht : s.tasks[m]? = some t) (hc : t.cancelled = true) :
    ∃ t', s'.tasks[m]? = some t' ∧ t'.cancelled = true ∧ t'.yielded = t.yielded := by
  refine run_keeps (P := fun u => ∃ t' : StreamTask, u.tasks[m]? = some t' ∧
    t'.cancelled = true ∧ t'.yielded = t.yielded) ?_ ⟨t, ht, hc, rfl⟩ h
  rintro _ _ _ ⟨u, hu, huc, huy⟩ hstep
  obtain ⟨t', ht', hc', hy'⟩ := (change_of_step hstep).cancelled hu huc
  exact ⟨t', ht', hc', hy'.trans huy⟩

/-- The lane of a stream that is there. -/
theorem run_lane (hrel : Reliable good) {store : σ} (hstore : good store)
    {as : List StreamAction} (h : ({ store } : StreamSystem σ).run as = some s)
    (ho : s.Owns n id) {t : StreamTask} (ht : s.tasks[n]? = some t) :
    ∃ r l, s.Shows n l ∧ l.task = t ∧
      Lane.Run r (storedText store id.text) (signals n as) l := by
  cases run_follows hrel hstore as h ho with
  | before hn =>
    have hlt := (List.getElem?_eq_some_iff.mp ht).1
    omega
  | @opened r l hl hrun => exact ⟨r, l, hl, Option.some.inj (hl.task_eq.symm.trans ht), hrun⟩

end StreamSystem
end LanInference
