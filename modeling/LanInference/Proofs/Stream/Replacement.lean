/-
# A session that replaces another

To open a stream under the id of a running session cancels that session. Its task stops; but a write
that it has handed to the store is not taken back, and it may be done at any later time: also when
the new session has written over it, or has finished and cleared the entry, and then the old text
is there again. Once the replaced sessions have stopped and none of their writes is under way, the
entry is what the new session leaves, from its next write on.

Key definitions: `StreamSystem.Stopped`, `StreamSystem.Quiet`, `StreamSystem.Sole`,
`StreamSystem.persisted`, `StreamSystem.Governs`, `StreamSystem.LeftTo`.
Key theorems: `StreamSystem.Change.quiet`, `StreamSystem.Governs.step`,
`StreamSystem.governs_of_write`, `StreamSystem.leftTo_iff`,
`StreamSystem.old_text_back_after_lateRun`.
-/
import LanInference.Proofs.SessionId
import LanInference.Proofs.Stream.Registration
import LanInference.Proofs.Stream.Shared

namespace LanInference

/-! ### Tasks that have stopped -/

/-- The task does nothing more. -/
def StreamTask.Stopped (t : StreamTask) : Prop := t.stage = .closing ∨ t.stage = .finished

namespace StreamTask

variable {b : Bool} {signal : Option Signal} {t t' : StreamTask} {op : Option StoreOp}

theorem Stopped.written (h : t.Stopped) : t.written.Stopped := by
  unfold Stopped StreamTask.written at *
  rcases h with h | h
  · exact .inl (by rw [h])
  · exact .inr (by rw [h])

/-- A task that has stopped writes nothing. -/
theorem Turn.stopped (h : Turn b signal t t' op) (ht : t.Stopped) : t'.Stopped ∧ op = none := by
  have hnot : ∀ {stage : Stage}, t.stage = stage → stage ≠ .closing → stage ≠ .finished → False :=
    fun hs hc hf => by
      rcases ht with ht | ht
      · exact hc (hs.symm.trans ht)
      · exact hf (hs.symm.trans ht)
  cases h with
  | unsent _ h | refused _ h | accepted _ h | found h | mark h | marked h | chunk _ h | ends h
  | breaks _ h | record h | send h | leave h => exact (hnot h (by simp) (by simp)).elim
  | stop _ h h' => exact (hnot rfl h h').elim
  | finish => exact ⟨.inr rfl, rfl⟩
  | take | wait | cancel | drop => exact ⟨ht, rfl⟩

end StreamTask

theorem Lane.Move.marked {signal : Option Signal} {l l' : Lane} (h : Move signal l l')
    (hm : l.marked = true) : l'.marked = true := by
  cases h with
  | turn => simp [turned, hm]
  | written => rfl
  | pause => exact hm

namespace StreamSystem

variable {σ : Type} [RecoveryStore σ] {good : σ → Prop} {store : σ} {s s' : StreamSystem σ}
  {a : StreamAction} {later : List StreamAction} {m n : Nat} {id : SessionId}

section Definitions

omit [RecoveryStore σ]

/-- The task of this session does nothing more. -/
def Stopped (s : StreamSystem σ) (m : Nat) : Prop := ∃ t, s.tasks[m]? = some t ∧ t.Stopped

/-- The session does nothing more, and none of its writes is under way. -/
def Quiet (s : StreamSystem σ) (m : Nat) : Prop := s.Stopped m ∧ ∀ w ∈ s.inFlight, w.1 ≠ m

/-- All other sessions of the id are quiet. -/
def Sole (s : StreamSystem σ) (n : Nat) (id : SessionId) : Prop :=
  ∀ m, s.Opened m id → m ≠ n → s.Quiet m

/-- The events of a session whose writes are done: all that are recorded, but for the latest while
a write is under way. -/
def persisted (s : StreamSystem σ) (n : Nat) (t : StreamTask) : List Event :=
  if s.inFlight.any (·.1 = n) then t.recorded.dropLast else t.recorded

end Definitions

/-! ### What stays quiet -/

/-- **A quiet session stays so.** -/
theorem Change.quiet (h : Change s a s') (hq : s.Quiet m) : s'.Quiet m := by
  obtain ⟨⟨t, ht, hstopped⟩, hnone⟩ := hq
  have hlen := (List.getElem?_eq_some_iff.mp ht).1
  cases h with
  | start r =>
    refine ⟨?_, hnone⟩
    rcases tasks_start r ht with h | h
    · exact ⟨t, h, hstopped⟩
    · exact ⟨t.cancel, h, hstopped⟩
  | @turn _ n u u' signal op _ hu hturn _ =>
    by_cases hn : n = m
    · subst hn
      obtain rfl : u = t := Option.some.inj (hu.symm.trans ht)
      obtain ⟨hstopped', rfl⟩ := hturn.stopped hstopped
      exact ⟨⟨u', by simp [turned, setTask, hlen], hstopped'⟩, by simpa [turned] using hnone⟩
    · refine ⟨⟨t, by simp [turned, setTask, hn, ht], hstopped⟩, fun w hw => ?_⟩
      rcases List.mem_append.mp hw with hw | hw
      · exact hnone w hw
      · obtain ⟨o, -, rfl⟩ := Option.map_eq_some_iff.mp (Option.mem_toList.mp hw)
        exact hn
  | @write n w hw =>
    refine ⟨?_, fun v hv => hnone v (List.mem_of_mem_erase hv)⟩
    by_cases hn : n = m
    · exact ⟨t.written, by simp [hn, ht], hstopped.written⟩
    · exact ⟨t, by simp [hn, ht], hstopped⟩
  | idle => exact ⟨⟨t, ht, hstopped⟩, hnone⟩

/-- Sessions come under an id as they are opened there. -/
theorem Change.opened_before (h : Change s a s') (hnew : ∀ r, a = .start r → r.id ≠ id)
    (hopened : s'.Opened m id) : s.Opened m id := by
  have hcases : (∃ r, a = .start r ∧ s' = s.start r) ∨ s'.tasks.length = s.tasks.length := by
    cases h with
    | start r => exact .inl ⟨r, rfl, rfl⟩
    | turn | write => exact .inr (by simp [turned, setTask])
    | idle => exact .inr rfl
  rcases hcases with ⟨r, rfl, rfl⟩ | hlen
  · exact ((opened_start_iff r).mp hopened).resolve_right fun hlast => hnew r rfl hlast.2
  · obtain ⟨t', ht', hid⟩ := hopened
    have hm := (List.getElem?_eq_some_iff.mp ht').1
    rw [hlen] at hm
    have ht := List.getElem?_eq_getElem hm
    obtain ⟨u, hu, hlater⟩ := h.later ht
    obtain rfl : t' = u := Option.some.inj (ht'.symm.trans hu)
    refine ⟨_, ht, ?_⟩
    rcases hlater with rfl | ⟨_, _, _, hturn⟩
    · exact hid
    · exact hturn.session_eq.1.symm.trans hid

theorem Sole.change (hs : s.Sole n id) (h : Change s a s')
    (hnew : ∀ r, a = .start r → r.id ≠ id) : s'.Sole n id :=
  fun m hm hmn => h.quiet (hs m (h.opened_before hnew hm) hmn)

section Owed

omit [RecoveryStore σ]

/-- A write that is under way is under the id of its session. -/
theorem id_eq_iff_opened
    (hown : ∀ w ∈ s.inFlight, ∃ t, s.tasks[w.1]? = some t ∧ w.2.id = t.session.key)
    {w : Nat × StoreOp} (hw : w ∈ s.inFlight) : w.2.id = id.text ↔ s.Opened w.1 id := by
  obtain ⟨t, ht, hkey⟩ := hown w hw
  constructor
  · intro hid
    exact ⟨t, ht, SessionId.text_inj.mp (hkey.symm.trans hid)⟩
  · rintro ⟨u, hu, rfl⟩
    rw [hkey, Option.some.inj (ht.symm.trans hu), Session.key]

/-- The writes under way under the id are of the one session. -/
theorem Sole.own (hs : s.Sole n id)
    (hown : ∀ w ∈ s.inFlight, ∃ t, s.tasks[w.1]? = some t ∧ w.2.id = t.session.key) :
    ∀ w ∈ s.inFlight, w.2.id = id.text → w.1 = n := by
  intro w hw hid
  by_contra hne
  exact (hs w.1 ((id_eq_iff_opened hown hw).mp hid) hne).2 w hw rfl

end Owed

/-! ### One session has the entry -/

/-- The entry of the id is what the writes of one session have left, and no other writes there. -/
structure Governs (good : σ → Prop) (s : StreamSystem σ) (n : Nat) (id : SessionId) : Prop where
  sound : s.Sound good
  sole : s.Sole n id
  shown : ∃ r prior heard l, s.Shows n l ∧ Lane.Run r prior heard l ∧ r.id = id ∧
    prior.getD "" = "" ∧ l.marked = true

/-- The entry mirrors the events of the session whose writes are done. -/
theorem Governs.get_eq (hrel : Reliable good) (h : s.Governs good n id) :
    ∃ t, s.tasks[n]? = some t ∧
      RecoveryStore.get s.store id.text = .ok (mirrored (some "") (s.persisted n t)) := by
  obtain ⟨r, prior, heard, l, hl, hrun, rfl, hprior, hmarked⟩ := h.shown
  have hpersisted : l.persisted = s.persisted n l.task := by
    rw [Lane.persisted, persisted, ← hl.owed_eq]
    simp only [List.map_eq_nil_iff, List.filter_eq_nil_iff, List.any_eq_true]
    split <;> rename_i hnone
    · rw [if_neg]
      rintro ⟨w, hw, hwn⟩
      exact hnone w hw hwn
    · rw [if_pos (by simpa using hnone)]
  have hentry : l.entry = mirrored (some "") (s.persisted n l.task) := by
    rw [hrun.kept.entry_eq, Lane.base, if_pos hmarked, hprior, hpersisted]
  refine ⟨l.task, hl.task_eq, ?_⟩
  rw [hrel.get_ok h.sound.store_good, ← hentry, ← hl.entry_eq, hrun.key_eq]

/-- **Every action leaves the entry to the session,** as long as no other is opened under the id. -/
theorem Governs.step (hrel : Reliable good) (h : s.Governs good n id) (hstep : s.step a = some s')
    (hnew : ∀ r, a = .start r → r.id ≠ id) : s'.Governs good n id := by
  have hchange := change_of_step hstep
  obtain ⟨r, prior, heard, l, hl, hrun, rfl, hprior, hmarked⟩ := h.shown
  have hown : ∀ w ∈ s.inFlight, w.2.id = l.task.session.key → w.1 = n := by
    rw [hrun.key_eq]
    exact h.sole.own h.sound.owed_own
  obtain ⟨l', hl', hm⟩ := hl.change_of_own hrel h.sound hown hchange
  exact ⟨h.sound.change hrel hchange, h.sole.change hchange hnew,
    r, prior, _, l', hl', hrun.move hm, rfl, hprior, hm.marked hmarked⟩

/-- Since then nobody but the session has written under the id, and the entry mirrors what the
session has recorded. -/
structure LeftTo (s s' : StreamSystem σ) (n : Nat) (id : SessionId) : Prop where
  written : ∃ recent, s'.applied = recent ++ s.applied ∧
    ∀ w ∈ recent, w.2.1.id = id.text → w.1 = n
  entry : ∃ t, s'.tasks[n]? = some t ∧
    RecoveryStore.get s'.store id.text = .ok (mirrored (some "") (s'.persisted n t))

theorem Governs.run (hrel : Reliable good) (h : s.Governs good n id) (hrun : s.run later = some s')
    (hnew : ∀ r, .start r ∈ later → r.id ≠ id) :
    s'.Governs good n id ∧ ∃ recent, s'.applied = recent ++ s.applied ∧
      ∀ w ∈ recent, w.2.1.id = id.text → w.1 = n := by
  induction later using List.reverseRecOn generalizing s' with
  | nil =>
    cases hrun
    exact ⟨h, [], rfl, by simp⟩
  | append_singleton later a ih =>
    obtain ⟨between, hbetween, hstep⟩ := run_concat_inv hrun
    obtain ⟨hgoverns, recent, hrecent, hown⟩ :=
      ih hbetween fun r hr => hnew r (List.mem_append_left _ hr)
    refine ⟨hgoverns.step hrel hstep fun r hr => hnew r (by simp [hr]), ?_⟩
    rcases (change_of_step hstep).store_cases with ⟨-, happlied⟩ | ⟨w, hw, -, happlied⟩
    · exact ⟨recent, happlied.trans hrecent, hown⟩
    · refine ⟨_ :: recent, by rw [happlied, hrecent, List.cons_append], fun v hv hid => ?_⟩
      rcases List.mem_cons.mp hv with rfl | hv
      · exact hgoverns.sole.own hgoverns.sound.owed_own w hw hid
      · exact hown v hv hid

/-! ### From the first write on -/

theorem write_inv (h : s.step (.write n) = some s') : ∃ w, s.inFlight.find? (·.1 = n) = some w ∧
    s'.store = (w.2.apply s.store).1 ∧
    s'.applied = (n, w.2, (w.2.apply s.store).2.isOk) :: s.applied := by
  simp only [step, write, Option.map_eq_some_iff] at h
  obtain ⟨w, hw, rfl⟩ := h
  exact ⟨w, hw, rfl, rfl⟩

/-- A session has the entry once a write of its own is done and all others of the id are quiet. -/
theorem governs_of_write (hrel : Reliable good) (hstore : good store) (hs : Reachable store s)
    (hwrite : s.step (.write n) = some s') (hopened : s'.Opened n id) (hsole : s'.Sole n id) :
    s'.Governs good n id := by
  have hs' : Reachable store s' := hs.step hwrite
  obtain ⟨t, ht, rfl⟩ := hopened
  obtain ⟨r, prior, ⟨heard, l, hl, hlane⟩, hprior⟩ := hs'.tracked ht
  obtain rfl : l.task = t := Option.some.inj (hl.task_eq.symm.trans ht)
  obtain ⟨w, hw, hstore', happlied⟩ := write_inv hwrite
  have hwn : w.1 = n := by simpa using List.find?_some hw
  -- The write is the latest of the session, so it has left the lane's entry and the store's.
  have hdone : ∃ ops, l.done = w.2 :: ops := by
    rw [← hl.done_eq, happlied, List.filter_cons_of_pos (by simp)]
    exact ⟨_, rfl⟩
  obtain ⟨ops, hdone⟩ := hdone
  obtain ⟨-, u, hu, hafter⟩ :=
    (hs.sound hrel hstore).write hrel (List.mem_of_find?_eq_some hw)
  have hkey : l.task.session.key = u.session.key := by
    obtain ⟨u', hu', hk⟩ := (change_of_step hwrite).key_eq hu
    rw [hwn] at hu'
    rw [← hk, Option.some.inj (hu'.symm.trans ht)]
  have hentry : storedText s'.store l.task.session.key = l.entry := by
    rw [hstore', hlane.entry_of_done hdone]
    exact (hafter l.task.session.id).trans (if_pos hkey)
  have hmarked : l.marked = true := by
    by_contra hunmarked
    simp [hlane.done_of_unmarked (by simpa using hunmarked)] at hdone
  exact ⟨hs'.sound hrel hstore, hsole, r, prior, heard, l,
    ⟨hl.task_eq, hl.owed_eq, hl.done_eq, hentry⟩, hlane, SessionId.text_inj.mp hlane.key_eq.symm,
    hprior, hmarked⟩

/-- A write that is under way can be done at any time. -/
theorem exists_write {w : Nat × StoreOp} (hw : w ∈ s.inFlight) :
    ∃ s' v, s.step (.write w.1) = some s' ∧ v ∈ s.inFlight ∧ v.1 = w.1 ∧
      ∃ ok, s'.applied = (w.1, v.2, ok) :: s.applied := by
  have hfind : (s.inFlight.find? (·.1 = w.1)).isSome = true :=
    List.find?_isSome.mpr ⟨w, hw, by simp⟩
  obtain ⟨v, hv⟩ := Option.isSome_iff_exists.mp hfind
  have hvw : v.1 = w.1 := by simpa using List.find?_some hv
  have hstep : ∃ s', s.step (.write w.1) = some s' := by simp [step, write, hv]
  obtain ⟨s', hstep⟩ := hstep
  obtain ⟨v', hv', -, happlied⟩ := write_inv hstep
  obtain rfl : v' = v := Option.some.inj (hv'.symm.trans hv)
  exact ⟨s', v', hstep, List.mem_of_find?_eq_some hv, hvw, _, happlied⟩

/-- **The entry is left to the new session exactly if no other write is under way.** Over a store
whose operations succeed, when a session has done a write and all others of its id have stopped: in
whatever happens then, short of opening another session under the id, nobody else writes there and
the entry mirrors what the session has recorded, if and only if none of the writes under way under
the id is another's. -/
theorem leftTo_iff (hrel : Reliable good) (hstore : good store) (hs : Reachable store s)
    (hwrite : s.step (.write n) = some s') (hopened : s'.Opened n id)
    (hstopped : ∀ m, s'.Opened m id → m ≠ n → s'.Stopped m) :
    (∀ w ∈ s'.inFlight, w.2.id = id.text → w.1 = n) ↔
      ∀ later s₂, s'.run later = some s₂ → (∀ r, .start r ∈ later → r.id ≠ id) →
        s'.LeftTo s₂ n id := by
  have hs' : Reachable store s' := hs.step hwrite
  constructor
  · intro hown later s₂ hlater hnew
    have hsole : s'.Sole n id := by
      refine fun m hm hmn => ⟨hstopped m hm hmn, ?_⟩
      rintro w hw rfl
      exact hmn (hown w hw ((id_eq_iff_opened hs'.signed.owed_own hw).mpr hm))
    have hgoverns := governs_of_write hrel hstore hs hwrite hopened hsole
    obtain ⟨hgoverns', hwritten⟩ := hgoverns.run hrel hlater hnew
    exact ⟨hwritten, hgoverns'.get_eq hrel⟩
  · intro hleft w hw hid
    obtain ⟨s₂, v, hstep, hv, hvw, ok, happlied⟩ := exists_write hw
    have hrun : s'.run [.write w.1] = some s₂ := by simp [run, hstep]
    obtain ⟨⟨recent, hrecent, hown⟩, -⟩ := hleft [.write w.1] s₂ hrun (by simp)
    have hone : recent = [(w.1, v.2, ok)] :=
      List.append_cancel_right (hrecent.symm.trans happlied)
    -- The write that is done then is of the same session, and so under the same id.
    have hopened' : s'.Opened v.1 id := hvw ▸ (id_eq_iff_opened hs'.signed.owed_own hw).mp hid
    have hid' : v.2.id = id.text := (id_eq_iff_opened hs'.signed.owed_own hv).mpr hopened'
    exact hown (w.1, v.2, ok) (by simp [hone]) hid'

/-! ### A stream that is opened twice -/

/-- A body with this delta, and its last line. -/
def messageBody (text : String) : List UInt8 :=
  bodyBytes [((Ndjson.messageTree text).write, .newline), (WireFormat.ndjson.doneLine, .newline)]

/-- A stream is replaced while the write of its delta is under way, and the new one has recorded a
delta of its own. -/
def replacedRun : List StreamAction :=
  [.start pullRequest, .respond 0 (.status 200), .lookUp 0, .mark 0, .write 0,
    .receive 0 (.chunk (messageBody "old")), .record 0, .start pullRequest, .stop 0, .finish 0,
    .respond 1 (.status 200), .lookUp 1, .mark 1, .receive 1 (.chunk (messageBody "new")),
    .record 1]

/-- The new stream comes to its end. -/
def endingRun : List StreamAction := [.send 1, .record 1, .write 1, .send 1, .finish 1]

/-- The write of the replaced session is done before the new one writes, and the entry is gone when
the new one has finished. -/
theorem leftTo_of_settledRun : ∃ s s' s₂ : StreamSystem MemoryStore,
    ({ store := {} } : StreamSystem MemoryStore).run (replacedRun ++ [.write 0]) = some s ∧
    s.step (.write 1) = some s' ∧ s'.inFlight = [] ∧ s'.run endingRun = some s₂ ∧
    s'.LeftTo s₂ 1 pullRequest.id ∧
    RecoveryStore.get s₂.store pullRequest.id.text = .ok none := by
  have hex : ∃ s s' s₂ : StreamSystem MemoryStore,
      ({ store := {} } : StreamSystem MemoryStore).run (replacedRun ++ [.write 0]) = some s ∧
      s.step (.write 1) = some s' ∧ s'.inFlight = [] ∧ s'.run endingRun = some s₂ ∧
      s'.tasks.length = 2 ∧ s'.Stopped 0 ∧ s'.Opened 1 pullRequest.id ∧
      RecoveryStore.get s₂.store pullRequest.id.text = .ok none :=
    ⟨_, _, _, rfl, rfl, rfl, rfl, rfl, ⟨_, rfl, .inr rfl⟩, ⟨_, rfl, rfl⟩, rfl⟩
  obtain ⟨s, s', s₂, hs, hwrite, hsettled, hending, hlen, hstopped, hopened, hget⟩ := hex
  have hothers : ∀ m, s'.Opened m pullRequest.id → m ≠ 1 → s'.Stopped m := by
    intro m hm hne
    have hlt := hm.lt
    obtain rfl : m = 0 := by omega
    exact hstopped
  have hleft := (leftTo_iff reliable_memoryStore trivial ⟨_, hs⟩ hwrite hopened hothers).mp
    (by simp [hsettled]) endingRun s₂ hending (by simp [endingRun])
  exact ⟨s, s', s₂, hs, hwrite, hsettled, hending, hleft, hget⟩

/-- The write of the replaced session is done last. The new session has recorded a delta and `done`,
both their writes are done, and there was no entry; then the text of the replaced one is there. -/
theorem old_text_back_after_lateRun : ∃ s s' : StreamSystem MemoryStore, ∃ t : StreamTask,
    ({ store := {} } : StreamSystem MemoryStore).run (replacedRun ++ [.write 1] ++ endingRun) =
      some s ∧
    s.tasks[1]? = some t ∧ t.recorded = [.delta "new", .done] ∧ s.Cancelled 0 ∧ s.Stopped 0 ∧
    RecoveryStore.get s.store pullRequest.id.text = .ok none ∧
    s.step (.write 0) = some s' ∧
    RecoveryStore.get s'.store pullRequest.id.text = .ok (some "old") :=
  ⟨_, _, _, rfl, rfl, rfl, ⟨_, rfl, rfl⟩, ⟨_, rfl, .inr rfl⟩, rfl, rfl, rfl⟩

end StreamSystem
end LanInference
