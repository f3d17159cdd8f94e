/-
# The task writes ahead of its reader

What the reader has got begins what is recorded, and what is recorded begins what the answer gives,
also when the stream is cancelled in the middle. The task is ahead by the events in the channel and
the one it is about to hand over, and by no more (`Lane.Run.lead`). When no write is owed, the entry
of an opened session is exactly what the recorded events leave. The recorded events are the
adapter's, except for the one error at the end of a body that breaks.

Key definitions: `Answer.adapterEvents`, `Stage.lead`, `Lane.Opened`, `StreamSystem.WrittenAhead`.
Key theorems: `Gives.le_events`, `Lane.Run.recorded_le`, `Lane.Run.lead`, `StreamSystem.run_opened`,
`StreamSystem.written_ahead`.
-/
import LanInference.Proofs.Stream.Delivery

namespace LanInference

/-! ### What the adapter gives -/

/-- All that the adapter gives for a body: what it gives for the chunks and, if the body ends
properly, for the end. -/
def Answer.adapterEvents (format : WireFormat) (answer : Answer) : List Event :=
  (({ format } : Adapter).feedAll answer.chunks).2 ++
    match answer.ending with
    | .ends => (({ format } : Adapter).feedAll answer.chunks).1.finish.2
    | .breaks _ => []

/-- The events of a success are the adapter's, and after them one error if the body breaks. -/
theorem Answer.events_eq_adapterEvents {answer : Answer} (hr : answer.reply.isSuccess = true)
    (format : WireFormat) : answer.events format = answer.adapterEvents format ∨
      ∃ reason, answer.ending = .breaks reason ∧
        answer.events format = answer.adapterEvents format ++ [.error (.transport reason)] := by
  rw [Gives.answer_events_eq hr rfl, adapterEvents]
  cases answer.ending with
  | ends => exact .inl rfl
  | breaks reason =>
    simp only [List.append_nil]
    split
    · exact .inl rfl
    · exact .inr ⟨reason, rfl, rfl⟩

/-- **What the bits heard so far give begins what the whole answer gives.** -/
theorem Gives.le_events {format : WireFormat} {answer : Answer} {body : List BodyStep}
    {a : Adapter} {es : List Event} {last : Bool} (h : Gives format answer.reply body a es last)
    (hb : body <+: answer.body) : es <+: answer.events format := by
  cases last with
  | true => exact h.events_eq hb (h.finished_of_last rfl) ▸ List.prefix_refl _
  | false =>
    obtain ⟨hr, chunks, rfl, hf⟩ := h.open_eq rfl
    rw [← List.append_nil (chunks.map BodyStep.chunk)] at hb
    obtain ⟨more, hm, _⟩ := exists_more_chunks hb
    have hall : ({ format } : Adapter).feedAll answer.chunks =
        ((a.feedAll more).1, es ++ (a.feedAll more).2) := by
      rw [hm, Adapter.feedAll_append, hf]
    rw [answer_events_eq hr hall]
    cases answer.ending with
    | ends => simp
    | breaks reason =>
      dsimp only
      split <;> simp

/-- How far a task can be ahead of its reader, where it stands. -/
def Stage.lead : Stage → Nat
  | .writing .. | .sending .. | .closing | .finished => StreamTask.capacity + 1
  | _ => StreamTask.capacity

theorem Stage.le_lead (s : Stage) : StreamTask.capacity ≤ s.lead := by
  cases s <;> simp [lead]

theorem Stage.lead_le (s : Stage) : s.lead ≤ StreamTask.capacity + 1 := by
  cases s <;> simp [lead]

namespace Lane

variable {prior : Option String} {heard : List Signal} {l l' : Lane} {r : StreamRequest}
  {answer : Answer}

/-- **What is recorded begins what the answer gives.** -/
theorem Run.recorded_le (h : Run r prior heard l) (hheard : heard <+: answer.signals) :
    l.task.recorded <+: answer.events r.format := by
  rcases h.going.given.cut with hnil | ⟨reply, body, a, es, last, rfl, hgives, hle⟩
  · rw [hnil]
    exact List.nil_prefix
  · obtain ⟨hreply, hbody⟩ := List.cons_prefix_cons.mp hheard
    have hr : reply = answer.reply := Signal.reply.inj hreply
    subst hr
    exact hle.trans (hgives.le_events (body_le_of_signals hbody))

/-! ### How far ahead -/

/-- A turn keeps a task that near. Only recording an event takes it further, and what it hands over
fits into the channel. -/
theorem Kept.lead_turned (hk : l.Kept prior) {signal : Option Signal} {t : StreamTask}
    {op : Option StoreOp} (h : StreamTask.Turn l.entry.isSome signal l.task t op)
    (hl : l.task.recorded.length ≤ l.task.yielded.length + l.task.stage.lead) :
    t.recorded.length ≤ t.yielded.length + t.stage.lead := by
  have hnear : l.task.stage.lead = StreamTask.capacity → ∀ s : Stage,
      l.task.recorded.length ≤ l.task.yielded.length + s.lead := by
    intro hcapacity s
    have hle := s.le_lead
    omega
  have hfar : ∀ s : Stage, s.lead = StreamTask.capacity + 1 →
      l.task.recorded.length ≤ l.task.yielded.length + s.lead := by
    intro s hs
    have hle := l.task.stage.lead_le
    omega
  cases h with
  | unsent _ h | refused _ h | accepted _ h | found h | mark h | marked h =>
    exact hnear (by rw [h]; rfl) _
  | chunk _ h | ends h | breaks _ h => exact hnear (by rw [h]; rfl) _
  | @record _ e rest last h =>
    rw [h] at hl
    have hlead : (l.task.afterRecord e rest last).stage.lead = StreamTask.capacity + 1 := by
      unfold StreamTask.afterRecord
      dsimp only
      split <;> rfl
    rw [hlead]
    have hlen : (l.task.recorded ++ [e]).length = l.task.recorded.length + 1 := by simp
    exact hlen ▸ Nat.add_le_add_right hl 1
  | @send _ e rest last h hd hroom =>
    have hstage := hk.stage_kept
    rw [h] at hstage
    obtain ⟨_, _, init, hlatest⟩ := hstage
    have hhanded : (l.turned (l.task.afterSend e rest last) none).handed = l.task.recorded :=
      hlatest.handed_eq hd (List.append_assoc _ _ _).symm
    have hlen : l.task.yielded.length + (l.task.channel ++ [e]).length =
        l.task.recorded.length := by
      rw [← hhanded]
      exact List.length_append.symm
    have hle := (l.task.afterSend e rest last).stage.le_lead
    rw [List.length_append, List.length_singleton] at hlen
    calc l.task.recorded.length = l.task.yielded.length + (l.task.channel.length + 1) := hlen.symm
      _ ≤ l.task.yielded.length + (l.task.afterSend e rest last).stage.lead :=
        Nat.add_le_add_left (Nat.le_trans hroom hle) _
  | leave | stop | finish => exact hfar _ rfl
  | take =>
    rw [List.length_append, List.length_singleton]
    exact Nat.le_trans hl (Nat.add_le_add_right (Nat.le_succ _) _)
  | wait | cancel | drop => exact hl

theorem lead_written (t : StreamTask) : t.written.stage.lead = t.stage.lead := by
  unfold StreamTask.written
  cases t.stage <;> rfl

/-- **A task is ahead of its reader by the channel and one event.** -/
theorem Run.lead (h : Run r prior heard l) :
    l.task.recorded.length ≤ l.task.yielded.length + l.task.stage.lead := by
  induction h with
  | start => exact Nat.zero_le _
  | move hrun hm ih =>
    cases hm with
    | turn h => exact hrun.kept.lead_turned h ih
    | written h => exact (lead_written _).symm ▸ ih
    | pause => exact ih

/-! ### Opened sessions -/

/-- The session has found an entry, or has handed its mark to the store. -/
def Opened (l : Lane) : Prop := l.marked = true ∨ l.owed ≠ []

theorem Opened.move {signal : Option Signal} (h : l.Opened) (hm : Move signal l l') :
    l'.Opened := by
  cases hm with
  | turn =>
    rcases h with h | h
    · exact .inl (by simp [turned, h])
    · exact .inr (by simp [turned, h])
  | written => exact .inl rfl
  | pause => exact h

theorem Kept.opened (hk : l.Kept prior)
    (h : l.task.stage = .opening ∨ l.task.stage = .reading) : l.Opened := by
  have hstage := hk.stage_kept
  rcases h with h | h
  · rw [h] at hstage
    exact .inr (List.ne_nil_of_length_pos (by rw [hstage.2.2.2.1]; decide))
  · rw [h] at hstage
    exact .inl hstage.2

/-- When an opened session has no write owed, its entry is what the recorded events leave. -/
theorem Kept.entry_of_opened (hk : l.Kept prior) (h : l.Opened) (ho : l.owed = []) :
    l.entry = mirrored (some (prior.getD "")) l.task.recorded := by
  have hentry := hk.entry_eq
  rwa [persisted, if_pos ho, base, if_pos (h.resolve_right fun hne => hne ho)] at hentry

end Lane

theorem StreamTask.stage_of_mark {t t' : StreamTask} {op : Option StoreOp}
    (h : t.mark = some (t', op)) : t'.stage = .opening ∨ t'.stage = .reading := by
  unfold mark at h
  split at h
  · split at h
    · cases h
      exact .inl rfl
    · cases h
      exact .inr rfl
  · cases h

namespace StreamSystem

variable {σ : Type} [RecoveryStore σ] {good : σ → Prop} {store : σ} {answer : Answer} {n : Nat}
  {id : SessionId} {as : List StreamAction} {s s' : StreamSystem σ} {t : StreamTask}

theorem task_of_mark (h : s.step (.mark n) = some s') : ∃ t t', s.tasks[n]? = some t ∧
    s'.tasks[n]? = some t' ∧ (t'.stage = .opening ∨ t'.stage = .reading) := by
  simp only [step, moveWriting] at h
  cases ht : s.tasks[n]? with
  | none => simp [ht] at h
  | some t =>
    cases hm : t.mark with
    | none => simp [ht, hm] at h
    | some p =>
      obtain ⟨t', op⟩ := p
      have hs : s' = { s.setTask n t' with
          inFlight := s.inFlight ++ (op.map (n, ·)).toList } := by simpa [ht, hm] using h.symm
      exact ⟨t, t', rfl, hs ▸ tasks_setTask ht, StreamTask.stage_of_mark hm⟩

/-- The lane of a stream whose session has been opened. -/
theorem run_opened (hrel : Reliable good) (hstore : good store)
    (h : ({ store } : StreamSystem σ).run as = some s) (ho : s.Owns n id) (hm : .mark n ∈ as) :
    ∃ r l, s.Shows n l ∧ Lane.Run r (storedText store id.text) (signals n as) l ∧ l.Opened := by
  induction as using List.reverseRecOn generalizing s with
  | nil => cases hm
  | append_singleton as a ih =>
    obtain ⟨before, hbefore, hstep⟩ := run_concat_inv h
    have hchange := change_of_step hstep
    have hsound := sound_run hrel hstore as hbefore
    rw [signals_concat]
    rcases List.mem_append.mp hm with hm | hm
    · obtain ⟨r, l, hl, hrun, hopened⟩ := ih hbefore (hchange.owns ho) hm
      obtain ⟨l', hl', hmove⟩ := hl.change hrel hsound (hchange.owns ho) hchange
      exact ⟨r, l', hl', hrun.move hmove, hopened.move hmove⟩
    · obtain rfl := List.mem_singleton.mp hm
      obtain ⟨t, t', ht, ht', hstage⟩ := task_of_mark hstep
      obtain ⟨r, l, hl, -, hrun⟩ := run_lane hrel hstore hbefore (hchange.owns ho) ht
      obtain ⟨l', hl', hmove⟩ := hl.change hrel hsound (hchange.owns ho) hchange
      have hrun' := hrun.move hmove
      rw [Option.some.inj (ht'.symm.trans hl'.task_eq)] at hstage
      exact ⟨r, l', hl', hrun', hrun'.kept.opened hstage⟩

/-- What holds of an opened stream when none of its writes is owed. What was read begins what is
recorded, and that begins what the adapter gives for the body, or is all of it with one error for a
body that breaks; it is ahead by no more than the channel and one event; and the entry is what it
leaves: none after `done`, else the text of the deltas, or, when there are none, the text that was
there to begin with. Once cancelled the stream yields nothing more. -/
structure WrittenAhead (store : σ) (s : StreamSystem σ) (n : Nat) (id : SessionId)
    (answer : Answer) (t : StreamTask) : Prop where
  yielded_le : t.yielded <+: t.recorded
  recorded_le : t.recorded <+: answer.adapterEvents t.session.format ∨
    ∃ reason, answer.ending = .breaks reason ∧
      t.recorded = answer.adapterEvents t.session.format ++ [.error (.transport reason)]
  lead_le : t.recorded.length ≤ t.yielded.length + 65
  cleared : .done ∈ t.recorded → RecoveryStore.get s.store id.text = .ok none
  kept : .done ∉ t.recorded → RecoveryStore.get s.store id.text = .ok (some
    (if t.recorded.any Event.isDelta then deltaText t.recorded
      else (storedText store id.text).getD ""))
  silent : t.cancelled = true → ∀ later s', s.run later = some s' → ∃ t',
    s'.tasks[n]? = some t' ∧ t'.poll = .ended ∧ t'.yielded = t.yielded

/-- **The task writes ahead of its reader.** Over a reliable store, at whatever point of whatever
run after its session is opened at which none of its writes is owed, cancelled or not. -/
theorem written_ahead (hrel : Reliable good) (hstore : good store)
    (hrun : ({ store } : StreamSystem σ).run as = some s) (ht : s.tasks[n]? = some t)
    (howns : s.Owns n id) (hok : answer.reply.isSuccess = true)
    (hheard : signals n as <+: answer.signals) (hopen : .mark n ∈ as)
    (hdone : ∀ w ∈ s.inFlight, w.1 ≠ n) : WrittenAhead store s n id answer t := by
  obtain ⟨r, l, hl, hlane, hopened⟩ := run_opened hrel hstore hrun howns hopen
  obtain rfl : l.task = t := Option.some.inj (hl.task_eq.symm.trans ht)
  have howed : l.owed = [] := by
    rw [← hl.owed_eq, List.map_eq_nil_iff, List.filter_eq_nil_iff]
    exact fun w hw => by simpa using hdone w hw
  have hget := hl.get_eq hrel (sound_run hrel hstore as hrun).store_good howns
  have hentry := hlane.kept.entry_of_opened hopened howed
  have hle := hlane.recorded_le hheard
  rw [← hlane.session_eq.2] at hle
  refine ⟨?_, ?_, ?_, fun hmem => ?_, fun hmem => ?_, fun hc later s' hlater => ?_⟩
  · obtain ⟨more, hmore, _⟩ := hlane.kept.exists_read
    exact (List.prefix_append _ more).trans hmore
  · rcases Answer.events_eq_adapterEvents hok l.task.session.format with
      heq | ⟨reason, hbreaks, heq⟩
    · exact .inl (heq ▸ hle)
    · rw [heq, List.prefix_concat_iff] at hle
      exact hle.symm.imp_right fun hall => ⟨reason, hbreaks, hall⟩
  · exact Nat.le_trans hlane.lead (Nat.add_le_add_left l.task.stage.lead_le _)
  · rw [hget, hentry, mirrored, if_pos hmem]
  · rw [hget, hentry, mirrored, if_neg hmem, ← apply_ite some]
  · obtain ⟨t', ht', hc', hy'⟩ := run_cancelled later hlater ht hc
    exact ⟨t', ht', if_pos hc', hy'⟩

/-- The reader has got the delta and cancels; by then `done` is recorded and written. -/
def cancelledRun : List StreamAction := deltaRun ++ [.record 0, .write 0, .cancel 0]

theorem written_ahead_of_cancelledRun :
    ∃ s : StreamSystem MemoryStore, ∃ t : StreamTask,
      ({ store := {} } : StreamSystem MemoryStore).run cancelledRun = some s ∧
      s.tasks[0]? = some t ∧ t.cancelled = true ∧ t.yielded = [.delta "a"] ∧
      t.recorded = [.delta "a", .done] ∧
      WrittenAhead {} s 0 pullRequest.id ⟨.status 200, [shortBody], .ends⟩ t := by
  have hex : ∃ s : StreamSystem MemoryStore, ∃ t : StreamTask,
      ({ store := {} } : StreamSystem MemoryStore).run cancelledRun = some s ∧
      s.tasks[0]? = some t ∧ t.cancelled = true ∧ t.yielded = [.delta "a"] ∧
      t.recorded = [.delta "a", .done] ∧ s.Owns 0 pullRequest.id ∧ s.inFlight = [] :=
    ⟨_, _, rfl, rfl, rfl, rfl, rfl, owns_of_single rfl rfl, rfl⟩
  obtain ⟨s, t, hrun, ht, hc, hyielded, hrecorded, howns, hdone⟩ := hex
  have hheard : signals 0 cancelledRun <+:
      Answer.signals ⟨.status 200, [shortBody], .ends⟩ := ⟨[.body .ends], rfl⟩
  exact ⟨s, t, hrun, ht, hc, hyielded, hrecorded, written_ahead reliable_memoryStore trivial hrun ht
    howns rfl hheard (by simp [cancelledRun, deltaRun]) (by simp [hdone])⟩

/-- A body with one delta, which breaks. -/
def brokenAnswer : Answer :=
  ⟨.status 200, [bodyBytes [((Ndjson.messageTree "a").write, .newline)]], .breaks "reset"⟩

def brokenRun : List StreamAction :=
  [.start pullRequest, .respond 0 (.status 200), .lookUp 0, .mark 0, .write 0,
    .receive 0 (.chunk (bodyBytes [((Ndjson.messageTree "a").write, .newline)])), .record 0,
    .write 0, .send 0, .read 0, .receive 0 (.breaks "reset"), .record 0, .send 0, .read 0]

/-- The error for a body that breaks is read, and the adapter gives no such event: neither for the
body as it is, nor for the same body with a proper end. -/
theorem not_adapterEvents_of_brokenRun :
    ∃ s : StreamSystem MemoryStore, ∃ t : StreamTask,
      ({ store := {} } : StreamSystem MemoryStore).run brokenRun = some s ∧
      s.tasks[0]? = some t ∧ s.Owns 0 pullRequest.id ∧
      signals 0 brokenRun <+: brokenAnswer.signals ∧ s.inFlight = [] ∧
      t.yielded = [.delta "a", .error (.transport "reset")] ∧ t.recorded = t.yielded ∧
      ¬ t.recorded <+: brokenAnswer.adapterEvents .ndjson ∧
      ¬ t.recorded <+: ({ brokenAnswer with ending := .ends } : Answer).adapterEvents .ndjson :=
  ⟨_, _, rfl, rfl, owns_of_single rfl rfl, ⟨[], rfl⟩, rfl, rfl, rfl, by decide +kernel,
    by decide +kernel⟩

end StreamSystem
end LanInference
