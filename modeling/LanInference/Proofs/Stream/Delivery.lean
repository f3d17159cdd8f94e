/-
# The reader gets what the server sent

A stream that nobody cancels, over a reliable store: from every point of every run something can
happen that brings the stream closer to its end, so a reader that reads on gets there; and at the
end it has got the events of the whole answer, and the store holds what they leave.

Key definitions: `Stage.work`, `StreamSystem.Ingesting`, `StreamSystem.Advances`,
`StreamSystem.Delivered`.
Key theorems: `StreamSystem.Ingesting.advances`, `StreamSystem.Ingesting.exists_end`,
`StreamSystem.Ingesting.delivered_of_ended`, `StreamSystem.delivered`.
-/
import LanInference.Proofs.Stream.Ingestion
import LanInference.Proofs.Stream.Recoverability

namespace LanInference

/-- The moves that a task has before it, as long as it hears nothing more: four for each event that
it holds, one of them the reader's. -/
def Stage.work : Stage → Nat
  | .requesting | .reading | .finished => 0
  | .lookingUp => 3
  | .marking _ => 2
  | .opening | .closing => 1
  | .recording _ rest _ => 4 * rest.length + 7
  | .writing _ rest _ => 4 * rest.length + 6
  | .sending _ rest _ => 4 * rest.length + 5

/-- The moves of a task and its reader. -/
def StreamTask.work (t : StreamTask) : Nat := t.stage.work + t.channel.length

theorem Stage.work_giving_le (es : List Event) (last : Bool) :
    (Stage.giving es last).work ≤ 4 * es.length + 3 := by
  cases es with
  | nil => cases last <;> simp [giving, work]
  | cons e rest =>
    simp only [giving, work, List.length_cons]
    omega

namespace StreamSystem

variable {σ : Type} [RecoveryStore σ] {good : σ → Prop} {store : σ} {answer : Answer} {n : Nat}
  {id : SessionId} {as : List StreamAction} {s s' : StreamSystem σ} {t t' : StreamTask}

/-- A run in which a stream hears its answer and nobody has cancelled it. -/
structure Ingesting (store : σ) (answer : Answer) (n : Nat) (id : SessionId)
    (as : List StreamAction) (s : StreamSystem σ) (t : StreamTask) : Prop where
  run_eq : ({ store } : StreamSystem σ).run as = some s
  task_eq : s.tasks[n]? = some t
  owns : s.Owns n id
  uncancelled : t.cancelled = false
  heard : signals n as <+: answer.signals

/-- Something can happen next to a stream that brings it closer to its end: it hears more of its
answer, or there is less left to do. -/
def Advances (answer : Answer) (n : Nat) (heard : List Signal) (s : StreamSystem σ)
    (t : StreamTask) : Prop :=
  ∃ a s' t', s.step a = some s' ∧ (∀ r, a ≠ .start r) ∧ s'.tasks[n]? = some t' ∧
    t'.cancelled = false ∧
    ((∃ x, a.signal? n = some x ∧ heard ++ [x] <+: answer.signals) ∨
      (a.signal? n = none ∧ t'.work < t.work))

omit [RecoveryStore σ] in
theorem move_eq {f : StreamTask → Option StreamTask} (ht : s.tasks[n]? = some t)
    (hf : f t = some t') : s.move n f = some (s.setTask n t') := by
  simp [move, ht, hf]

omit [RecoveryStore σ] in
theorem tasks_setTask (ht : s.tasks[n]? = some t) : (s.setTask n t').tasks[n]? = some t' := by
  have hlen := (List.getElem?_eq_some_iff.mp ht).1
  simp [setTask, hlen]

theorem advances_of_move {heard : List Signal} {a : StreamAction}
    {f : StreamTask → Option StreamTask} (ht : s.tasks[n]? = some t)
    (ha : s.step a = s.move n f) (hs : ∀ r, a ≠ .start r) (hf : f t = some t')
    (hc : t'.cancelled = false)
    (hless : (∃ x, a.signal? n = some x ∧ heard ++ [x] <+: answer.signals) ∨
      (a.signal? n = none ∧ t'.work < t.work)) : s.Advances answer n heard t :=
  ⟨a, s.setTask n t', t', ha.trans (move_eq ht hf), hs, tasks_setTask ht, hc, hless⟩

theorem advances_of_moveWriting {heard : List Signal} {a : StreamAction}
    {f : StreamTask → Option (StreamTask × Option StoreOp)} {op : Option StoreOp}
    (ht : s.tasks[n]? = some t) (ha : s.step a = s.moveWriting n f) (hs : ∀ r, a ≠ .start r)
    (hf : f t = some (t', op)) (hc : t'.cancelled = false) (hq : a.signal? n = none)
    (hless : t'.work < t.work) : s.Advances answer n heard t := by
  have hstep : ∃ s', s.moveWriting n f = some s' ∧ s'.tasks = (s.setTask n t').tasks := by
    simp [moveWriting, ht, hf]
  obtain ⟨s', hs', htasks⟩ := hstep
  exact ⟨a, s', t', ha.trans hs', hs, htasks ▸ tasks_setTask ht, hc, .inr ⟨hq, hless⟩⟩

/-- A write that is owed can be done. -/
theorem advances_of_owed {heard : List Signal} {l : Lane} (hl : s.Shows n l) (ht : l.task = t)
    (ho : l.owed ≠ []) (hc : t.cancelled = false) (hless : t.written.work < t.work) :
    s.Advances answer n heard t := by
  have hfind : ∃ w, s.inFlight.find? (·.1 = n) = some w := by
    rw [← hl.owed_eq] at ho
    rw [← List.head?_filter]
    cases hf : s.inFlight.filter (·.1 = n) with
    | nil => simp [hf] at ho
    | cons w ws => exact ⟨w, rfl⟩
  obtain ⟨w, hw⟩ := hfind
  have htask : s.tasks[n]? = some t := ht ▸ hl.task_eq
  have hstep : ∃ s', s.step (.write n) = some s' ∧
      s'.tasks = s.tasks.modify n StreamTask.written := by
    simp [step, write, hw]
  obtain ⟨s', hs', htasks⟩ := hstep
  exact ⟨.write n, s', t.written, hs', by simp, by simp [htasks, htask], hc, .inr ⟨rfl, hless⟩⟩

/-- The task closes: it leaves the registry. -/
theorem advances_of_closing {heard : List Signal} (ht : s.tasks[n]? = some t)
    (hs : t.stage = .closing) (hc : t.cancelled = false) : s.Advances answer n heard t := by
  have hf : t.finish = some { t with stage := .finished } := by simp [StreamTask.finish, hs]
  have hstep : ∃ s', s.step (.finish n) = some s' ∧
      s'.tasks = (s.setTask n { t with stage := .finished }).tasks := by
    simp [step, move, ht, hf]
  obtain ⟨s', hs', htasks⟩ := hstep
  refine ⟨.finish n, s', { t with stage := .finished }, hs', by simp, htasks ▸ tasks_setTask ht, hc,
    .inr ⟨rfl, ?_⟩⟩
  simp [StreamTask.work, Stage.work, hs]

/-- The reader takes an event that is there. -/
theorem advances_of_channel {heard : List Signal} {e : Event} {es : List Event}
    (ht : s.tasks[n]? = some t) (hch : t.channel = e :: es) (hc : t.cancelled = false) :
    s.Advances answer n heard t := by
  have hread : t.read = { t with channel := es, yielded := t.yielded ++ [e] } := by
    simp [StreamTask.read, StreamTask.poll, hc, hch]
  refine advances_of_move (a := .read n) ht rfl (by simp) (congrArg some hread) hc (.inr ⟨rfl, ?_⟩)
  simp [StreamTask.work, hch]

theorem advances_of_marking {heard : List Signal} {found : Bool} (ht : s.tasks[n]? = some t)
    (hs : t.stage = .marking found) (hc : t.cancelled = false) : s.Advances answer n heard t := by
  cases found with
  | true =>
    have hf : t.mark = some ({ t with stage := .reading }, none) := by
      simp [StreamTask.mark, hs, Session.openEntry]
    apply advances_of_moveWriting (a := .mark n) ht rfl (by simp) hf hc rfl
    simp [StreamTask.work, Stage.work, hs]
  | false =>
    have hf : t.mark = some ({ t with stage := .opening }, some t.session.save) := by
      simp [StreamTask.mark, hs, Session.openEntry]
    apply advances_of_moveWriting (a := .mark n) ht rfl (by simp) hf hc rfl
    simp [StreamTask.work, Stage.work, hs]

theorem advances_of_recording {heard : List Signal} {e : Event} {rest : List Event} {last : Bool}
    (ht : s.tasks[n]? = some t) (hs : t.stage = .recording e rest last)
    (hc : t.cancelled = false) : s.Advances answer n heard t := by
  have hf : t.record = some (t.afterRecord e rest last, (t.session.record e).2) := by
    simp [StreamTask.record, hs, StreamTask.afterRecord]
  apply advances_of_moveWriting (a := .record n) ht rfl (by simp) hf hc rfl
  simp only [StreamTask.work, StreamTask.afterRecord, hs]
  split <;> simp [Stage.work]

/-- An event is handed over if there is room for it. If there is none, the reader makes some. -/
theorem advances_of_sending {heard : List Signal} {e : Event} {rest : List Event} {last : Bool}
    (ht : s.tasks[n]? = some t) (hs : t.stage = .sending e rest last) (hd : t.dropped = false)
    (hc : t.cancelled = false) : s.Advances answer n heard t := by
  by_cases hroom : t.channel.length < StreamTask.capacity
  · have hf : t.send = some (t.afterSend e rest last) := by
      simp [StreamTask.send, hs, hd, hroom, StreamTask.afterSend]
    refine advances_of_move (a := .send n) ht rfl (by simp) hf hc (.inr ⟨rfl, ?_⟩)
    have hgiving := Stage.work_giving_le rest last
    have hsending : (Stage.sending e rest last).work = 4 * rest.length + 5 := rfl
    have hclosing : Stage.closing.work = 1 := rfl
    simp only [StreamTask.work, StreamTask.afterSend, hs, List.length_append,
      List.length_singleton]
    split <;> omega
  · cases hch : t.channel with
    | nil => exact absurd (by simp [hch, StreamTask.capacity]) hroom
    | cons e es => exact advances_of_channel ht hch hc

/-- A body that is not over has more to come. -/
theorem exists_next {l : Lane} {format : WireFormat} {heard : List Signal} {es : List Event}
    (h : l.Hears format heard es false) (hheard : heard <+: answer.signals) :
    ∃ b, heard ++ [.body b] <+: answer.signals := by
  obtain ⟨reply, body, rfl, hgives, _⟩ := h
  obtain ⟨_, chunks, rfl, _⟩ := hgives.open_eq rfl
  obtain ⟨hreply, hbody⟩ := List.cons_prefix_cons.mp hheard
  have hpre := body_le_of_signals hbody
  rw [← List.append_nil (chunks.map BodyStep.chunk)] at hpre
  obtain ⟨more, hm, _⟩ := exists_more_chunks hpre
  cases more with
  | nil => exact ⟨answer.ending.step, [], by simp [Answer.signals, Answer.body, hm, hreply]⟩
  | cons c more =>
    exact ⟨.chunk c, (more.map BodyStep.chunk ++ [answer.ending.step]).map Signal.body,
      by simp [Answer.signals, Answer.body, hm, hreply]⟩

/-- **A stream that is not at its end can go on.** -/
theorem Ingesting.advances (hrel : Reliable good) (hstore : good store)
    (h : Ingesting store answer n id as s t) (hend : t.poll ≠ .ended) :
    s.Advances answer n (signals n as) t := by
  obtain ⟨r, l, hl, rfl, hrun⟩ := run_lane hrel hstore h.run_eq h.owns h.task_eq
  have hc := h.uncancelled
  have ht := hl.task_eq
  have hgiven := hrun.going.given
  have hstage := hrun.kept.stage_kept
  cases hs : l.task.stage with
  | requesting =>
    rw [hs] at hgiven
    have hf : ∃ t', l.task.respond answer.reply = some t' ∧ t'.cancelled = false := by
      simp [StreamTask.respond, hs, hc]
    obtain ⟨t', ht', hc'⟩ := hf
    refine advances_of_move (a := .respond n answer.reply) ht rfl (by simp) ht' hc'
      (.inl ⟨.reply answer.reply, if_pos rfl, ?_⟩)
    rw [hgiven.1]
    exact ⟨_, rfl⟩
  | lookingUp =>
    have hf : l.task.found (hasEntry s.store l.task.session.key) =
        some { l.task with stage := .marking (hasEntry s.store l.task.session.key) } := by
      simp [StreamTask.found, hs]
    refine advances_of_move (a := .lookUp n) ht rfl (by simp) hf hc (.inr ⟨rfl, ?_⟩)
    simp [StreamTask.work, Stage.work, hs]
  | marking found => exact advances_of_marking ht hs hc
  | opening =>
    rw [hs] at hstage
    have howed : l.owed ≠ [] := List.ne_nil_of_length_pos (by rw [hstage.2.2.2.1]; decide)
    apply advances_of_owed hl rfl howed hc
    simp [StreamTask.work, StreamTask.written, Stage.work, hs]
  | reading =>
    rw [hs] at hgiven
    obtain ⟨b, hb⟩ := exists_next hgiven.1 h.heard
    have hf : ∃ t', l.task.receive b = some t' ∧ t'.cancelled = false := by
      cases b <;> simp [StreamTask.receive, hs, hc]
    obtain ⟨t', ht', hc'⟩ := hf
    exact advances_of_move (a := .receive n b) ht rfl (by simp) ht' hc'
      (.inl ⟨.body b, if_pos rfl, hb⟩)
  | recording e rest last => exact advances_of_recording ht hs hc
  | writing e rest last =>
    rw [hs] at hstage
    have howed : l.owed ≠ [] := List.ne_nil_of_length_pos (by rw [hstage.1]; decide)
    apply advances_of_owed hl rfl howed hc
    simp [StreamTask.work, StreamTask.written, Stage.work, hs]
  | sending e rest last => exact advances_of_sending ht hs (hrun.going.dropped_eq hc) hc
  | closing => exact advances_of_closing ht hs hc
  | finished =>
    cases hch : l.task.channel with
    | nil => exact absurd ((StreamTask.poll_eq_ended_iff hc).mpr ⟨hch, hs⟩) hend
    | cons e es => exact advances_of_channel ht hch hc

/-- The stream goes on by an action that opens no other. -/
theorem Ingesting.next (h : Ingesting store answer n id as s t) {a : StreamAction}
    (hstep : s.step a = some s') (ha : ∀ r, a ≠ .start r) (ht : s'.tasks[n]? = some t')
    (hc : t'.cancelled = false) (hheard : signals n (as ++ [a]) <+: answer.signals) :
    Ingesting store answer n id (as ++ [a]) s' t' := by
  have hchange := change_of_step hstep
  have hrun : ({ store } : StreamSystem σ).run (as ++ [a]) = some s' := by
    rw [run_concat, h.run_eq, Option.bind_some, hstep]
  exact ⟨hrun, ht, hchange.owns_of_length (hchange.length_eq ha) h.owns, hc, hheard⟩

/-- **The end can be reached from everywhere.** -/
theorem Ingesting.exists_end (hrel : Reliable good) (hstore : good store)
    {as : List StreamAction} {s : StreamSystem σ} {t : StreamTask}
    (h : Ingesting store answer n id as s t) :
    ∃ more s' t', Ingesting store answer n id (as ++ more) s' t' ∧ t'.poll = .ended := by
  by_cases hend : t.poll = .ended
  · exact ⟨[], s, t, (List.append_nil as).symm ▸ h, hend⟩
  obtain ⟨a, s', t', hstep, ha, ht, hc, hless⟩ := h.advances hrel hstore hend
  have hheard : signals n (as ++ [a]) <+: answer.signals := by
    rw [signals_concat]
    rcases hless with ⟨x, hx, hpre⟩ | ⟨hx, _⟩
    · rwa [hx]
    · rw [hx, Option.toList_none, List.append_nil]
      exact h.heard
  obtain ⟨more, s'', t'', hmore, hend'⟩ :=
    (h.next hstep ha ht hc hheard).exists_end hrel hstore
  exact ⟨a :: more, s'', t'', List.append_cons as a more ▸ hmore, hend'⟩
-- Either more of the answer is heard, or as much of it and there is less to do.
termination_by (answer.signals.length - (signals n as).length, t.work)
decreasing_by
  rcases hless with ⟨x, hx, _⟩ | ⟨hx, hwork⟩
  · have hlen := hheard.length_le
    rw [signals_concat, hx, Option.toList_some, List.length_append, List.length_singleton] at *
    exact .left _ _ (by omega)
  · rw [signals_concat, hx, Option.toList_none, List.append_nil]
    exact .right _ hwork

/-! ### What has been delivered -/

/-- What the reader of a stream has got at the end, and what the stream leaves in the store: the
events of the whole answer, of which the last and no other is terminal. Without a success nothing is
written; `done` leaves no entry; else the entry is the text of the deltas, or, when there are none,
the text that was there to begin with. -/
structure Delivered (store : σ) (s : StreamSystem σ) (n : Nat) (id : SessionId) (answer : Answer)
    (t : StreamTask) : Prop where
  yielded_eq : t.yielded = answer.events t.session.format
  finished : Finished t.yielded
  unwritten : answer.reply.isSuccess = false →
    (∀ w ∈ s.inFlight, w.1 ≠ n) ∧ (∀ w ∈ s.applied, w.1 ≠ n) ∧
      RecoveryStore.get s.store id.text = RecoveryStore.get store id.text
  cleared : .done ∈ t.yielded → RecoveryStore.get s.store id.text = .ok none
  kept : answer.reply.isSuccess = true → .done ∉ t.yielded →
    RecoveryStore.get s.store id.text = .ok (some
      (if t.yielded.any Event.isDelta then deltaText t.yielded
        else (storedText store id.text).getD ""))

theorem Ingesting.delivered_of_ended (hrel : Reliable good) (hstore : good store)
    (h : Ingesting store answer n id as s t) (hend : t.poll = .ended) :
    Delivered store s n id answer t := by
  obtain ⟨r, l, hl, rfl, hrun⟩ := run_lane hrel hstore h.run_eq h.owns h.task_eq
  obtain ⟨hyielded, hfinished, howed, hmarked, hentry⟩ :=
    hrun.ended h.uncancelled hend h.heard
  have hget := hl.get_eq hrel (sound_run hrel hstore as h.run_eq).store_good h.owns
  have hformat : l.task.yielded = answer.events l.task.session.format := by
    rw [hrun.session_eq.2, hyielded]
  have hinFlight : s.inFlight.filter (·.1 = n) = [] :=
    List.map_eq_nil_iff.mp (hl.owed_eq.trans howed)
  refine ⟨hformat, hfinished, fun hfail => ⟨?_, ?_, ?_⟩, fun hdone => ?_, fun hok hdone => ?_⟩
  · intro w hw
    simpa using List.filter_eq_nil_iff.mp hinFlight w hw
  · have hdone : l.done = [] := hrun.done_eq (hmarked.trans hfail)
    have happlied : s.applied.filter (·.1 = n) = [] :=
      List.map_eq_nil_iff.mp (hl.done_eq.trans hdone)
    intro w hw
    simpa using List.filter_eq_nil_iff.mp happlied w hw
  · obtain ⟨err, herr⟩ := Answer.events_of_failure hfail l.task.session.format
    have hbase : l.base (storedText store id.text) = storedText store id.text := by
      rw [Lane.base, hmarked, hfail]
      rfl
    have hprior : l.entry = storedText store id.text := by
      calc l.entry = mirrored (storedText store id.text) l.task.yielded := by rw [hentry, hbase]
        _ = mirrored (storedText store id.text) [.error err] := by rw [hformat, herr]
        _ = storedText store id.text := rfl
    rw [hget, hprior, hrel.get_ok hstore id]
  · rw [hget, hentry, mirrored, if_pos hdone]
  · rw [hget, hentry, mirrored, if_neg hdone, Lane.base, hmarked, hok, if_pos rfl, ← apply_ite some]

/-- **A stream that nobody cancels delivers its answer.** Over a reliable store, at whatever point
of whatever run, with whatever answer: once its reader finds the end, the reader and the store have
what the answer gives; and the end can still be reached. -/
theorem delivered (hrel : Reliable good) (hstore : good store)
    (h : Ingesting store answer n id as s t) :
    (t.poll = .ended → Delivered store s n id answer t) ∧
      ∃ more s' t', Ingesting store answer n id (as ++ more) s' t' ∧ t'.poll = .ended ∧
        Delivered store s' n id answer t' := by
  obtain ⟨more, s', t', hmore, hend⟩ := h.exists_end hrel hstore
  exact ⟨h.delivered_of_ended hrel hstore, more, s', t', hmore, hend,
    hmore.delivered_of_ended hrel hstore hend⟩

/-- The stream of `deltaRun`, read to its end. -/
def wholeRun : List StreamAction :=
  deltaRun ++ [.record 0, .write 0, .send 0, .finish 0, .read 0]

/-- Its reader has got a delta and `done`. -/
theorem delivered_wholeRun :
    ∃ s : StreamSystem MemoryStore, ∃ t : StreamTask,
      Ingesting {} ⟨.status 200, [shortBody], .ends⟩ 0 pullRequest.id wholeRun s t ∧
      t.poll = .ended ∧ t.yielded = [.delta "a", .done] ∧
      Delivered {} s 0 pullRequest.id ⟨.status 200, [shortBody], .ends⟩ t := by
  have hex : ∃ s : StreamSystem MemoryStore, ∃ t : StreamTask,
      Ingesting {} ⟨.status 200, [shortBody], .ends⟩ 0 pullRequest.id wholeRun s t ∧
      t.poll = .ended ∧ t.yielded = [.delta "a", .done] :=
    ⟨_, _, ⟨rfl, rfl, owns_of_single rfl rfl, rfl, [.body .ends], rfl⟩, rfl, rfl⟩
  obtain ⟨s, t, h, hend, hyielded⟩ := hex
  exact ⟨s, t, h, hend, hyielded, (delivered reliable_memoryStore trivial h).1 hend⟩

end StreamSystem
end LanInference
