/-
# A stream from its beginning to its end

A task goes through the events that its answer gives, one after the other and none twice: those
recorded and those it still holds are, together, what the bits heard so far give (`Lane.Given`). A
task that is cancelled stops somewhere among them; one that is not has, once it has finished, the
events of the whole answer.

Key definitions: `Lane.Hears`, `Lane.Cut`, `Lane.Given`, `Lane.Going`.
Key theorems: `Lane.Going.turn`, `Lane.Going.wrote`, `Lane.Run.going`, `Lane.Run.ended`.
-/
import LanInference.Proofs.Stream.Answers
import LanInference.Proofs.Stream.Mirror

namespace LanInference

/-- What a task hears that gets an answer. -/
def Answer.signals (answer : Answer) : List Signal :=
  .reply answer.reply :: answer.body.map .body

theorem body_le_of_signals {body steps : List BodyStep}
    (h : body.map Signal.body <+: steps.map Signal.body) : body <+: steps := by
  obtain ⟨begun, hbegun, hmap⟩ := List.prefix_map_iff.mp h
  have heq : body = begun := (List.map_inj_right fun _ _ => Signal.body.inj).mp hmap
  rwa [heq]

namespace Lane

/-- A task that has come to read has heard a reply and some of a body, which give these events. -/
def Hears (l : Lane) (format : WireFormat) (heard : List Signal) (es : List Event) (last : Bool) :
    Prop :=
  ∃ reply body, heard = .reply reply :: body.map .body ∧
    Gives format reply body l.task.adapter es last ∧ l.marked = reply.isSuccess

/-- A task with nothing left to give. -/
structure Over (l : Lane) (format : WireFormat) (heard : List Signal) : Prop where
  hears : ∃ last, l.Hears format heard l.task.recorded last
  finished : Finished l.task.recorded
  owed_eq : l.owed = []
  handed_eq : l.handed = l.task.recorded

/-- A task that stops, if not before it reads, then somewhere among the events given. -/
def Cut (l : Lane) (format : WireFormat) (heard : List Signal) : Prop :=
  l.task.recorded = [] ∨ ∃ reply body a es last, heard = .reply reply :: body.map .body ∧
    Gives format reply body a es last ∧ l.task.recorded <+: es

/-- What has been heard, where a task stands. -/
def Given (l : Lane) (format : WireFormat) (heard : List Signal) : Stage → Prop
  | .requesting => heard = [] ∧ l.task.adapter = { format } ∧ l.task.recorded = []
  | .lookingUp | .marking _ | .opening => ∃ code, isSuccessCode code = true ∧
      heard = [.reply (.status code)] ∧ l.task.adapter = { format } ∧ l.task.recorded = []
  | .reading => l.Hears format heard l.task.recorded false ∧ l.task.adapter.finished = false
  | .recording e rest last => l.Hears format heard (l.task.recorded ++ e :: rest) last
  | .writing _ rest last | .sending _ rest last =>
    l.Hears format heard (l.task.recorded ++ rest) last
  | .closing | .finished =>
    l.Cut format heard ∧ (l.task.cancelled = false → l.Over format heard)

/-- What holds of a lane by what it has heard. A reader that has gone has cancelled it. -/
structure Going (format : WireFormat) (heard : List Signal) (l : Lane) : Prop where
  dropped_eq : l.task.cancelled = false → l.task.dropped = false
  given : l.Given format heard l.task.stage

variable {prior : Option String} {format : WireFormat} {heard : List Signal} {l l' : Lane}

theorem Hears.any_finished {es : List Event} {last : Bool} (h : l.Hears format heard es last)
    (hany : es.any Event.isTerminal = true) : Finished es := by
  obtain ⟨reply, body, _, hg, _⟩ := h
  exact hg.finished_of_any hany

theorem Hears.finished_of_last {es : List Event} (h : l.Hears format heard es true) :
    Finished es := by
  obtain ⟨reply, body, _, hg, _⟩ := h
  exact hg.finished_of_last rfl

theorem Hears.adapter_finished {es : List Event} (h : l.Hears format heard es false) :
    l.task.adapter.finished = es.any Event.isTerminal := by
  obtain ⟨reply, body, _, hg, _⟩ := h
  exact hg.open_finished.1

/-- One more bit of the body. -/
theorem Hears.body {es more : List Event} {step : BodyStep} {last : Bool}
    (h : l.Hears format heard es false) (hm : l'.marked = l.marked)
    (hg : ∀ reply body, Gives format reply body l.task.adapter es false →
      Gives format reply (body ++ [step]) l'.task.adapter (es ++ more) last) :
    l'.Hears format (heard ++ [.body step]) (es ++ more) last := by
  obtain ⟨reply, body, hheard, hgives, hmarked⟩ := h
  exact ⟨reply, body ++ [step], by simp [hheard], hg reply body hgives, hm.trans hmarked⟩

theorem Hears.same {es : List Event} {last : Bool} (h : l.Hears format heard es last)
    (ha : l'.task.adapter = l.task.adapter) (hm : l'.marked = l.marked) :
    l'.Hears format heard es last := by
  obtain ⟨reply, body, hheard, hgives, hmarked⟩ := h
  exact ⟨reply, body, hheard, ha ▸ hgives, hm.trans hmarked⟩

theorem Hears.cut {es more : List Event} {last : Bool}
    (h : l.Hears format heard (es ++ more) last) (hr : l.task.recorded = es) :
    l.Cut format heard := by
  obtain ⟨reply, body, hheard, hgives, _⟩ := h
  exact .inr ⟨reply, body, l.task.adapter, es ++ more, last, hheard, hgives,
    hr ▸ List.prefix_append es more⟩

theorem Cut.same (h : l.Cut format heard) (hr : l'.task.recorded = l.task.recorded) :
    l'.Cut format heard := by
  unfold Cut
  rwa [hr]

/-- Wherever a task stands, it can stop there. -/
theorem Given.cut {s : Stage} (h : l.Given format heard s) : l.Cut format heard := by
  cases s with
  | requesting => exact .inl h.2.2
  | lookingUp | marking | opening =>
    obtain ⟨_, _, _, _, hr⟩ := h
    exact .inl hr
  | reading =>
    have hhears := h.1
    rw [← List.append_nil l.task.recorded] at hhears
    exact hhears.cut rfl
  | recording | writing | sending => exact Hears.cut h rfl
  | closing | finished => exact h.1

/-- A task that goes on to give these events. -/
theorem Given.giving {es : List Event} {last : Bool}
    (h : l.Hears format heard (l.task.recorded ++ es) last) (hl : l.Live)
    (hd : l.task.cancelled = false → l.task.dropped = false) :
    l.Given format heard (.giving es last) := by
  cases es with
  | cons e rest => exact h
  | nil =>
    have hcut := h.cut rfl
    rw [List.append_nil] at h
    cases last with
    | true =>
      exact ⟨hcut, fun hc => ⟨⟨true, h⟩, h.finished_of_last, hl.owed_eq, hl.sent.2 (hd hc)⟩⟩
    | false => exact ⟨h, h.adapter_finished.trans hl.not_terminal⟩

theorem going_start (r : StreamRequest) (prior : Option String) :
    (start r prior).Going r.format [] := ⟨fun _ => rfl, rfl, rfl, rfl⟩

/-- What has been heard does not depend on the reader's side of the channel. -/
theorem Given.same {s : Stage} (h : l.Given format heard s)
    (ha : l'.task.adapter = l.task.adapter) (hr : l'.task.recorded = l.task.recorded)
    (ho : l'.owed = l.owed) (hm : l'.marked = l.marked)
    (hh : l'.task.cancelled = false → l.task.cancelled = false ∧ l'.handed = l.handed) :
    l'.Given format heard s := by
  cases s with
  | requesting | lookingUp | marking | opening => simpa only [Given, ha, hr] using h
  | reading =>
    obtain ⟨hhears, hf⟩ := h
    exact ⟨hr ▸ hhears.same ha hm, ha ▸ hf⟩
  | recording | writing | sending =>
    rw [Given, hr]
    exact Hears.same h ha hm
  | closing | finished =>
    refine ⟨h.1.same hr, fun hc => ?_⟩
    obtain ⟨hc', hsame⟩ := hh hc
    obtain ⟨⟨last, hhears⟩, hf, howed, hhanded⟩ := h.2 hc'
    refine ⟨⟨last, ?_⟩, ?_, ho.trans howed, ?_⟩
    · rw [hr]
      exact hhears.same ha hm
    · rw [hr]
      exact hf
    · rw [hr, hsame, hhanded]

/-- An event is recorded: it is one of those that were given. -/
theorem Going.record (hg : Going format heard l) {e : Event} {rest : List Event} {last : Bool}
    (h : l.task.stage = .recording e rest last) :
    Going format heard
      (l.turned (l.task.afterRecord e rest last) (l.task.session.record e).2) := by
  unfold StreamTask.afterRecord
  have hgiven := hg.given
  rw [h] at hgiven
  refine ⟨hg.dropped_eq, ?_⟩
  have hrecorded : l.task.recorded ++ e :: rest = l.task.recorded ++ [e] ++ rest := by simp
  rw [Given, hrecorded] at hgiven
  cases (l.task.session.record e).2 with
  | some op => exact Hears.same hgiven rfl (marked_turned (by simp))
  | none => exact Hears.same hgiven rfl (marked_turned (by simp))

/-- An event is handed over. After a terminal one there is nothing left to give. -/
theorem Going.send (hg : Going format heard l) (hk : l.Kept prior) {e : Event}
    {rest : List Event} {last : Bool} (h : l.task.stage = .sending e rest last)
    (hd : l.task.dropped = false) :
    Going format heard (l.turned (l.task.afterSend e rest last) none) := by
  unfold StreamTask.afterSend
  have hgiven := hg.given
  have hstage := hk.stage_kept
  rw [h] at hgiven hstage
  obtain ⟨ho, hm, init, hl⟩ := hstage
  have hnew : ∀ {t : StreamTask}, t.yielded ++ t.channel = l.handed ++ [e] →
      (l.turned t none).handed = l.task.recorded := fun h => hl.handed_eq hd h
  have howed := owed_turned_none ho
  refine ⟨hg.dropped_eq, ?_⟩
  cases he : e.isTerminal with
  | true =>
    have hany : (l.task.recorded ++ rest).any Event.isTerminal = true := by
      simp [hl.recorded_eq, he]
    have hfinished := Hears.any_finished hgiven hany
    have hrest : rest = [] := by
      rw [hl.recorded_eq, List.append_assoc] at hfinished
      exact hfinished.eq_nil_of_terminal he
    have hcut := hgiven.cut
    rw [Given, hrest, List.append_nil] at hgiven
    rw [hrest, List.append_nil] at hfinished
    exact ⟨hcut.same rfl, fun _ => ⟨⟨last, Hears.same hgiven rfl (marked_turned (by simp))⟩,
      hfinished, howed _, hnew (List.append_assoc _ _ _).symm⟩⟩
  | false =>
    have hmarked := marked_of_not_terminal hm he
    have hopen : l.task.recorded.any Event.isTerminal = false := by
      simp [hl.recorded_eq, hl.not_terminal, he]
    have hlive : (l.turned { l.task with
        channel := l.task.channel ++ [e]
        stage := .giving rest last } none).Live := by
      refine ⟨howed _, hopen, ?_⟩
      rw [Sent, hnew (List.append_assoc _ _ _).symm]
      exact ⟨List.prefix_refl _, fun _ => rfl⟩
    exact Given.giving (Hears.same hgiven rfl (marked_turned fun _ => hmarked)) hlive hg.dropped_eq

/-- The request turns out without a success: the error is all there is to give. -/
theorem Going.fail (hg : Going format heard l) (hk : l.Kept prior)
    (h : l.task.stage = .requesting) {reply : Reply} {err : StreamError}
    (hgives : Gives format reply [] { format } [.error err] true)
    (hfail : reply.isSuccess = false) :
    Going format (heard ++ [.reply reply])
      (l.turned { l.task with stage := .recording (.error err) [] true } none) := by
  have hgiven := hg.given
  have hstage := hk.stage_kept
  rw [h] at hgiven hstage
  obtain ⟨rfl, ha, hr⟩ := hgiven
  refine ⟨hg.dropped_eq, reply, [], rfl, ?_, ?_⟩
  · simp only [turned, ha, hr]
    exact hgives
  · rw [marked_turned (by simp), hstage.marked_eq, hfail]

/-- The body goes on or ends: these events are to give. -/
theorem Going.give (hg : Going format heard l) (hk : l.Kept prior) (h : l.task.stage = .reading)
    {step : BodyStep} {a : Adapter} {es : List Event} {last : Bool}
    (hgives : ∀ reply body, l.task.adapter.finished = false →
      Gives format reply body l.task.adapter l.task.recorded false →
        Gives format reply (body ++ [step]) a (l.task.recorded ++ es) last) :
    Going format (heard ++ [.body step])
      (l.turned { l.task with adapter := a, stage := .giving es last } none) := by
  have hgiven := hg.given
  have hstage := hk.stage_kept
  rw [h] at hgiven hstage
  obtain ⟨hhears, hopen⟩ := hgiven
  obtain ⟨hlive, hmarked⟩ := hstage
  have hnew : (l.turned { l.task with adapter := a, stage := .giving es last } none).Hears format
      (heard ++ [.body step]) (l.task.recorded ++ es) last :=
    hhears.body (marked_turned fun _ => hmarked) fun reply body => hgives reply body hopen
  exact ⟨hg.dropped_eq,
    Given.giving hnew (hlive.same (same_turned rfl rfl rfl rfl)) hg.dropped_eq⟩

theorem Going.turn (hg : Going format heard l) (hk : l.Kept prior) {signal : Option Signal}
    {t : StreamTask} {op : Option StoreOp}
    (h : StreamTask.Turn l.entry.isSome signal l.task t op) :
    Going format (heard ++ signal.toList) (l.turned t op) := by
  have hd := hg.dropped_eq
  have hgiven := hg.given
  have hstage := hk.stage_kept
  have hread : l.task.stage = .reading → l.marked = true := fun h => by
    rw [h] at hstage
    exact hstage.2
  cases h with
  | unsent reason h => exact hg.fail hk h (.unsent reason) rfl
  | refused code h hcode => exact hg.fail hk h (.refused code hcode) hcode
  | accepted code h hcode =>
    rw [h] at hgiven
    obtain ⟨rfl, ha, hr⟩ := hgiven
    exact ⟨hd, code, hcode, rfl, ha, hr⟩
  | found h =>
    rw [h] at hgiven
    rw [Option.toList_none, List.append_nil]
    exact ⟨hd, hgiven⟩
  | mark h =>
    rw [h] at hgiven
    rw [Option.toList_none, List.append_nil]
    exact ⟨hd, hgiven⟩
  | marked h =>
    rw [h] at hgiven
    obtain ⟨code, hcode, rfl, ha, hr⟩ := hgiven
    refine ⟨hd, ⟨.status code, [], rfl, ?_, by simp [turned, Reply.isSuccess, hcode]⟩, ?_⟩
    · simp only [turned, ha, hr]
      exact .accepted code hcode
    · simp only [turned, ha]
  | chunk bytes h => exact hg.give hk h fun _ _ hopen hgives => hgives.chunk bytes hopen
  | ends h => exact hg.give hk h fun _ _ hopen hgives => hgives.ends hopen
  | breaks reason h =>
    rw [h] at hgiven
    refine ⟨hd, hgiven.1.body (marked_turned (by simp)) ?_⟩
    exact fun reply body hgives => hgives.breaks reason hgiven.2
  | record h =>
    rw [Option.toList_none, List.append_nil]
    exact hg.record h
  | send h hroom _ =>
    rw [Option.toList_none, List.append_nil]
    exact hg.send hk h hroom
  | leave h hdropped =>
    rw [Option.toList_none, List.append_nil]
    refine ⟨hd, hgiven.cut.same rfl, fun hc => ?_⟩
    rw [hd hc] at hdropped
    cases hdropped
  | stop hcancel =>
    rw [Option.toList_none, List.append_nil]
    exact ⟨hd, hgiven.cut.same rfl, fun hc => Bool.noConfusion (hcancel.symm.trans hc)⟩
  | finish h =>
    rw [h] at hgiven
    have hover : (l.turned { l.task with stage := .finished } none).Given format heard .closing :=
      hgiven.same rfl rfl (List.append_nil _) (marked_turned (by simp)) fun hc => ⟨hc, rfl⟩
    rw [Option.toList_none, List.append_nil]
    exact ⟨hd, hover⟩
  | take _ h =>
    rw [Option.toList_none, List.append_nil]
    refine ⟨hd, hgiven.same rfl rfl (List.append_nil _) (marked_turned hread) fun hc => ⟨hc, ?_⟩⟩
    simp [handed, turned, h]
  | wait =>
    rw [Option.toList_none, List.append_nil]
    exact ⟨hd, hgiven.same rfl rfl (List.append_nil _) (marked_turned hread) fun hc => ⟨hc, rfl⟩⟩
  | cancel | drop =>
    rw [Option.toList_none, List.append_nil]
    exact ⟨by simp [turned, StreamTask.cancel, StreamTask.drop],
      hgiven.same rfl rfl (List.append_nil _) (marked_turned hread) (by
        simp [turned, StreamTask.cancel, StreamTask.drop])⟩

theorem Going.wrote (hg : Going format heard l) (hk : l.Kept prior) {op : StoreOp}
    {owed : List StoreOp} (h : l.owed = op :: owed) : Going format heard (l.wrote op owed) := by
  have hgiven := hg.given
  have hstage := hk.stage_kept
  have howed : l.owed ≠ [] := by simp [h]
  refine ⟨hg.dropped_eq, ?_⟩
  simp only [Lane.wrote, StreamTask.written]
  rcases hstage.owing howed with hs | ⟨e, rest, last, hs⟩ | hs | hs
  · rw [hs] at hgiven ⊢
    obtain ⟨code, hcode, rfl, ha, hr⟩ := hgiven
    refine ⟨⟨.status code, [], rfl, ?_, hcode.symm⟩, ?_⟩
    · rw [ha, hr]
      exact .accepted code hcode
    · rw [ha]
  · rw [hs] at hgiven hstage ⊢
    exact Hears.same hgiven rfl hstage.2.1.symm
  · rw [hs] at hgiven ⊢
    exact ⟨hgiven.1.same rfl, fun hc => absurd (hgiven.2 hc).owed_eq howed⟩
  · rw [hs] at hgiven ⊢
    exact ⟨hgiven.1.same rfl, fun hc => absurd (hgiven.2 hc).owed_eq howed⟩

/-- **A lane goes through what it hears.** -/
theorem Run.going {r : StreamRequest} (h : Run r prior heard l) : Going r.format heard l := by
  induction h with
  | start => exact going_start r prior
  | move hrun hm ih =>
    cases hm with
    | turn h => exact ih.turn hrun.kept h
    | written h =>
      rw [Option.toList_none, List.append_nil]
      exact ih.wrote hrun.kept h
    | pause =>
      rw [Option.toList_none, List.append_nil]
      exact ih

/-- A session that was never marked has written nothing. -/
theorem Run.done_eq {r : StreamRequest} (h : Run r prior heard l) (hm : l.marked = false) :
    l.done = [] := by
  induction h with
  | start => rfl
  | move _ hmove ih =>
    cases hmove with
    | turn => exact ih (Bool.or_eq_false_iff.mp hm).1
    | written => cases hm
    | pause => exact ih hm

/-- A session keeps its id and format. -/
theorem Run.session_eq {r : StreamRequest} (h : Run r prior heard l) :
    l.task.session.id = r.id ∧ l.task.session.format = r.format := by
  induction h with
  | start => exact ⟨rfl, rfl⟩
  | move _ hmove ih =>
    cases hmove with
    | turn h => exact ⟨h.session_eq.1.trans ih.1, h.session_eq.2.trans ih.2⟩
    | written => exact ih
    | pause => exact ih

end Lane

namespace StreamTask

/-- A reader that was not cancelled finds the end once the task has finished and all is read. -/
theorem poll_eq_ended_iff {t : StreamTask} (hc : t.cancelled = false) :
    t.poll = .ended ↔ t.channel = [] ∧ t.stage = .finished := by
  unfold poll
  rw [if_neg (by simp [hc])]
  cases t.channel with
  | cons e es => simp
  | nil => by_cases hs : t.stage = .finished <;> simp [hs]

end StreamTask

namespace Lane

variable {prior : Option String} {heard : List Signal} {l : Lane} {r : StreamRequest}
  {answer : Answer}

/-- **What the reader has got at the end.** The events of the whole answer, of which the last and no
other is terminal; the entry is what they leave. -/
theorem Run.ended (h : Run r prior heard l) (hc : l.task.cancelled = false)
    (hend : l.task.poll = .ended) (hheard : heard <+: answer.signals) :
    l.task.yielded = answer.events r.format ∧ Finished l.task.yielded ∧ l.owed = [] ∧
      l.marked = answer.reply.isSuccess ∧ l.entry = mirrored (l.base prior) l.task.yielded := by
  obtain ⟨hchannel, hstage⟩ := (StreamTask.poll_eq_ended_iff hc).mp hend
  have hgiven := h.going.given
  rw [hstage] at hgiven
  obtain ⟨⟨last, reply, body, rfl, hgives, hmarked⟩, hfinished, howed, hhanded⟩ := hgiven.2 hc
  have hyielded : l.task.yielded = l.task.recorded := by
    rw [← hhanded, handed, hchannel, List.append_nil]
  obtain ⟨hreply, hbody⟩ := List.cons_prefix_cons.mp hheard
  have hr : reply = answer.reply := Signal.reply.inj hreply
  subst hr
  have hentry := h.kept.entry_eq
  rw [persisted, if_pos howed] at hentry
  rw [hyielded]
  exact ⟨hgives.events_eq (body_le_of_signals hbody) hfinished, hfinished, howed, hmarked, hentry⟩

end Lane
end LanInference
