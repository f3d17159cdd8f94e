/-
# What an answer gives

A complete answer is how the request turns out, the chunks of a body, and how the body ends. A task
hears it bit by bit; what the bits heard so far give is `Gives`, one case for each bit. Whenever
they have given a terminal event, or the body is over, they have given the events of the whole
answer: what is left of it gives nothing more.

Key definitions: `BodyEnd`, `Answer`, `Answer.events`, `Gives`.
Key theorems: `Gives.finished_of_any`, `Gives.finished_of_last`, `Gives.events_eq`,
`Answer.finished_events`, `Answer.script_events_eq`.
-/
import LanInference.Proofs.Wire.Adapter
import LanInference.Stream.Answer

namespace LanInference

/-- How a body comes to its end. -/
inductive BodyEnd where
  | ends
  | breaks (reason : String)
  deriving Repr, DecidableEq

def BodyEnd.step : BodyEnd → BodyStep
  | ends => .ends
  | breaks reason => .breaks reason

theorem BodyEnd.step_inj {a b : BodyEnd} (h : a.step = b.step) : a = b := by
  cases a with
  | ends =>
    cases b with
    | ends => rfl
    | breaks reason => cases h
  | breaks reason =>
    cases b with
    | ends => cases h
    | breaks other => rw [BodyStep.breaks.inj h]

/-- A complete answer to a request. -/
structure Answer where
  reply : Reply
  chunks : List (List UInt8)
  ending : BodyEnd
  deriving Repr, DecidableEq

/-- Whether a body follows. -/
def Reply.isSuccess : Reply → Bool
  | unsent _ => false
  | status code => isSuccessCode code

namespace Answer

/-- The steps of the body. -/
def body (answer : Answer) : List BodyStep := answer.chunks.map .chunk ++ [answer.ending.step]

/-- The events of an answer. Without a success there is one error. Otherwise they are the events of
the chunks, and then, if none of them is terminal, what the end of the body adds: the adapter's last
events if it ends properly, one error if it breaks. -/
def events (format : WireFormat) (answer : Answer) : List Event :=
  match answer.reply with
  | .unsent reason => [.error (.transport reason)]
  | .status code =>
    if isSuccessCode code then
      let (adapter, events) := ({ format } : Adapter).feedAll answer.chunks
      match answer.ending with
      | .ends => events ++ adapter.finish.2
      | .breaks reason =>
        if events.any Event.isTerminal then events else events ++ [.error (.transport reason)]
    else [.error (.status code)]

/-- Without a success there is one error. -/
theorem events_of_failure {answer : Answer} (h : answer.reply.isSuccess = false)
    (format : WireFormat) : ∃ err, answer.events format = [.error err] := by
  unfold events
  cases hr : answer.reply with
  | unsent reason => exact ⟨.transport reason, rfl⟩
  | status code =>
    rw [hr] at h
    have hc : isSuccessCode code = false := h
    exact ⟨.status code, by simp [hc]⟩

end Answer

/-- What the bits of an answer heard so far give: the adapter, the events, and whether that is all
there will be. -/
inductive Gives (format : WireFormat) : Reply → List BodyStep → Adapter → List Event → Bool → Prop
  | unsent (reason : String) :
      Gives format (.unsent reason) [] { format } [.error (.transport reason)] true
  | refused (code : UInt16) (hc : isSuccessCode code = false) :
      Gives format (.status code) [] { format } [.error (.status code)] true
  | accepted (code : UInt16) (hc : isSuccessCode code = true) :
      Gives format (.status code) [] { format } [] false
  | chunk {reply : Reply} {body : List BodyStep} {a : Adapter} {es : List Event}
      (bytes : List UInt8) (h : Gives format reply body a es false) (ha : a.finished = false) :
      Gives format reply (body ++ [.chunk bytes]) (a.feed bytes).1 (es ++ (a.feed bytes).2) false
  | ends {reply : Reply} {body : List BodyStep} {a : Adapter} {es : List Event}
      (h : Gives format reply body a es false) (ha : a.finished = false) :
      Gives format reply (body ++ [.ends]) a.finish.1 (es ++ a.finish.2) true
  | breaks {reply : Reply} {body : List BodyStep} {a : Adapter} {es : List Event}
      (reason : String) (h : Gives format reply body a es false) (ha : a.finished = false) :
      Gives format reply (body ++ [.breaks reason]) a (es ++ [.error (.transport reason)]) true

namespace Adapter

theorem feedAll_append (a : Adapter) : ∀ cs ds : List (List UInt8),
    a.feedAll (cs ++ ds) =
      (((a.feedAll cs).1.feedAll ds).1, (a.feedAll cs).2 ++ ((a.feedAll cs).1.feedAll ds).2)
  | [], ds => rfl
  | c :: cs, ds => by
    simp only [List.cons_append, feedAll]
    rw [feedAll_append (a.feed c).1 cs ds, List.append_assoc]

theorem feedAll_concat (a : Adapter) (cs : List (List UInt8)) (c : List UInt8) :
    a.feedAll (cs ++ [c]) =
      (((a.feedAll cs).1.feed c).1, (a.feedAll cs).2 ++ ((a.feedAll cs).1.feed c).2) := by
  rw [feedAll_append]
  simp [feedAll]

/-- A closed adapter takes no more chunks. -/
theorem feedAll_of_finished {a : Adapter} (h : a.finished = true) :
    ∀ cs : List (List UInt8), a.feedAll cs = (a, [])
  | [] => rfl
  | c :: cs => by
    have hc : a.feed c = (a, []) := call_of_finished h (.feed c)
    simp only [feedAll, hc, feedAll_of_finished h cs, List.append_nil]

end Adapter

namespace Gives

variable {format : WireFormat} {reply : Reply} {body : List BodyStep} {a : Adapter}
  {es : List Event} {last : Bool}

/-- As long as the body goes on, it is the chunks so far. -/
theorem open_eq (h : Gives format reply body a es last) (hl : last = false) :
    reply.isSuccess = true ∧ ∃ chunks, body = chunks.map .chunk ∧
      ({ format } : Adapter).feedAll chunks = (a, es) := by
  induction h with
  | accepted code hc => exact ⟨hc, [], rfl, rfl⟩
  | @chunk reply body a es bytes _ _ ih =>
    obtain ⟨hr, chunks, hb, hf⟩ := ih rfl
    refine ⟨hr, chunks ++ [bytes], by simp [hb], ?_⟩
    rw [Adapter.feedAll_concat, hf]
  | _ => cases hl

/-- The adapter knows whether it has given a terminal event, and such an event is the last. -/
theorem open_finished (h : Gives format reply body a es false) :
    a.finished = es.any Event.isTerminal ∧ (es.any Event.isTerminal = true → Finished es) := by
  obtain ⟨_, chunks, _, hf⟩ := h.open_eq rfl
  have hread := (Adapter.read_nil format).feedAll chunks
  rw [hf] at hread
  obtain ⟨hread, hevents⟩ := hread
  have hes : es = format.eventsOf chunks.flatten := hevents.symm
  rw [hes]
  refine ⟨hread.finished_eq, fun hany => finished_throughTerminal ?_⟩
  rwa [WireFormat.eventsOf, any_throughTerminal] at hany

/-- A body that is over has given one terminal event, as the last. -/
theorem finished_of_last (h : Gives format reply body a es last) (hl : last = true) :
    Finished es := by
  cases h with
  | unsent => exact finished_singleton rfl
  | refused => exact finished_singleton rfl
  | accepted => cases hl
  | chunk => cases hl
  | @ends reply body a es h ha =>
    obtain ⟨_, chunks, _, hf⟩ := h.open_eq rfl
    have hread := (Adapter.read_nil format).feedAll chunks
    rw [hf] at hread
    obtain ⟨hread, hevents⟩ := hread
    have hes : es = format.eventsOf chunks.flatten := hevents.symm
    rw [hread.finish.1, hes]
    exact format.finished_eventsOf_append_endEvents _
  | breaks reason h ha =>
    rw [h.open_finished.1] at ha
    exact (finished_singleton rfl).append ha

theorem finished_of_any (h : Gives format reply body a es last)
    (hany : es.any Event.isTerminal = true) : Finished es := by
  cases last with
  | true => exact h.finished_of_last rfl
  | false => exact h.open_finished.2 hany

/-! ### Against the whole answer -/

end Gives

/-- Chunks that begin a body begin its chunks. -/
theorem exists_more_chunks {ending : BodyEnd} {tail : List BodyStep} :
    ∀ {cs ds : List (List UInt8)}, cs.map .chunk ++ tail <+: ds.map .chunk ++ [ending.step] →
      ∃ more, ds = cs ++ more ∧ tail <+: more.map .chunk ++ [ending.step]
  | [], ds, h => ⟨ds, rfl, h⟩
  | c :: cs, [], h => by
    simp only [List.map_cons, List.cons_append, List.map_nil, List.nil_append] at h
    have hc := (List.cons_prefix_cons.mp h).1
    cases ending <;> cases hc
  | c :: cs, d :: ds, h => by
    simp only [List.map_cons, List.cons_append] at h
    obtain ⟨hc, hrest⟩ := List.cons_prefix_cons.mp h
    obtain ⟨more, hm, ht⟩ := exists_more_chunks hrest
    exact ⟨more, by rw [BodyStep.chunk.inj hc, hm, List.cons_append], ht⟩

/-- A body that begins a body and has an end is that body. -/
theorem whole_of_ended {answer : Answer} {cs : List (List UInt8)} {e : BodyEnd}
    (h : cs.map .chunk ++ [e.step] <+: answer.body) : answer.chunks = cs ∧ answer.ending = e := by
  obtain ⟨more, hm, hstep⟩ := exists_more_chunks h
  cases more with
  | nil =>
    have heq : e.step = answer.ending.step := (List.cons_prefix_cons.mp hstep).1
    exact ⟨hm.trans (List.append_nil cs), (BodyEnd.step_inj heq).symm⟩
  | cons c more =>
    have heq : e.step = .chunk c := (List.cons_prefix_cons.mp hstep).1
    cases e <;> cases heq

namespace Gives

variable {format : WireFormat} {answer : Answer} {body : List BodyStep} {a : Adapter}
  {es : List Event} {last : Bool}

/-- The whole answer of a success, once the adapter's state after its chunks is known. -/
theorem answer_events_eq (hr : answer.reply.isSuccess = true)
    (hf : ({ format } : Adapter).feedAll answer.chunks = (a, es)) :
    answer.events format =
      match answer.ending with
      | .ends => es ++ a.finish.2
      | .breaks reason =>
        if es.any Event.isTerminal then es else es ++ [.error (.transport reason)] := by
  unfold Answer.events
  cases h : answer.reply with
  | unsent reason =>
    rw [h] at hr
    cases hr
  | status code =>
    rw [h] at hr
    have hc : isSuccessCode code = true := hr
    simp only [hc, if_true, hf]

/-- **What has come to its end is what the whole answer gives.** -/
theorem events_eq (h : Gives format answer.reply body a es last) (hb : body <+: answer.body)
    (hend : Finished es) : es = answer.events format := by
  cases last with
  | false =>
    obtain ⟨hr, chunks, rfl, hf⟩ := h.open_eq rfl
    rw [← List.append_nil (chunks.map BodyStep.chunk)] at hb
    obtain ⟨more, hm, _⟩ := exists_more_chunks hb
    have ha : a.finished = true := h.open_finished.1.trans hend.any
    have hfinish : a.finish = (a, []) := Adapter.call_of_finished ha .finish
    have hall : ({ format } : Adapter).feedAll answer.chunks = (a, es) := by
      rw [hm, Adapter.feedAll_append, hf]
      simp [Adapter.feedAll_of_finished ha]
    rw [answer_events_eq hr hall]
    cases answer.ending with
    | ends => simp [hfinish]
    | breaks reason => simp [hend.any]
  | true =>
    generalize hreply : answer.reply = reply at h
    cases h with
    | unsent reason => simp [Answer.events, hreply]
    | refused code hc => simp [Answer.events, hreply, hc]
    | @ends reply body a es h ha =>
      obtain ⟨hr, chunks, rfl, hf⟩ := h.open_eq rfl
      obtain ⟨hchunks, hending⟩ := whole_of_ended (e := .ends) hb
      rw [answer_events_eq (hreply ▸ hr) (hchunks ▸ hf), hending]
    | @breaks reply body a es reason h ha =>
      obtain ⟨hr, chunks, rfl, hf⟩ := h.open_eq rfl
      obtain ⟨hchunks, hending⟩ := whole_of_ended (e := .breaks reason) hb
      have hopen : es.any Event.isTerminal = false := h.open_finished.1.symm.trans ha
      rw [answer_events_eq (hreply ▸ hr) (hchunks ▸ hf), hending]
      simp [hopen]

end Gives

/-- **Every answer comes to its end.** -/
theorem Answer.finished_events (answer : Answer) (format : WireFormat) :
    Finished (answer.events format) := by
  cases hr : answer.reply.isSuccess with
  | false =>
    obtain ⟨err, herr⟩ := Answer.events_of_failure hr format
    rw [herr]
    exact finished_singleton rfl
  | true =>
    rw [Gives.answer_events_eq hr rfl, Adapter.feedAll_eq]
    cases answer.ending with
    | ends =>
      rw [Adapter.feedAll_finish_eq]
      exact format.finished_eventsOf_append_endEvents _
    | breaks reason =>
      dsimp only
      split
      · rename_i hany
        rw [WireFormat.eventsOf, any_throughTerminal] at hany
        exact finished_throughTerminal hany
      · rename_i hany
        exact (finished_singleton rfl).append (by simpa using hany)

/-! ### Against a script -/

theorem bodyEvents_chunks (ending : BodyEnd) (a : Adapter) : ∀ cs : List (List UInt8),
    bodyEvents a (cs.map .chunk ++ [ending.step]) =
      (a.feedAll cs).2 ++ bodyEvents (a.feedAll cs).1 [ending.step]
  | [] => rfl
  | c :: cs => by
    simp only [List.map_cons, List.cons_append, bodyEvents, Adapter.feedAll]
    rw [bodyEvents_chunks ending (a.feed c).1 cs, List.append_assoc]

/-- **Playing the answer as a script gives the same events.** -/
theorem Answer.script_events_eq (format : WireFormat) (answer : Answer) :
    ({ reply := answer.reply, body := answer.body } : Script).events format =
      answer.events format := by
  unfold Answer.events Script.events
  cases answer.reply with
  | unsent reason => rfl
  | status code =>
    by_cases hc : isSuccessCode code = true
    · obtain ⟨hread, hevents⟩ := (Adapter.read_nil format).feedAll answer.chunks
      have hfinished := hread.finished_eq
      rw [hevents, WireFormat.eventsOf_nil, List.nil_append] at hfinished
      simp only [hc, if_true, Answer.body, bodyEvents_chunks]
      cases answer.ending with
      | ends => rfl
      | breaks reason =>
        simp only [BodyEnd.step, bodyEvents, hfinished]
        split
        · exact List.append_nil _
        · rfl
    · simp [hc]

end LanInference
