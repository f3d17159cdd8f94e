/-
# The turns of a task

All that a task can do next, one case for each: what it hears of its answer, the task before and
after, and the write it hands to the store. The moves of a task are partial functions; each of them,
where it is defined, is one of these turns.

Key definitions: `Signal`, `StreamTask.afterRecord`, `StreamTask.afterSend`, `StreamTask.Turn`.
Key theorems: `StreamTask.turn_of_respond`, `StreamTask.turn_of_record`, `StreamTask.turn_of_send`,
`StreamTask.Turn.session_eq`, `StreamTask.Turn.op_id`, `StreamTask.Turn.cancelled`.
-/
import LanInference.Stream.Task

namespace LanInference

/-- What a task hears of the answer to its request. -/
inductive Signal where
  | reply (r : Reply)
  | body (b : BodyStep)
  deriving Repr, DecidableEq

/-- The task after an event is recorded. Its write, if it has one, is awaited. -/
def StreamTask.afterRecord (t : StreamTask) (e : Event) (rest : List Event) (last : Bool) :
    StreamTask :=
  { t with
    session := (t.session.record e).1
    recorded := t.recorded ++ [e]
    stage := if (t.session.record e).2.isSome then .writing e rest last
      else .sending e rest last }

/-- The task after an event is handed over. -/
def StreamTask.afterSend (t : StreamTask) (e : Event) (rest : List Event) (last : Bool) :
    StreamTask :=
  { t with
    channel := t.channel ++ [e]
    stage := if e.isTerminal then .closing else .giving rest last }

/-- A turn of a task: what it hears, the task before and after, and the write it hands to the store.
`hasEntry` is what the store says of an entry for the session. -/
inductive StreamTask.Turn (hasEntry : Bool) :
    Option Signal → StreamTask → StreamTask → Option StoreOp → Prop
  | unsent {t : StreamTask} (reason : String) (h : t.stage = .requesting) :
      Turn hasEntry (some (.reply (.unsent reason))) t
        { t with stage := .recording (.error (.transport reason)) [] true } none
  | refused {t : StreamTask} (code : UInt16) (h : t.stage = .requesting)
      (hc : isSuccessCode code = false) : Turn hasEntry (some (.reply (.status code))) t
        { t with stage := .recording (.error (.status code)) [] true } none
  | accepted {t : StreamTask} (code : UInt16) (h : t.stage = .requesting)
      (hc : isSuccessCode code = true) : Turn hasEntry (some (.reply (.status code))) t
        { t with stage := .lookingUp } none
  | found {t : StreamTask} (h : t.stage = .lookingUp) :
      Turn hasEntry none t { t with stage := .marking hasEntry } none
  | mark {t : StreamTask} (h : t.stage = .marking false) :
      Turn hasEntry none t { t with stage := .opening } (some t.session.save)
  | marked {t : StreamTask} (h : t.stage = .marking true) :
      Turn hasEntry none t { t with stage := .reading } none
  | chunk {t : StreamTask} (bytes : List UInt8) (h : t.stage = .reading) :
      Turn hasEntry (some (.body (.chunk bytes))) t
        { t with
          adapter := (t.adapter.feed bytes).1
          stage := .giving (t.adapter.feed bytes).2 false } none
  | ends {t : StreamTask} (h : t.stage = .reading) :
      Turn hasEntry (some (.body .ends)) t
        { t with adapter := t.adapter.finish.1, stage := .giving t.adapter.finish.2 true } none
  | breaks {t : StreamTask} (reason : String) (h : t.stage = .reading) :
      Turn hasEntry (some (.body (.breaks reason))) t
        { t with stage := .recording (.error (.transport reason)) [] true } none
  | record {t : StreamTask} {e : Event} {rest : List Event} {last : Bool}
      (h : t.stage = .recording e rest last) :
      Turn hasEntry none t (t.afterRecord e rest last) (t.session.record e).2
  | send {t : StreamTask} {e : Event} {rest : List Event} {last : Bool}
      (h : t.stage = .sending e rest last) (hd : t.dropped = false)
      (hc : t.channel.length < StreamTask.capacity) :
      Turn hasEntry none t (t.afterSend e rest last) none
  | leave {t : StreamTask} {e : Event} {rest : List Event} {last : Bool}
      (h : t.stage = .sending e rest last) (hd : t.dropped = true) :
      Turn hasEntry none t { t with stage := .closing } none
  | stop {t : StreamTask} (hc : t.cancelled = true) (h : t.stage ≠ .closing)
      (h' : t.stage ≠ .finished) : Turn hasEntry none t { t with stage := .closing } none
  | finish {t : StreamTask} (h : t.stage = .closing) :
      Turn hasEntry none t { t with stage := .finished } none
  | take {t : StreamTask} {e : Event} {es : List Event} (hc : t.cancelled = false)
      (h : t.channel = e :: es) : Turn hasEntry none t
        { t with channel := es, yielded := t.yielded ++ [e] } none
  | wait (t : StreamTask) : Turn hasEntry none t t none
  | cancel (t : StreamTask) : Turn hasEntry none t t.cancel none
  | drop (t : StreamTask) : Turn hasEntry none t t.drop none

/-! ### The moves are turns -/

namespace StreamTask

variable {b : Bool} {t t' : StreamTask} {op : Option StoreOp}

theorem turn_of_respond {reply : Reply} (h : t.respond reply = some t') :
    Turn b (some (.reply reply)) t t' none := by
  unfold respond at h
  split at h
  · rename_i hs
    cases h
    cases reply with
    | unsent reason => exact .unsent reason hs
    | status code =>
      cases hc : isSuccessCode code with
      | true => simpa [hc] using Turn.accepted code hs hc
      | false => simpa [hc] using Turn.refused code hs hc
  · cases h

theorem turn_of_found (h : t.found b = some t') : Turn b none t t' none := by
  unfold found at h
  split at h
  · rename_i hs
    cases h
    exact .found hs
  · cases h

theorem turn_of_mark (h : t.mark = some (t', op)) : Turn b none t t' op := by
  unfold mark at h
  split at h
  · rename_i hasEntry hs
    cases hasEntry with
    | true =>
      cases h
      exact .marked hs
    | false =>
      cases h
      exact .mark hs
  · cases h

theorem turn_of_receive {step : BodyStep} (h : t.receive step = some t') :
    Turn b (some (.body step)) t t' none := by
  unfold receive at h
  split at h
  · rename_i hs
    cases step with
    | chunk bytes =>
      cases h
      exact .chunk bytes hs
    | ends =>
      cases h
      exact .ends hs
    | breaks reason =>
      cases h
      exact .breaks reason hs
  · cases h

theorem turn_of_record (h : t.record = some (t', op)) : Turn b none t t' op := by
  unfold record at h
  split at h
  · rename_i hs
    cases h
    exact .record hs
  · cases h

theorem turn_of_send (h : t.send = some t') : Turn b none t t' none := by
  unfold send at h
  split at h
  · rename_i hs
    by_cases hd : t.dropped = true
    · rw [if_pos hd] at h
      cases h
      exact .leave hs hd
    · rw [if_neg hd] at h
      split at h
      · rename_i hc
        cases h
        exact .send hs (by simpa using hd) hc
      · cases h
  · cases h

theorem turn_of_stop (h : t.stop = some t') : Turn b none t t' none := by
  unfold stop at h
  split at h
  · rename_i hs
    cases h
    exact .stop hs.1 hs.2.1 hs.2.2
  · cases h

theorem turn_of_finish (h : t.finish = some t') : Turn b none t t' none := by
  unfold finish at h
  split at h
  · rename_i hs
    cases h
    exact .finish hs
  · cases h

theorem turn_read (b : Bool) (t : StreamTask) : Turn b none t t.read none := by
  unfold read poll
  by_cases hc : t.cancelled = true
  · rw [if_pos hc]
    exact .wait t
  · rw [if_neg hc]
    cases hch : t.channel with
    | nil => by_cases hs : t.stage = .finished <;> simpa [hs] using Turn.wait t
    | cons e es => exact .take (by simpa using hc) hch

theorem record_session_eq (s : Session) (e : Event) :
    (s.record e).1.id = s.id ∧ (s.record e).1.format = s.format ∧
      ∀ w ∈ (s.record e).2, w.id = s.key := by
  unfold Session.record
  split
  · exact ⟨rfl, rfl, by simp⟩
  · cases e with
    | delta t => exact ⟨rfl, rfl, by simp [Session.save, StoreOp.id, Session.key]⟩
    | progress p => exact ⟨rfl, rfl, by simp⟩
    | done => exact ⟨rfl, rfl, by simp [StoreOp.id]⟩
    | error err => exact ⟨rfl, rfl, by simp⟩

/-- A task keeps its session's id and format. -/
theorem Turn.session_eq {signal : Option Signal} (h : Turn b signal t t' op) :
    t'.session.id = t.session.id ∧ t'.session.format = t.session.format := by
  cases h
  case record e _ _ _ =>
    obtain ⟨hid, hformat, _⟩ := record_session_eq t.session e
    exact ⟨hid, hformat⟩
  all_goals exact ⟨rfl, rfl⟩

/-- A task writes under its session's key alone. -/
theorem Turn.op_id {signal : Option Signal} (h : Turn b signal t t' op) :
    ∀ w ∈ op, w.id = t.session.key := by
  cases h
  case mark => simp [Session.save, StoreOp.id]
  case record e _ _ _ => exact (record_session_eq t.session e).2.2
  all_goals
    intro w hw
    cases hw

/-- A cancelled task stays cancelled and yields nothing more. -/
theorem Turn.cancelled {signal : Option Signal} (h : Turn b signal t t' op)
    (hc : t.cancelled = true) : t'.cancelled = true ∧ t'.yielded = t.yielded := by
  cases h
  case take hn _ =>
    rw [hc] at hn
    cases hn
  case cancel => exact ⟨rfl, rfl⟩
  case drop => exact ⟨rfl, rfl⟩
  all_goals exact ⟨hc, rfl⟩

end StreamTask
end LanInference
