/-
# An adapter reads a body as a whole

However a body is cut into chunks, the events that an adapter has given for it are those of its
terminated lines, up to the first terminal one (`WireFormat.eventsOf`). The end of the body adds the
event of what no newline ends, and `done` if nothing has closed the stream (`WireFormat.endEvents`);
after that the adapter gives nothing.

The invariant `Adapter.Read` ties the state of an adapter to all the bytes it has been fed: it knows
whether a terminal event is among their events, and until then it holds their unterminated segment.

Key definitions: `WireFormat.eventsOf`, `WireFormat.endEvents`, `AdapterCall`, `Adapter.answers`,
`Adapter.Read`.
Key theorems: `Adapter.Read.feed`, `Adapter.Read.finish`, `Adapter.feedAll_eq`,
`Adapter.answers_eq_whole`.
-/
import LanInference.Proofs.Events
import LanInference.Proofs.Wire.Lines
import LanInference.Wire.Adapter

namespace LanInference

namespace WireFormat

/-- The event of a segment. -/
def eventOf? (format : WireFormat) (segment : List UInt8) : Option Event :=
  format.event? (lineText segment)

/-- The events of the terminated lines of a body, up to the first terminal one. -/
def eventsOf (format : WireFormat) (bytes : List UInt8) : List Event :=
  throughTerminal ((terminated bytes).filterMap format.eventOf?)

/-- The event of what no newline ends, if there is any of it. -/
def restEvents (format : WireFormat) (bytes : List UInt8) : List Event :=
  if unterminated bytes = [] then [] else (format.eventOf? (unterminated bytes)).toList

/-- What the end of a body adds: the event of the rest, and `done` if no event is terminal yet. -/
def endEvents (format : WireFormat) (bytes : List UInt8) : List Event :=
  if (format.eventsOf bytes).any Event.isTerminal then []
  else
    let rest := format.restEvents bytes
    if rest.any Event.isTerminal then rest else rest ++ [.done]

theorem eventsOf_nil (format : WireFormat) : format.eventsOf [] = [] := rfl

/-- The events of more bytes are those of the lines that they complete. -/
theorem eventsOf_append (format : WireFormat) (xs ys : List UInt8) :
    format.eventsOf (xs ++ ys) =
      if (format.eventsOf xs).any Event.isTerminal then format.eventsOf xs
      else format.eventsOf xs ++
        throughTerminal ((terminated (unterminated xs ++ ys)).filterMap format.eventOf?) := by
  unfold eventsOf
  rw [terminated_append, List.filterMap_append, throughTerminal_append, any_throughTerminal]
  by_cases h : ((terminated xs).filterMap format.eventOf?).any Event.isTerminal = true
  · rw [if_pos h, if_pos h]
  · have hf := Bool.not_eq_true _ ▸ h
    rw [if_neg h, if_neg h, throughTerminal_of_any_eq_false hf]

theorem restEvents_length_le (format : WireFormat) (bytes : List UInt8) :
    (format.restEvents bytes).length ≤ 1 := by
  unfold restEvents
  split
  · simp
  · cases format.eventOf? (unterminated bytes) <;> simp

/-- A body that has come to its end has given one terminal event, as the last. -/
theorem finished_eventsOf_append_endEvents (format : WireFormat) (bytes : List UInt8) :
    Finished (format.eventsOf bytes ++ format.endEvents bytes) := by
  unfold endEvents
  by_cases h : (format.eventsOf bytes).any Event.isTerminal = true
  · rw [if_pos h, List.append_nil]
    exact finished_throughTerminal (by rwa [eventsOf, any_throughTerminal] at h)
  · have hf : (format.eventsOf bytes).any Event.isTerminal = false := by simpa using h
    rw [if_neg h]
    apply Finished.append hf
    have hl := format.restEvents_length_le bytes
    cases hr : format.restEvents bytes with
    | nil => exact finished_singleton rfl
    | cons e es =>
      have hes : es = [] := by
        rw [hr, List.length_cons] at hl
        exact List.eq_nil_of_length_eq_zero (by omega)
      subst hes
      by_cases he : e.isTerminal = true
      · simpa [he] using finished_singleton he
      · have hne : [e].any Event.isTerminal = false := by simp [he]
        have hdone : Finished [.done] := ⟨[], .done, rfl, rfl, by simp⟩
        simpa [he] using hdone.append hne

end WireFormat

/-- A call of an adapter. -/
inductive AdapterCall where
  | feed (bytes : List UInt8)
  | finish
  deriving Repr, DecidableEq

namespace Adapter

def call (a : Adapter) : AdapterCall → Adapter × List Event
  | .feed bytes => a.feed bytes
  | .finish => a.finish

/-- The events of each of several calls in a row. -/
def answers (a : Adapter) : List AdapterCall → List (List Event)
  | [] => []
  | c :: cs => (a.call c).2 :: (a.call c).1.answers cs

/-- What an adapter knows of the bytes it has been fed. -/
structure Read (format : WireFormat) (bytes : List UInt8) (a : Adapter) : Prop where
  format_eq : a.format = format
  finished_eq : a.finished = (format.eventsOf bytes).any Event.isTerminal
  lines_eq : a.finished = false → a.lines = .after bytes

variable {format : WireFormat} {bytes : List UInt8} {a : Adapter}

theorem read_nil (format : WireFormat) : Read format [] { format } := ⟨rfl, rfl, fun _ => rfl⟩

/-- A closed adapter gives nothing more and stays as it is. -/
theorem call_of_finished (h : a.finished = true) (c : AdapterCall) : a.call c = (a, []) := by
  cases c <;> simp [call, feed, finish, h]

theorem answers_of_finished (h : a.finished = true) :
    ∀ cs : List AdapterCall, a.answers cs = cs.map fun _ => []
  | [] => rfl
  | c :: cs => by
    rw [answers, call_of_finished h, answers_of_finished h cs]
    rfl

/-- A chunk keeps the invariant, and gives the events by which those of the whole grow. -/
theorem Read.feed (h : Read format bytes a) (chunk : List UInt8) :
    Read format (bytes ++ chunk) (a.feed chunk).1 ∧
      format.eventsOf (bytes ++ chunk) = format.eventsOf bytes ++ (a.feed chunk).2 := by
  have happ := format.eventsOf_append bytes chunk
  unfold Adapter.feed
  by_cases hf : a.finished = true
  · rw [← h.finished_eq, if_pos hf] at happ
    rw [if_pos hf, happ]
    refine ⟨⟨h.format_eq, ?_, fun hn => ?_⟩, (List.append_nil _).symm⟩
    · rw [happ, h.finished_eq]
    · rw [hf] at hn
      cases hn
  · rw [← h.finished_eq, if_neg hf] at happ
    have hlines := h.lines_eq (by simpa using hf)
    have hold : (format.eventsOf bytes).any Event.isTerminal = false := by
      rw [← h.finished_eq]
      simpa using hf
    rw [if_neg hf, hlines, LineBuffer.push_after]
    simp only [ofLines, h.format_eq, List.filterMap_map]
    refine ⟨⟨rfl, ?_, fun _ => rfl⟩, happ⟩
    rw [happ, List.any_append, hold, Bool.false_or]
    rfl

/-- The end of the body closes the adapter, and gives what the body's end adds. -/
theorem Read.finish (h : Read format bytes a) :
    a.finish.2 = format.endEvents bytes ∧ a.finish.1.finished = true := by
  unfold Adapter.finish WireFormat.endEvents
  rw [← h.finished_eq]
  by_cases hf : a.finished = true
  · simp [hf]
  · rw [if_neg hf, if_neg hf, h.lines_eq (by simpa using hf)]
    have hrest : throughTerminal
        (((LineBuffer.after bytes).takeRest.2.toList).filterMap format.event?) =
          format.restEvents bytes := by
      rw [LineBuffer.takeRest_after, WireFormat.restEvents, WireFormat.eventOf?]
      split
      · rfl
      · cases hev : format.event? (lineText (unterminated bytes)) <;>
          simp [hev, throughTerminal]
    simp only [ofLines, h.format_eq, hrest]
    by_cases ht : (format.restEvents bytes).any Event.isTerminal = true
    · simp [ht]
    · simp [ht]

/-- Several chunks keep the invariant; their events are those of all their bytes. -/
theorem Read.feedAll : ∀ {bytes : List UInt8} {a : Adapter} (chunks : List (List UInt8)),
    Read format bytes a → Read format (bytes ++ chunks.flatten) (a.feedAll chunks).1 ∧
      format.eventsOf (bytes ++ chunks.flatten) = format.eventsOf bytes ++ (a.feedAll chunks).2
  | bytes, a, [], h => by simpa [Adapter.feedAll] using h
  | bytes, a, c :: cs, h => by
    obtain ⟨h1, e1⟩ := h.feed c
    obtain ⟨h2, e2⟩ := Read.feedAll cs h1
    rw [List.flatten_cons, ← List.append_assoc]
    refine ⟨h2, ?_⟩
    rw [e2, e1, List.append_assoc]
    rfl

/-- The events of chunks are those of the whole body. -/
theorem feedAll_eq (format : WireFormat) (chunks : List (List UInt8)) :
    (({ format } : Adapter).feedAll chunks).2 = format.eventsOf chunks.flatten :=
  ((read_nil format).feedAll chunks).2.symm

/-- The end of a body fed in chunks gives what the end of the whole body adds. -/
theorem feedAll_finish_eq (format : WireFormat) (chunks : List (List UInt8)) :
    (({ format } : Adapter).feedAll chunks).1.finish.2 = format.endEvents chunks.flatten :=
  ((read_nil format).feedAll chunks).1.finish.1

/-! ### Call by call -/

theorem answers_append (a : Adapter) : ∀ (cs : List (List UInt8)) (ds : List AdapterCall),
    a.answers (cs.map .feed ++ ds) =
      a.answers (cs.map .feed) ++ (a.feedAll cs).1.answers ds
  | [], _ => rfl
  | c :: cs, ds => by
    simp only [List.map_cons, List.cons_append, answers, call, feedAll]
    rw [answers_append (a.feed c).1 cs ds]

theorem flatten_answers_feed (a : Adapter) : ∀ chunks : List (List UInt8),
    (a.answers (chunks.map .feed)).flatten = (a.feedAll chunks).2
  | [] => rfl
  | c :: cs => by
    simp only [List.map_cons, answers, call, feedAll, List.flatten_cons]
    rw [flatten_answers_feed (a.feed c).1 cs]

theorem take_answers_feed (a : Adapter) : ∀ (chunks : List (List UInt8)) (k : Nat),
    (a.answers (chunks.map .feed)).take k = a.answers ((chunks.take k).map .feed)
  | _, 0 => rfl
  | [], _ + 1 => rfl
  | c :: cs, k + 1 => by
    simp only [List.map_cons, answers, call, List.take_succ_cons]
    rw [take_answers_feed (a.feed c).1 cs k]

/-- **Chunks do not matter.** After any number `k` of chunks the events given so far are those of
the terminated lines of all their bytes, up to the first terminal one. A call of `finish` then gives
what the end of the body adds, the sequence is finished, and every later call gives nothing. -/
theorem answers_eq_whole (format : WireFormat) (chunks : List (List UInt8)) (k : Nat)
    (later : List AdapterCall) :
    let fed := (chunks.take k).flatten
    ((Adapter.answers { format } (chunks.map .feed)).take k).flatten = format.eventsOf fed ∧
      Adapter.answers { format } ((chunks.take k).map .feed ++ .finish :: later) =
        Adapter.answers { format } ((chunks.take k).map .feed) ++
          format.endEvents fed :: later.map (fun _ => []) ∧
      Finished (format.eventsOf fed ++ format.endEvents fed) := by
  intro fed
  have hread := ((read_nil format).feedAll (chunks.take k)).1
  obtain ⟨hend, hclosed⟩ := hread.finish
  refine ⟨?_, ?_, format.finished_eventsOf_append_endEvents fed⟩
  · rw [take_answers_feed, flatten_answers_feed, feedAll_eq]
  · rw [answers_append, answers, call, answers_of_finished hclosed, hend]
    rfl

end Adapter
end LanInference
