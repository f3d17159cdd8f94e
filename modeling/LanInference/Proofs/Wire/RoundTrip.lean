/-
# Text comes through

A server that answers in one of the two formats writes a line for each piece of text, lines that
carry nothing wherever it likes, and a last line; each line ends in a newline or in a carriage
return and a newline. An adapter gives exactly these pieces of text and `done`, however the body is
cut into chunks.

Key definitions: `LineEnd`, `bodyBytes`, `WireFormat.Writes`.
Key theorems: `lineText_encode`, `WireFormat.Writes.filterMap_eq`, `WireFormat.Writes.eventsOf_eq`,
`Adapter.answers_body`.
-/
import LanInference.Proofs.Text.Utf8
import LanInference.Proofs.Wire.Adapter
import LanInference.Proofs.Wire.Payloads

namespace LanInference

open LineBuffer (newline)

/-- How a line ends. -/
inductive LineEnd where
  | newline
  | returnNewline
  deriving Repr, DecidableEq

/-- What stands before the newline of an end. -/
def LineEnd.before : LineEnd → List Char
  | newline => []
  | returnNewline => ['\r']

/-- The bytes of a line without its newline. -/
def segmentOf (line : List Char × LineEnd) : List UInt8 := Utf8.encode (line.1 ++ line.2.before)

/-- The bytes of a body of several lines. -/
def bodyBytes (lines : List (List Char × LineEnd)) : List UInt8 :=
  Utf8.encode (lines.flatMap fun line => line.1 ++ line.2.before ++ ['\n'])

/-- The lines of a body that carries these texts: one for each text, in order, then the one that
ends the stream, and lines that carry nothing anywhere. -/
inductive WireFormat.Writes (format : WireFormat) :
    List String → List (List Char × LineEnd) → Prop
  | text {t : String} {line : List Char} {texts : List String}
      {lines : List (List Char × LineEnd)} (ending : LineEnd) : TextLine format t line → t ≠ "" →
      Writes format texts lines → Writes format (t :: texts) ((line, ending) :: lines)
  | filler {line : List Char} {texts : List String} {lines : List (List Char × LineEnd)}
      (ending : LineEnd) : Filler format line → '\n' ∉ line →
      Writes format texts lines → Writes format texts ((line, ending) :: lines)
  | done {fillers : List (List Char × LineEnd)} (ending : LineEnd) :
      (∀ filler ∈ fillers, Filler format filler.1 ∧ '\n' ∉ filler.1) →
      Writes format [] ((format.doneLine, ending) :: fillers)

/-! ### Lines as bytes -/

theorem bodyBytes_cons (line : List Char × LineEnd) (lines : List (List Char × LineEnd)) :
    bodyBytes (line :: lines) = segmentOf line ++ newline :: bodyBytes lines := by
  have hn : Utf8.encode ['\n'] = [newline] := by decide
  rw [bodyBytes, List.flatMap_cons, Utf8.encode_append, Utf8.encode_append, hn, List.append_assoc]
  rfl

theorem newline_not_mem_segmentOf {line : List Char × LineEnd} (h : '\n' ∉ line.1) :
    newline ∉ segmentOf line := by
  intro hm
  have hd : '\n' ∈ line.1 ++ line.2.before :=
    Utf8.mem_encode_ascii (d := '\n') (by decide) hm
  rcases List.mem_append.mp hd with hl | hb
  · exact h hl
  · cases he : line.2 <;> simp [he, LineEnd.before] at hb

/-- The lines of a body are those it was written from. -/
theorem terminated_bodyBytes : ∀ {lines : List (List Char × LineEnd)},
    (∀ line ∈ lines, '\n' ∉ line.1) → terminated (bodyBytes lines) = lines.map segmentOf
  | [], _ => rfl
  | line :: lines, h => by
    have hn := newline_not_mem_segmentOf (h line List.mem_cons_self)
    rw [bodyBytes_cons, (splitOn_cons_newline hn _).1,
      terminated_bodyBytes fun l hl => h l (List.mem_cons_of_mem line hl)]
    rfl

/-- A text is the text of its line, without one carriage return at its end. -/
theorem lineText_encode (cs : List Char) :
    lineText (Utf8.encode cs) =
      String.ofList (if cs.getLast? = some '\r' then cs.dropLast else cs) := by
  unfold lineText withoutReturn
  by_cases h : cs.getLast? = some '\r'
  · obtain ⟨ds, rfl⟩ := List.getLast?_eq_some_iff.mp h
    have hr : Utf8.encode ['\r'] = [13] := by decide
    simp [Utf8.encode_append, hr, Utf8.decodeLossy_encode]
  · have hb : (Utf8.encode cs).getLast? ≠ some 13 := fun hb => by
      obtain ⟨ds, rfl⟩ := Utf8.getLast?_encode_ascii (d := '\r') (by decide) hb
      simp at h
    rw [if_neg hb, if_neg h, Utf8.decodeLossy_encode]

theorem lineText_segmentOf {line : List Char × LineEnd} (h : line.1.getLast? ≠ some '\r') :
    lineText (segmentOf line) = String.ofList line.1 := by
  rw [segmentOf, lineText_encode]
  cases line.2 with
  | newline => simp [LineEnd.before, h]
  | returnNewline => simp [LineEnd.before]

/-! ### Events of the lines -/

namespace WireFormat

variable {format : WireFormat}

/-- A line without control characters has neither a newline in it nor a carriage return. -/
theorem not_mem_of_printable {line : List Char} (h : Json.Printable line) :
    '\n' ∉ line ∧ line.getLast? ≠ some '\r' :=
  ⟨fun hn => absurd (h _ hn) (by decide),
    fun hr => absurd (h _ (List.mem_of_getLast? hr)) (by decide)⟩

theorem eventOf?_of_printable {line : List Char} (h : Json.Printable line) (ending : LineEnd) :
    format.eventOf? (segmentOf (line, ending)) = format.event? (String.ofList line) := by
  rw [eventOf?, lineText_segmentOf (not_mem_of_printable h).2]

theorem Filler.eventOf?_eq {line : List Char} (h : Filler format line) (ending : LineEnd) :
    format.eventOf? (segmentOf (line, ending)) = none := by
  rw [eventOf?, segmentOf, lineText_encode]
  cases ending with
  | newline =>
    rw [LineEnd.before, List.append_nil]
    by_cases hr : line.getLast? = some '\r'
    · rw [if_pos hr, (h.dropLast hr).event?_eq]
    · rw [if_neg hr, h.event?_eq]
  | returnNewline => simp [LineEnd.before, h.event?_eq]

namespace Writes

variable {texts : List String} {lines : List (List Char × LineEnd)}

theorem newline_not_mem (h : format.Writes texts lines) : ∀ line ∈ lines, '\n' ∉ line.1 := by
  induction h with
  | text ending hl _ _ ih =>
    exact List.forall_mem_cons.mpr ⟨(not_mem_of_printable hl.printable).1, ih⟩
  | filler ending _ hn _ ih => exact List.forall_mem_cons.mpr ⟨hn, ih⟩
  | done ending hf =>
    have hdone := (not_mem_of_printable (printable_doneLine format)).1
    exact List.forall_mem_cons.mpr ⟨hdone, fun filler hm => (hf filler hm).2⟩

/-- The lines have the texts' deltas and `done` as their events. -/
theorem filterMap_eq (h : format.Writes texts lines) :
    (lines.map segmentOf).filterMap format.eventOf? = texts.map .delta ++ [.done] := by
  induction h with
  | text ending hl ht _ ih =>
    rw [List.map_cons, List.filterMap_cons, eventOf?_of_printable hl.printable, hl.event?_eq ht,
      ih]
    rfl
  | filler ending hf _ _ ih => rw [List.map_cons, List.filterMap_cons, hf.eventOf?_eq, ih]
  | @done fillers ending hf =>
    have hnone : (fillers.map segmentOf).filterMap format.eventOf? = [] := by
      refine List.filterMap_eq_nil_iff.mpr fun segment hs => ?_
      obtain ⟨filler, hm, rfl⟩ := List.mem_map.mp hs
      exact (hf filler hm).1.eventOf?_eq filler.2
    rw [List.map_cons, List.filterMap_cons, eventOf?_of_printable (printable_doneLine format),
      event?_doneLine, hnone]
    rfl

theorem eventsOf_eq (h : format.Writes texts lines) :
    format.eventsOf (bodyBytes lines) = texts.map .delta ++ [.done] := by
  have hdeltas : (texts.map Event.delta).any Event.isTerminal = false := by
    simp [Event.isTerminal]
  rw [eventsOf, terminated_bodyBytes h.newline_not_mem, h.filterMap_eq, throughTerminal_append,
    hdeltas]
  rfl

end Writes
end WireFormat

/-- **Text comes through.** From a body that carries these texts, in any chunks, an adapter gives
their deltas and `done`. -/
theorem Adapter.answers_body {format : WireFormat} {texts : List String}
    {lines : List (List Char × LineEnd)} (h : format.Writes texts lines)
    {chunks : List (List UInt8)} (hc : chunks.flatten = bodyBytes lines) :
    (Adapter.answers { format } (chunks.map .feed ++ [.finish])).flatten =
      texts.map .delta ++ [.done] := by
  have hev := h.eventsOf_eq
  have hend : format.endEvents (bodyBytes lines) = [] := by
    rw [WireFormat.endEvents, hev, if_pos (by simp [Event.isTerminal])]
  rw [answers_append, List.flatten_append, flatten_answers_feed, feedAll_eq, hc, hev]
  simp only [answers, call, feedAll_finish_eq, hc, hend]
  simp

/-- A comment, a text of two and of four bytes a character with a newline in it, a blank line, and
the end of the stream. -/
def greetingLines : List (List Char × LineEnd) :=
  [([':', ' ', 'h', 'i'], .newline),
    (Sse.dataField ++ [' '] ++ (Sse.chunkTree "é\n😀").write, .returnNewline),
    ([], .newline),
    (WireFormat.sse.doneLine, .newline)]

theorem Adapter.answers_greetingLines :
    WireFormat.sse.Writes ["é\n😀"] greetingLines ∧
      ((bodyBytes greetingLines).map fun b => [b]).flatten = bodyBytes greetingLines ∧
      (Adapter.answers { format := .sse }
        (((bodyBytes greetingLines).map fun b => [b]).map .feed ++ [.finish])).flatten =
          [.delta "é\n😀", .done] := by
  have hcomment : WireFormat.Filler .sse [':', ' ', 'h', 'i'] :=
    .aside [':'] (by decide) (by decide)
  have hblank : WireFormat.Filler .sse [] := .blank (by simp)
  have hw : WireFormat.sse.Writes ["é\n😀"] greetingLines :=
    .filler .newline hcomment (by decide) (.text .returnNewline (.chunk "é\n😀" true) (by decide)
      (.filler .newline hblank (by decide) (.done .newline (by simp))))
  have hc : ((bodyBytes greetingLines).map fun b => [b]).flatten = bodyBytes greetingLines := by
    rw [← List.flatMap_def, List.flatMap_singleton']
  exact ⟨hw, hc, Adapter.answers_body hw hc⟩

end LanInference
