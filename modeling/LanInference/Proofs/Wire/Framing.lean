/-
# A line buffer keeps the text

What a line buffer gives between two calls that take its rest is a function of the bytes pushed
between them: the lines that newlines end in them, and the text after the last newline
(`LineBuffer.linesOf`, `LineBuffer.restOf`). How the bytes are cut, what was pushed before and what
is pushed after does not matter. A text that was encoded line by line comes back as its lines.

The invariant is that a buffer is always the one after some bytes (`LineBuffer.after`), which a push
extends and a call that takes the rest begins anew.

Key definitions: `LineCall`, `LineAnswer`, `LineBuffer.answers`, `LineBuffer.linesOf`,
`LineBuffer.restOf`, `LineBuffer.Yields`.
Key theorems: `LineBuffer.afterCalls_push`, `LineBuffer.pushed_answers`, `LineBuffer.yields`,
`LineBuffer.newline_not_mem_pushed`, `LineBuffer.keeps_text`.
-/
import LanInference.Proofs.Wire.RoundTrip

namespace LanInference

/-- A call of a line buffer. -/
inductive LineCall where
  | push (bytes : List UInt8)
  | takeRest
  deriving Repr, DecidableEq

/-- What a call of a line buffer gives. -/
inductive LineAnswer where
  | lines (ls : List String)
  | rest (r : Option String)
  deriving Repr, DecidableEq

/-- The lines that a push has completed. -/
def LineAnswer.pushed : LineAnswer → List String
  | lines ls => ls
  | rest _ => []

namespace LineBuffer

def call (buffer : LineBuffer) : LineCall → LineBuffer × LineAnswer
  | .push bytes => ((buffer.push bytes).1, .lines (buffer.push bytes).2)
  | .takeRest => (buffer.takeRest.1, .rest buffer.takeRest.2)

/-- What each of several calls in a row gives. -/
def answers (buffer : LineBuffer) : List LineCall → List LineAnswer
  | [] => []
  | c :: cs => (buffer.call c).2 :: (buffer.call c).1.answers cs

/-- The buffer after several calls. -/
def afterCalls (buffer : LineBuffer) (cs : List LineCall) : LineBuffer :=
  cs.foldl (fun b c => (b.call c).1) buffer

/-- The texts of the lines that a newline ends. -/
def linesOf (bytes : List UInt8) : List String := (terminated bytes).map lineText

/-- The text after the last newline, if any byte stands there. -/
def restOf (bytes : List UInt8) : Option String :=
  if unterminated bytes = [] then none else some (lineText (unterminated bytes))

/-- Pushed one after the other into a new buffer, or into one whose rest has just been taken, these
chunks give these lines, and then this rest. The calls after them find a new buffer. -/
def Yields (chunks : List (List UInt8)) (lines : List String) (rest : Option String) : Prop :=
  ∀ before later : List LineCall, (∀ c, before.getLast? = some c → c = .takeRest) →
    answers {} (before ++ (chunks.map .push ++ .takeRest :: later)) =
      answers {} before ++ (answers {} (chunks.map .push) ++ .rest rest :: answers {} later) ∧
    (answers {} (chunks.map .push)).flatMap LineAnswer.pushed = lines

/-! ### Calls in a row -/

theorem answers_append (buffer : LineBuffer) : ∀ cs ds : List LineCall,
    buffer.answers (cs ++ ds) = buffer.answers cs ++ (buffer.afterCalls cs).answers ds
  | [], _ => rfl
  | c :: cs, ds => by
    show (buffer.call c).2 :: (buffer.call c).1.answers (cs ++ ds) = _
    rw [answers_append (buffer.call c).1 cs ds]
    rfl

/-- A call that takes the rest leaves nothing in the buffer. -/
theorem afterCalls_of_getLast? {before : List LineCall}
    (h : ∀ c, before.getLast? = some c → c = .takeRest) : afterCalls {} before = {} := by
  rcases List.eq_nil_or_concat before with rfl | ⟨cs, c, rfl⟩
  · rfl
  · have hc : c = .takeRest := h c (by simp)
    subst hc
    rw [List.concat_eq_append, afterCalls, List.foldl_append]
    rfl

/-- Chunks are pushed as their bytes are. -/
theorem afterCalls_push : ∀ (chunks : List (List UInt8)) (bytes : List UInt8),
    (after bytes).afterCalls (chunks.map .push) = after (bytes ++ chunks.flatten)
  | [], bytes => by simp [afterCalls]
  | chunk :: chunks, bytes => by
    have hpush : ((after bytes).call (.push chunk)).1 = after (bytes ++ chunk) := by
      rw [call, push_after]
    calc (after bytes).afterCalls ((chunk :: chunks).map .push)
        = ((after bytes).call (.push chunk)).1.afterCalls (chunks.map .push) := rfl
      _ = (after (bytes ++ chunk)).afterCalls (chunks.map .push) := by rw [hpush]
      _ = after (bytes ++ chunk ++ chunks.flatten) := afterCalls_push chunks (bytes ++ chunk)
      _ = after (bytes ++ (chunk :: chunks).flatten) := by
        rw [List.append_assoc, List.flatten_cons]

/-- The lines that chunks complete are those that their bytes complete. -/
theorem pushed_answers : ∀ (chunks : List (List UInt8)) (bytes : List UInt8),
    ((after bytes).answers (chunks.map .push)).flatMap LineAnswer.pushed =
      linesOf (unterminated bytes ++ chunks.flatten)
  | [], bytes => by
    have hnone := (splitOn_of_not_mem (newline_not_mem_unterminated bytes)).1
    simp [answers, linesOf, hnone]
  | chunk :: chunks, bytes => by
    have hcall : (after bytes).call (.push chunk) =
        (after (bytes ++ chunk), .lines (linesOf (unterminated bytes ++ chunk))) := by
      rw [call, push_after, linesOf]
    have hsplit : unterminated bytes ++ (chunk :: chunks).flatten =
        unterminated bytes ++ chunk ++ chunks.flatten := by
      rw [List.flatten_cons, List.append_assoc]
    rw [List.map_cons, answers, hcall, List.flatMap_cons, pushed_answers chunks (bytes ++ chunk),
      hsplit, linesOf, linesOf, linesOf, terminated_append (unterminated bytes ++ chunk),
      List.map_append, ← unterminated_append]
    rfl

theorem call_takeRest (bytes : List UInt8) :
    (after bytes).call .takeRest = ({}, .rest (restOf bytes)) := by
  show (_, LineAnswer.rest (after bytes).takeRest.2) = _
  rw [takeRest_after, restOf]
  rfl

/-- **The cut into chunks does not matter.** -/
theorem yields (chunks : List (List UInt8)) :
    Yields chunks (linesOf chunks.flatten) (restOf chunks.flatten) := by
  intro before later hbefore
  have hpushed := pushed_answers chunks []
  rw [unterminated_nil, List.nil_append] at hpushed
  have hafter := afterCalls_push chunks []
  rw [List.nil_append] at hafter
  refine ⟨?_, hpushed⟩
  rw [answers_append, afterCalls_of_getLast? hbefore, answers_append]
  show _ ++ (_ ++ ((after []).afterCalls (chunks.map .push)).answers (.takeRest :: later)) = _
  rw [hafter, answers, call_takeRest]

/-! ### No newline in a line -/

theorem mem_of_mem_withoutReturn {segment : List UInt8} {b : UInt8}
    (h : b ∈ withoutReturn segment) : b ∈ segment := by
  unfold withoutReturn at h
  split at h
  · exact List.dropLast_subset segment h
  · exact h

theorem newline_not_mem_lineText {segment : List UInt8} (h : newline ∉ segment) :
    '\n' ∉ (lineText segment).toList := by
  intro hmem
  rw [lineText, String.toList_ofList] at hmem
  exact h (mem_of_mem_withoutReturn
    (Utf8.mem_of_mem_decodeLossy (d := '\n') (by decide) (by decide) hmem))

theorem newline_not_mem_linesOf {bytes : List UInt8} {line : String} (h : line ∈ linesOf bytes) :
    '\n' ∉ line.toList := by
  obtain ⟨segment, hmem, rfl⟩ := List.mem_map.mp h
  exact newline_not_mem_lineText
    (mem_part_of_splitOn (List.dropLast_subset _ hmem)).1

/-- A call keeps a buffer one after some bytes, and completes lines of bytes. -/
theorem exists_call (bytes : List UInt8) (c : LineCall) :
    (∃ more, ((after bytes).call c).1 = after more) ∧
      ∃ more, ((after bytes).call c).2.pushed = linesOf more := by
  cases c with
  | push chunk =>
    rw [call, push_after]
    exact ⟨⟨bytes ++ chunk, rfl⟩, unterminated bytes ++ chunk, rfl⟩
  | takeRest => exact ⟨⟨[], rfl⟩, [], rfl⟩

theorem newline_not_mem_pushed : ∀ (cs : List LineCall) (bytes : List UInt8) {a : LineAnswer},
    a ∈ (after bytes).answers cs → ∀ line ∈ a.pushed, '\n' ∉ line.toList
  | [], _, _, h, _, _ => by simp [answers] at h
  | c :: cs, bytes, a, h, line, hline => by
    obtain ⟨⟨next, hnext⟩, more, hmore⟩ := exists_call bytes c
    rcases List.mem_cons.mp h with rfl | h
    · rw [hmore] at hline
      exact newline_not_mem_linesOf hline
    · rw [hnext] at h
      exact newline_not_mem_pushed cs next h line hline

/-! ### Text line by line -/

/-- A line without a newline in it, and no carriage return at its end. -/
def IsLine (cs : List Char) : Prop := '\n' ∉ cs ∧ cs.getLast? ≠ some '\r'

/-- Lines before other bytes are cut off one by one. -/
theorem splitOn_bodyBytes : ∀ {lines : List (List Char × LineEnd)} (rest : List UInt8),
    (∀ line ∈ lines, '\n' ∉ line.1) →
      terminated (bodyBytes lines ++ rest) = lines.map segmentOf ++ terminated rest ∧
        unterminated (bodyBytes lines ++ rest) = unterminated rest
  | [], rest, _ => ⟨rfl, rfl⟩
  | line :: lines, rest, h => by
    obtain ⟨ht, hu⟩ := splitOn_bodyBytes rest fun l hl => h l (List.mem_cons_of_mem line hl)
    have hcut := splitOn_cons_newline (newline_not_mem_segmentOf (h line List.mem_cons_self))
      (bodyBytes lines ++ rest)
    rw [bodyBytes_cons, List.append_assoc, List.cons_append, hcut.1, hcut.2, ht, hu]
    exact ⟨rfl, rfl⟩

theorem linesOf_bodyBytes {lines : List (List Char × LineEnd)} {last : List Char}
    (hl : ∀ line ∈ lines, IsLine line.1) (hr : IsLine last) :
    linesOf (bodyBytes lines ++ Utf8.encode last) = lines.map fun line => String.ofList line.1 := by
  have hlast : newline ∉ Utf8.encode last := fun hm =>
    hr.1 (Utf8.mem_encode_ascii (d := '\n') (by decide) hm)
  rw [linesOf, (splitOn_bodyBytes _ fun line hm => (hl line hm).1).1, (splitOn_of_not_mem hlast).1,
    List.append_nil, List.map_map]
  exact List.map_congr_left fun line hm => lineText_segmentOf (hl line hm).2

theorem restOf_bodyBytes {lines : List (List Char × LineEnd)} {last : List Char}
    (hl : ∀ line ∈ lines, IsLine line.1) (hr : IsLine last) :
    restOf (bodyBytes lines ++ Utf8.encode last) =
      if last = [] then none else some (String.ofList last) := by
  have hlast : newline ∉ Utf8.encode last := fun hm =>
    hr.1 (Utf8.mem_encode_ascii (d := '\n') (by decide) hm)
  have hnil : Utf8.encode last = [] ↔ last = [] := by
    constructor
    · intro h
      have hread := Utf8.decodeLossy_encode last
      rw [h] at hread
      exact hread.symm
    · rintro rfl
      rfl
  rw [restOf, (splitOn_bodyBytes _ fun line hm => (hl line hm).1).2, (splitOn_of_not_mem hlast).2,
    lineText_encode, if_neg hr.2]
  simp only [hnil]

/-- **A line buffer keeps the text.** What it gives between two calls that take its rest depends on
the bytes between them alone, no line that a push gives has a newline in it, and lines of text, each
but the last with a newline or a carriage return and a newline behind it, come back as they are from
any chunks, the last one as the rest. -/
theorem keeps_text :
    (∀ chunks, Yields chunks (linesOf chunks.flatten) (restOf chunks.flatten)) ∧
    (∀ calls, ∀ a ∈ answers {} calls, ∀ line ∈ a.pushed, '\n' ∉ line.toList) ∧
    (∀ (lines : List (List Char × LineEnd)) (last : List Char) (chunks : List (List UInt8)),
      (∀ line ∈ lines, IsLine line.1) → IsLine last →
      chunks.flatten = bodyBytes lines ++ Utf8.encode last →
      Yields chunks (lines.map fun line => String.ofList line.1)
        (if last = [] then none else some (String.ofList last))) := by
  refine ⟨yields, fun calls a ha => newline_not_mem_pushed calls [] ha, ?_⟩
  intro lines last chunks hl hr hc
  have hy := yields chunks
  rwa [hc, linesOf_bodyBytes hl hr, restOf_bodyBytes hl hr] at hy

/-- Characters of several bytes, an empty line, a carriage return within a line. -/
def mixedLines : List (List Char × LineEnd) :=
  [(['é', '😀'], .returnNewline), ([], .newline), (['a', '\r', 'b'], .returnNewline)]

/-- Byte by byte, with a character of two bytes as the rest. -/
theorem keeps_text_mixedLines :
    (∀ line ∈ mixedLines, IsLine line.1) ∧ IsLine ['ü'] ∧
      Yields ((bodyBytes mixedLines ++ Utf8.encode ['ü']).map fun b => [b])
        ["é😀", "", "a\rb"] (some "ü") := by
  have hlines : ∀ line ∈ mixedLines, IsLine line.1 := by
    unfold IsLine
    decide
  have hlast : IsLine ['ü'] := by
    unfold IsLine
    decide
  have hc : ((bodyBytes mixedLines ++ Utf8.encode ['ü']).map fun b => [b]).flatten =
      bodyBytes mixedLines ++ Utf8.encode ['ü'] := by
    rw [← List.flatMap_def, List.flatMap_singleton']
  exact ⟨hlines, hlast, keeps_text.2.2 mixedLines ['ü'] _ hlines hlast hc⟩

end LineBuffer
end LanInference
