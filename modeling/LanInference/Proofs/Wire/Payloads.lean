/-
# Lines that carry a text

What a server writes for a piece of text, line by line: in newline-delimited JSON the object of a
message or of a response, in server-sent events the first choice of a chunk after `data:`. Each is
read as the delta of that text, whatever characters the text has. Lines that carry nothing are read
as no event.

Key definitions: `Ndjson.messageTree`, `Ndjson.responseTree`, `Ndjson.doneTree`, `Sse.chunkTree`,
`WireFormat.TextLine`, `WireFormat.doneLine`, `WireFormat.Filler`.
Key theorems: `WireFormat.TextLine.event?_eq`, `WireFormat.event?_doneLine`,
`WireFormat.Filler.event?_eq`.
-/
import Mathlib.Data.List.TakeWhile
import LanInference.Proofs.Wire.Decoding

namespace LanInference

open Json (Node Single)

theorem trim_blank {line : List Char} (h : ∀ c ∈ line, Text.isBlank c = true) :
    Text.trim line = [] := by
  rw [Text.trim, List.dropWhile_eq_nil_iff.mpr h]
  rfl

/-! ### Newline-delimited JSON -/

namespace Ndjson

def messageTree (t : String) : Node :=
  .ofMembers [("message", .ofMembers [("content", .ofString t)])]

def responseTree (t : String) : Node := .ofMembers [("response", .ofString t)]

def doneTree : Node := .ofMembers [("done", .bool true)]

theorem writable_content (t : String) :
    (Node.ofMembers [("content", .ofString t)]).Writable :=
  Node.writable_ofMembers _ (by simpa using Node.writable_ofString t)

theorem writable_messageTree (t : String) : (messageTree t).Writable :=
  Node.writable_ofMembers _ (by simpa using writable_content t)

theorem writable_responseTree (t : String) : (responseTree t).Writable :=
  Node.writable_ofMembers _ (by simpa using Node.writable_ofString t)

theorem writable_doneTree : doneTree.Writable :=
  Node.writable_ofMembers _ (by simp [Node.Writable])

/-- What an object says that has a text as its only content. -/
theorem single_content (t : String) :
    Single "content" Node.IsText (.ofMembers [("content", .ofString t)]) (some t) :=
  Json.single_ofMembers (.given (Node.ofString_ne_null t) (Node.isText_ofString t))

theorem event?_messageTree {t : String} (h : t ≠ "") :
    event? (messageTree t).write = some (.delta t) := by
  have hdescribes : Line.Describes
      (Node.valuesOf [("message", .ofMembers [("content", .ofString t)])])
      ⟨false, some (some t), none, none, none, none, none, none⟩ :=
    ⟨.absent, .given (Node.ofMembers_ne_null _) (single_content t), .absent, .absent, .absent,
      .absent, .absent, .absent⟩
  exact event?_write (writable_messageTree t) hdescribes (.message rfl rfl rfl h)

theorem event?_responseTree {t : String} (h : t ≠ "") :
    event? (responseTree t).write = some (.delta t) := by
  have hdescribes : Line.Describes (Node.valuesOf [("response", .ofString t)])
      ⟨false, none, some t, none, none, none, none, none⟩ :=
    ⟨.absent, .absent, .given (Node.ofString_ne_null t) (Node.isText_ofString t), .absent, .absent,
      .absent, .absent, .absent⟩
  exact event?_write (writable_responseTree t) hdescribes (.response rfl rfl nofun rfl h)

theorem event?_doneTree : event? doneTree.write = some .done := by
  have hdescribes : Line.Describes (Node.valuesOf [("done", .bool true)])
      ⟨true, none, none, none, none, none, none, none⟩ :=
    ⟨.given rfl, .absent, .absent, .absent, .absent, .absent, .absent, .absent⟩
  exact event?_write writable_doneTree hdescribes (.done rfl rfl)

theorem event?_blank {line : List Char} (h : ∀ c ∈ line, Text.isBlank c = true) :
    event? line = none := by
  rw [event?, trim_blank h]
  rfl

end Ndjson

/-! ### Server-sent events -/

namespace Sse

def chunkTree (t : String) : Node :=
  .ofMembers [("choices", .array [.ofMembers [("delta", .ofMembers [("content", .ofString t)])]])]

theorem writable_chunkTree (t : String) : (chunkTree t).Writable := by
  have hd : (Node.ofMembers [("delta", .ofMembers [("content", .ofString t)])]).Writable :=
    Node.writable_ofMembers _ (by simpa using Ndjson.writable_content t)
  exact Node.writable_ofMembers _ (by simpa using ⟨hd, trivial⟩)

theorem event?_chunkTree {t : String} (h : t ≠ "") (space : Bool) :
    event? (dataField ++ (if space then [' '] else []) ++ (chunkTree t).write) =
      some (.delta t) := by
  have hdelta : Single "delta" (Single "content" Node.IsText)
      (.ofMembers [("delta", .ofMembers [("content", .ofString t)])]) (some (some t)) :=
    Json.single_ofMembers (.given (Node.ofMembers_ne_null _) (Ndjson.single_content t))
  have hdescribes : Chunk.Describes
      (Node.valuesOf
        [("choices", .array [.ofMembers [("delta", .ofMembers [("content", .ofString t)])]])])
      ⟨[some (some t)], none⟩ :=
    ⟨.given ⟨_, rfl, .cons hdelta .nil⟩, .absent⟩
  exact event?_write (writable_chunkTree t) hdescribes (.text rfl rfl h) space

theorem event?_doneMark : event? (dataField ++ ' ' :: doneMark) = some .done := by decide

theorem payload?_of_head? {line : List Char} (h : line.head? ≠ some 'd') :
    payload? line = none := by
  rw [payload?.eq_def]
  split
  · exact absurd rfl h
  · exact absurd rfl h
  · rfl

theorem event?_of_head? {line : List Char} (h : line.head? ≠ some 'd') : event? line = none := by
  rw [event?, payload?_of_head? h]
  rfl

end Sse

/-! ### Both formats -/

namespace WireFormat

/-- The lines that carry a text. -/
inductive TextLine : WireFormat → String → List Char → Prop
  | message (t : String) : TextLine .ndjson t (Ndjson.messageTree t).write
  | response (t : String) : TextLine .ndjson t (Ndjson.responseTree t).write
  | chunk (t : String) (space : Bool) :
      TextLine .sse t (Sse.dataField ++ (if space then [' '] else []) ++ (Sse.chunkTree t).write)

/-- The line that ends a stream. -/
def doneLine : WireFormat → List Char
  | ndjson => Ndjson.doneTree.write
  | sse => Sse.dataField ++ ' ' :: Sse.doneMark

/-- How the lines start that server-sent events carry beside data: comments, event names and
identifiers. -/
def asideMarks : List (List Char) := [[':'], ['e', 'v', 'e', 'n', 't', ':'], ['i', 'd', ':']]

/-- The lines that carry nothing: blank ones, and in server-sent events those beside data. -/
inductive Filler : WireFormat → List Char → Prop
  | blank {format : WireFormat} {line : List Char} (h : ∀ c ∈ line, Text.isBlank c = true) :
      Filler format line
  | aside {line : List Char} (mark : List Char) (hm : mark ∈ asideMarks) (h : mark <+: line) :
      Filler .sse line

variable {format : WireFormat} {line : List Char} {t : String}

theorem TextLine.event?_eq (h : TextLine format t line) (ht : t ≠ "") :
    format.event? (String.ofList line) = some (.delta t) := by
  cases h with
  | message => simpa [event?] using Ndjson.event?_messageTree ht
  | response => simpa [event?] using Ndjson.event?_responseTree ht
  | chunk t space => simpa [event?] using Sse.event?_chunkTree ht space

theorem event?_doneLine (format : WireFormat) :
    format.event? (String.ofList format.doneLine) = some .done := by
  cases format with
  | ndjson => simpa [event?, doneLine] using Ndjson.event?_doneTree
  | sse => simpa [event?, doneLine] using Sse.event?_doneMark

/-- A line that carries a text has no control characters. -/
theorem TextLine.printable (h : TextLine format t line) : Json.Printable line := by
  cases h with
  | message => exact Json.printable_write _ (Ndjson.writable_messageTree t)
  | response => exact Json.printable_write _ (Ndjson.writable_responseTree t)
  | chunk t space =>
    have hdata : Json.Printable (Sse.dataField ++ if space then [' '] else []) := by
      cases space <;> simp [Json.Printable, Sse.dataField]
    exact hdata.append (Json.printable_write _ (Sse.writable_chunkTree t))

theorem printable_doneLine (format : WireFormat) : Json.Printable format.doneLine := by
  cases format with
  | ndjson => exact Json.printable_write _ Ndjson.writable_doneTree
  | sse => simp [Json.Printable, doneLine, Sse.dataField, Sse.doneMark]

/-- A line that carries nothing carries nothing either without a carriage return at its end. -/
theorem Filler.dropLast (h : Filler format line) (hr : line.getLast? = some '\r') :
    Filler format line.dropLast := by
  cases h with
  | blank h => exact .blank fun c hc => h c (List.dropLast_subset line hc)
  | aside mark hm h =>
    apply Filler.aside mark hm
    obtain ⟨rest, rfl⟩ := h
    have hne : rest ≠ [] := by
      rintro rfl
      simp only [asideMarks, List.mem_cons, List.not_mem_nil, or_false] at hm
      rcases hm with rfl | rfl | rfl <;> simp at hr
    rw [List.dropLast_append_of_ne_nil hne]
    exact List.prefix_append mark _

theorem Filler.event?_eq (h : Filler format line) : format.event? (String.ofList line) = none := by
  cases h with
  | blank h =>
    cases format with
    | ndjson => simpa [event?] using Ndjson.event?_blank h
    | sse =>
      have hd : line.head? ≠ some 'd' := fun hd => by
        have hb := h 'd' (List.mem_of_mem_head? hd)
        exact absurd hb (by decide)
      simpa [event?] using Sse.event?_of_head? hd
  | aside mark hm h =>
    obtain ⟨rest, rfl⟩ := h
    have hd : (mark ++ rest).head? ≠ some 'd' := by
      simp only [asideMarks, List.mem_cons, List.not_mem_nil, or_false] at hm
      rcases hm with rfl | rfl | rfl <;> simp
    simpa [event?] using Sse.event?_of_head? hd

end WireFormat
end LanInference
