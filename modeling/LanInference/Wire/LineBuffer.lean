/-
# Lines from a chunked body

A body arrives in pieces of any size. The buffer holds the bytes of the line that is not complete
yet, and gives each line when its newline arrives, without the newline and without one carriage
return before it.

Key definitions: `LineBuffer`, `LineBuffer.push`, `LineBuffer.takeRest`, `decodeLine`.
-/
import LanInference.Text.Utf8

namespace LanInference

/-- The text of a line's bytes, given the last byte first: one carriage return at the end does not
belong to it. -/
def decodeLine (reversed : List UInt8) : String :=
  let bytes := match reversed with
    | 13 :: rest => rest
    | _ => reversed
  String.ofList (Utf8.decodeLossy bytes.reverse)

/-- The bytes after the last newline, the newest first. -/
structure LineBuffer where
  held : List UInt8 := []
  deriving Repr, DecidableEq

namespace LineBuffer

/-- The newline, which ends a line. -/
def newline : UInt8 := 10

/-- One more byte: the buffer after it, and the lines completed so far with the newest first. -/
def pushByte (s : LineBuffer × List String) (b : UInt8) : LineBuffer × List String :=
  if b = newline then (⟨[]⟩, decodeLine s.1.held :: s.2) else (⟨b :: s.1.held⟩, s.2)

/-- More bytes: the buffer after them and the lines they complete. -/
def push (buffer : LineBuffer) (bytes : List UInt8) : LineBuffer × List String :=
  let (buffer, lines) := bytes.foldl pushByte (buffer, [])
  (buffer, lines.reverse)

/-- What stands after the last newline, if anything does; the buffer is empty afterwards. -/
def takeRest (buffer : LineBuffer) : LineBuffer × Option String :=
  (⟨[]⟩, if buffer.held.isEmpty then none else some (decodeLine buffer.held))

end LineBuffer
end LanInference
