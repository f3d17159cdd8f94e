/-
# Reading UTF-8, well formed or not

A reader takes one byte at a time and holds the character it is in the middle of. A byte that no
well-formed character continues with ends the held part, which is written as U+FFFD: one
replacement for each maximal ill-formed part. The same reader decides whether bytes are
well-formed UTF-8: they are if it made no replacement.

Key definitions: `Held`, `Reader`, `Reader.push`, `decodeLossy`, `decode?`, `encode`.
-/

namespace LanInference
namespace Utf8

/-- The character that stands for bytes which are not UTF-8. -/
def replacement : Char := Char.ofNat 0xFFFD

/-- A character whose first bytes have been read: the continuation bytes still owed, the least
and the greatest value of the next one, and the bits of the code point so far. -/
structure Held where
  owed : Nat
  low : UInt8
  high : UInt8
  code : Nat
  deriving Repr, DecidableEq

/-- What a byte between characters is: a whole character, the first byte of a longer one, or
nothing that UTF-8 starts with. -/
inductive Lead where
  | whole (c : Char)
  | first (held : Held)
  | ill
  deriving Repr, DecidableEq

/-- The leading byte's table. The ranges of the second byte leave out overlong forms, surrogates
and code points above U+10FFFF. -/
def Lead.ofByte (b : UInt8) : Lead :=
  if b < 0x80 then .whole (Char.ofNat b.toNat)
  else if b < 0xC2 then .ill
  else if b < 0xE0 then .first ⟨1, 0x80, 0xBF, b.toNat - 0xC0⟩
  else if b < 0xF0 then
    .first ⟨2, if b = 0xE0 then 0xA0 else 0x80, if b = 0xED then 0x9F else 0xBF, b.toNat - 0xE0⟩
  else if b < 0xF5 then
    .first ⟨3, if b = 0xF0 then 0x90 else 0x80, if b = 0xF4 then 0x8F else 0xBF, b.toNat - 0xF0⟩
  else .ill

/-- The state of a reader: the held part of a character, the characters read so far (the newest
first), and whether all bytes so far were well formed. -/
structure Reader where
  held : Option Held := none
  chars : List Char := []
  wellFormed : Bool := true
  deriving Repr, DecidableEq

namespace Reader

/-- A byte between characters. -/
def start (r : Reader) (b : UInt8) : Reader :=
  match Lead.ofByte b with
  | .whole c => { r with held := none, chars := c :: r.chars }
  | .first h => { r with held := some h }
  | .ill => { held := none, chars := replacement :: r.chars, wellFormed := false }

/-- The held part is given up: one replacement stands for it. -/
def giveUp (r : Reader) : Reader :=
  match r.held with
  | none => r
  | some _ => { held := none, chars := replacement :: r.chars, wellFormed := false }

/-- One more byte. -/
def push (r : Reader) (b : UInt8) : Reader :=
  match r.held with
  | none => r.start b
  | some h =>
    if h.low ≤ b && b ≤ h.high then
      let code := h.code * 64 + (b.toNat - 0x80)
      if h.owed = 1 then { r with held := none, chars := Char.ofNat code :: r.chars }
      else { r with held := some ⟨h.owed - 1, 0x80, 0xBF, code⟩ }
    else r.giveUp.start b

end Reader

/-- The reader after all of `bytes`, with a character cut off at the end given up. -/
def read (bytes : List UInt8) : Reader := (bytes.foldl Reader.push {}).giveUp

/-- The text of any bytes, each maximal ill-formed part replaced by U+FFFD. -/
def decodeLossy (bytes : List UInt8) : List Char := (read bytes).chars.reverse

/-- The text of well-formed bytes. -/
def decode? (bytes : List UInt8) : Option (List Char) :=
  let r := read bytes
  if r.wellFormed then some r.chars.reverse else none

/-- The bytes of a text. -/
def encode (cs : List Char) : List UInt8 := cs.flatMap String.utf8EncodeChar

end Utf8
end LanInference
