/-
# Punycode

A text is written in ASCII as its ASCII characters and, behind a hyphen, the others: in ascending
order, each as its distance from the one before, counted in code points and places at once. A
distance is a number in digits of base 36, the least one first, and a digit below a threshold is the
last one. The thresholds follow from the digit's place and from a bias that is fitted to the
distances so far.

Key definitions: `threshold`, `fitted`, `Encoder`, `encode`, `Decoder`, `decode?`.
Key theorems: `digit?_digitChar`.
-/
import LanInference.Text.Digits

namespace LanInference
namespace Punycode

/-! ### Digits -/

/-- The digit of a value below 36: letters first. -/
def digitChar (n : Nat) : Char :=
  if n < 26 then Char.ofNat ('a'.toNat + n) else Char.ofNat ('0'.toNat + (n - 26))

def digit? (c : Char) : Option Nat :=
  if c.isDigit then some (26 + Text.digitValue c)
  else if c.isAlpha then some (c.toLower.toNat - 'a'.toNat)
  else none

/-- A digit reads back. -/
theorem digit?_digitChar {n : Nat} (h : n < 36) : digit? (digitChar n) = some n :=
  (by decide : ∀ n < 36, digit? (digitChar n) = some n) n h

/-- The threshold at a place, which is counted in steps of 36. -/
def threshold (bias place : Nat) : Nat := min 26 (max 1 (place - bias))

theorem threshold_pos (bias place : Nat) : 0 < threshold bias place := by
  unfold threshold; omega

/-- The number of steps in which a distance comes down to a digit's reach, times 36, and what is
left of it. -/
def reduced (steps distance : Nat) : Nat × Nat :=
  if 455 < distance then reduced (steps + 36) (distance / 35) else (steps, distance)
termination_by distance

/-- The bias after a distance that ends in a text of `count` characters. -/
def fitted (distance count : Nat) (isFirst : Bool) : Nat :=
  let distance := distance / (if isFirst then 700 else 2)
  let (steps, rest) := reduced 0 (distance + distance / count)
  steps + 36 * rest / (rest + 38)

/-- The bias before the first distance. -/
def firstBias : Nat := 72

/-! ### Writing -/

/-- The digits of a distance from a place on. -/
def digits (bias place n : Nat) : List Char :=
  let t := threshold bias place
  if n < t then [digitChar n]
  else digitChar (t + (n - t) % (36 - t)) :: digits bias (place + 36) ((n - t) / (36 - t))
termination_by n
decreasing_by
  have := threshold_pos bias place
  have := Nat.div_le_self (n - threshold bias place) (36 - threshold bias place)
  omega

/-- What is written so far: the distance since the last character written, the bias, the number of
characters written, and the digits. -/
structure Encoder where
  distance : Nat := 0
  bias : Nat := firstBias
  count : Nat
  isFirst : Bool := true
  out : List Char := []

namespace Encoder

/-- One character of the text is passed while those of a code point are written. -/
def pass (code : Nat) (e : Encoder) (c : Char) : Encoder :=
  if c.toNat < code then { e with distance := e.distance + 1 }
  else if c.toNat = code then
    { distance := 0
      bias := fitted e.distance (e.count + 1) e.isFirst
      count := e.count + 1
      isFirst := false
      out := e.out ++ digits e.bias 36 e.distance }
  else e

/-- The code points are written one after the other, each after those before `next`. -/
def writeCodes (cs : List Char) (next : Nat) (e : Encoder) : List Nat → Encoder
  | [] => e
  | code :: codes =>
    let e := { e with distance := e.distance + (code - next) * (e.count + 1) }
    let e := cs.foldl (pass code) e
    writeCodes cs (code + 1) { e with distance := e.distance + 1 } codes

end Encoder

def encode (cs : List Char) : List Char :=
  let (ascii, others) := cs.partition (·.toNat < 0x80)
  let codes := ((others.map Char.toNat).mergeSort).eraseDups
  let start := if ascii = [] then [] else ascii ++ ['-']
  start ++ (Encoder.writeCodes cs 0x80 { count := ascii.length } codes).out

/-! ### Reading -/

/-- What is read so far: the text, the code point and the place where the last character was put
in, and the distance that is being read, with the weight and the place of its next digit. -/
structure Decoder where
  out : List Char
  code : Nat := 0x80
  position : Nat := 0
  bias : Nat := firstBias
  distance : Nat := 0
  weight : Nat := 1
  place : Nat := 36

namespace Decoder

/-- Distances and weights are words of 32 bits. -/
def limit : Nat := UInt32.size

/-- A distance is complete: its character is put in. -/
def insert? (d : Decoder) : Option Decoder :=
  let size := d.out.length + 1
  let total := d.position + d.distance
  let code := d.code + total / size
  let position := total % size
  if h : code.isValidChar then
    some {
      out := d.out.insertIdx position (Char.ofNatAux code h)
      code
      position := position + 1
      bias := fitted d.distance size (d.position = 0) }
  else none

def push? (d : Decoder) (c : Char) : Option Decoder := do
  let n ← digit? c
  let t := threshold d.bias d.place
  let e := { d with distance := d.distance + n * d.weight }
  if limit ≤ d.position + e.distance then none
  else if n < t then e.insert?
  else if limit ≤ d.weight * (36 - t) then none
  else some { e with weight := d.weight * (36 - t), place := d.place + 36 }

end Decoder

/-- The text of a code, unless it ends within a distance. -/
def decode? (cs : List Char) : Option (List Char) := do
  let behind := (cs.reverse.takeWhile (· ≠ '-')).reverse
  let ascii := cs.take (cs.length - behind.length - 1)
  let ds := if ascii = [] then cs else behind
  let d ← ds.foldlM Decoder.push? { out := ascii }
  if d.place = 36 then some d.out else none

end Punycode
end LanInference
