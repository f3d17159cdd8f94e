/-
# JSON values

A value is what a program gets from a JSON text whose members it does not know beforehand. An
object keeps its members as they came, and of two with one key the last counts. Numbers are
integers of 64 bits where they are written as such, and doubles otherwise.

Key definitions: `Number`, `Value`, `Literal.number?`, `Literal.double?`, `Node.value?`,
`Value.member?`.
-/
import LanInference.Binary.Magnitude
import LanInference.Json.Node

namespace LanInference
namespace Json

/-- A number: an integer, or a double by its sign and magnitude. -/
inductive Number where
  | integer (i : Int)
  | double (negative : Bool) (x : Magnitude)
  deriving Repr, DecidableEq, Inhabited

inductive Value where
  | null
  | bool (b : Bool)
  | number (n : Number)
  | string (s : String)
  | array (xs : List Value)
  | object (ms : List (String × Value))
  deriving Repr, Inhabited

/-- The value of the last member with this key. -/
def Value.member? (key : String) (ms : List (String × Value)) : Option Value :=
  (ms.reverse.find? (·.1 = key)).map (·.2)

/-! ### Numbers from digits -/

/-- The first integer that 64 bits do not hold. -/
def wordBound : Nat := UInt64.size

/-- The value of the longest run of leading digits that, read on from `n`, stays below
`wordBound`, with the number of digits left. -/
def significand (n : Nat) : List Char → Nat × Nat
  | [] => (n, 0)
  | c :: cs =>
    let next := 10 * n + Text.digitValue c
    if next < wordBound then significand next cs else (n, cs.length + 1)

/-- `n · 10^e` in doubles: `n` is rounded, then multiplied or divided by a rounded power of ten,
each operation rounding once; powers beyond `10^308` are divided by in two steps. Nothing if the
result is out of range. -/
def scaled (n : Nat) (e : Int) : Option Magnitude := do
  let x ← Format.double.nearest n 1
  if 0 ≤ e then
    if e ≤ 308 then Format.double.mul x (← Format.double.powerOfTen e.toNat)
    else if n = 0 then some .zero else none
  else if -308 ≤ e then Format.double.div x (← Format.double.powerOfTen (-e).toNat)
  else if -616 ≤ e then
    let y ← Format.double.div x (← Format.double.powerOfTen 308)
    Format.double.div y (← Format.double.powerOfTen (-e - 308).toNat)
  else some .zero

namespace Literal

/-- Whether the number is written with neither point nor exponent. -/
def isWhole (n : Literal) : Bool := n.fraction.isNone && n.exponent.isNone

/-- The exponent as written. -/
def exponentValue (n : Literal) : Int :=
  match n.exponent with
  | none => 0
  | some (true, ds) => -(Text.decimalValue ds : Int)
  | some (false, ds) => Text.decimalValue ds

/-- The double of a number as written: the digits that fit a word are its significand, each digit
left of the point beyond them counts a power of ten, and the digits right of the point are read
on as far as they fit. -/
def double? (n : Literal) : Option Magnitude :=
  let (whole, dropped) := significand 0 n.whole
  let (sig, used) : Nat × Nat := match n.fraction with
    | none => (whole, 0)
    | some ds =>
      let (sig, left) := significand whole ds
      (sig, ds.length - left)
  scaled sig (n.exponentValue + dropped - used)

/-- The number of a literal: an integer between `-2^63` and `2^64` if it is written whole (and is
not a negative zero), otherwise a double; nothing if it lies beyond the doubles. -/
def number? (n : Literal) : Option Number :=
  let i := Text.decimalValue n.whole
  if n.isWhole ∧ ¬ n.negative ∧ i < wordBound then some (.integer i)
  else if n.isWhole ∧ n.negative ∧ 0 < i ∧ i ≤ 0x8000000000000000 then some (.integer (-(i : Int)))
  else n.double?.map (.double n.negative)

/-- The natural number below `bound` that a literal writes without sign, point or exponent. -/
def natural? (bound : Nat) (n : Literal) : Option Nat :=
  let i := Text.decimalValue n.whole
  if n.isWhole ∧ ¬ n.negative ∧ i < bound then some i else none

end Literal

/-! ### Values from trees -/

/-- Containers may be nested 127 deep in a text that is read as a value. -/
def depthLimit : Nat := 127

namespace Node

mutual

/-- The value of a tree that stands inside `depth` containers. Strings must be texts, numbers must
be in range, and nesting must stay within the limit. -/
def value? (depth : Nat) : Node → Option Value
  | .null => some .null
  | .bool b => some (.bool b)
  | .number n => n.number?.map .number
  | .string ps => (text? ps).map fun cs => .string (String.ofList cs)
  | .array xs =>
    if depth < depthLimit then (itemValues? (depth + 1) [] xs).map .array else none
  | .object ms =>
    if depth < depthLimit then (memberValues? (depth + 1) [] ms).map .object else none

/-- The values of an array's items after those in `acc`, which has the newest first. -/
def itemValues? (depth : Nat) (acc : List Value) : List Node → Option (List Value)
  | [] => some acc.reverse
  | x :: xs =>
    match value? depth x with
    | some v => itemValues? depth (v :: acc) xs
    | none => none

/-- The members of an object after those in `acc`, which has the newest first. -/
def memberValues? (depth : Nat) (acc : List (String × Value)) :
    List (List Piece × Node) → Option (List (String × Value))
  | [] => some acc.reverse
  | (k, x) :: ms =>
    match text? k, value? depth x with
    | some k, some v => memberValues? depth ((String.ofList k, v) :: acc) ms
    | _, _ => none

end

end Node

end Json
end LanInference
