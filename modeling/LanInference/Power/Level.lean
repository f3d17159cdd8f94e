/-
# Battery levels

A level is a 32-bit floating-point number, kept by its bits. Levels that are numbers are ordered by
an integer key, so the two zeros are equal; what is not a number is equal to nothing and neither
above nor below anything.

Key definitions: `Level`, `Level.isNaN`, `Level.key`, `Level.eq`, `Level.le`, `Level.lt`,
`Level.clamp`, `Level.nearest`.
-/
import LanInference.Binary.Magnitude

namespace LanInference

/-- A battery level by the bits of its 32-bit floating-point number. -/
structure Level where
  bits : UInt32
  deriving Repr, DecidableEq

namespace Level

/-- The bits without the sign. -/
def magnitude (x : Level) : Nat := x.bits.toNat % 0x80000000

/-- Whether the sign bit is set. -/
def negative (x : Level) : Bool := 0x80000000 ≤ x.bits.toNat

/-- Whether the bits stand for no number: above those of infinity. -/
def isNaN (x : Level) : Bool := 0x7F800000 < x.magnitude

/-- The place of a number in the order of all numbers. -/
def key (x : Level) : Int := if x.negative then -(x.magnitude : Int) else x.magnitude

/-- Equality of levels as numbers. -/
def eq (x y : Level) : Bool := !x.isNaN && !y.isNaN && x.key == y.key

def le (x y : Level) : Bool := !x.isNaN && !y.isNaN && decide (x.key ≤ y.key)

def lt (x y : Level) : Bool := !x.isNaN && !y.isNaN && decide (x.key < y.key)

def zero : Level := ⟨0⟩

def one : Level := ⟨0x3F800000⟩

def half : Level := ⟨0x3F000000⟩

/-- The level nearest to one fifth. -/
def oneFifth : Level := ⟨0x3E4CCCCD⟩

def nan : Level := ⟨0x7FC00000⟩

def infinity (negative : Bool) : Level := ⟨if negative then 0xFF800000 else 0x7F800000⟩

/-- The level at the bounds of 0 and 1; what is not a number stays so. -/
def clamp (x : Level) : Level := if x.lt zero then zero else if one.lt x then one else x

/-- The level of a magnitude of the single format, or infinity. -/
def ofMagnitude (negative : Bool) (x : Option Magnitude) : Level :=
  let sign : Nat := if negative then 0x80000000 else 0
  match x with
  | none => infinity negative
  | some x =>
    -- A normal number has its leading bit implied, and its exponent counted from 1.
    let body := if x.mantissa < 0x800000 then x.mantissa
      else (x.exponent - Format.single.least + 1).toNat * 0x800000 + (x.mantissa - 0x800000)
    ⟨UInt32.ofNat (sign + body)⟩

/-- The level nearest to `num / den` for a positive `den`. -/
def nearest (negative : Bool) (num den : Nat) : Level :=
  ofMagnitude negative (Format.single.nearest num den)

/-- The level nearest to the double that is nearest to `num / den`. -/
def nearestOfDouble (negative : Bool) (num den : Nat) : Level :=
  ofMagnitude negative ((Format.double.nearest num den).bind fun x =>
    Format.single.nearest x.num x.den)

end Level
end LanInference
