/-
# Binary floating-point magnitudes

A finite magnitude is `mantissa · 2^exponent`. `Format.nearest` rounds a ratio of natural numbers
to the nearest magnitude of a format, a half to the even mantissa, and answers nothing when the
ratio lies beyond the format's range. Products and quotients of magnitudes are rounded once.

Key definitions: `Magnitude`, `Format`, `Format.nearest`, `Format.double`, `Format.single`,
`roundHalfEven`.
-/

namespace LanInference

/-- The value `mantissa · 2^exponent`. -/
structure Magnitude where
  mantissa : Nat
  exponent : Int
  deriving Repr, DecidableEq, Inhabited

namespace Magnitude

def zero : Magnitude := ⟨0, 0⟩

/-- The numerator of the value over `den`. -/
def num (x : Magnitude) : Nat := x.mantissa <<< x.exponent.toNat

/-- The denominator of the value: a power of two. -/
def den (x : Magnitude) : Nat := 1 <<< (-x.exponent).toNat

end Magnitude

/-- The quotient rounded to the nearest natural number, a half to the even one. -/
def roundHalfEven (num den : Nat) : Nat :=
  let q := num / den
  let r := num % den
  if 2 * r < den then q
  else if den < 2 * r then q + 1
  else if q % 2 = 0 then q
  else q + 1

/-- A binary format: mantissas have at most `precision` bits, exponents lie between `least` and
`greatest`. -/
structure Format where
  precision : Nat
  least : Int
  greatest : Int
  deriving Repr, DecidableEq

namespace Format

/-- 64-bit floating point. -/
def double : Format := ⟨53, -1074, 971⟩

/-- 32-bit floating point. -/
def single : Format := ⟨24, -149, 104⟩

/-- The exponent at which `num / den` has exactly `precision` bits before the point, but never
less than the least one. -/
def exponentFor (f : Format) (num den : Nat) : Int :=
  let guess : Int := (num.log2 : Int) - den.log2 - f.precision
  -- The quotient lies between `2^(guess + precision - 1)` and `2^(guess + precision + 1)`.
  let wide := den <<< (guess + f.precision).toNat ≤ num <<< (-(guess + f.precision)).toNat
  max f.least (if wide then guess + 1 else guess)

/-- The magnitude of the format nearest to `num / den` for a positive `den`, a half to the even
mantissa; nothing if it would need an exponent above the greatest. -/
def nearest (f : Format) (num den : Nat) : Option Magnitude :=
  if num = 0 then some .zero
  else
    let e := f.exponentFor num den
    let m := roundHalfEven (num <<< (-e).toNat) (den <<< e.toNat)
    let x : Magnitude := if m = 1 <<< f.precision then ⟨1 <<< (f.precision - 1), e + 1⟩ else ⟨m, e⟩
    if m = 0 then some .zero else if x.exponent ≤ f.greatest then some x else none

/-- The product, rounded once. -/
def mul (f : Format) (x y : Magnitude) : Option Magnitude :=
  f.nearest (x.num * y.num) (x.den * y.den)

/-- The quotient by a magnitude that is not zero, rounded once. -/
def div (f : Format) (x y : Magnitude) : Option Magnitude :=
  f.nearest (x.num * y.den) (x.den * y.num)

/-- `10^n`, rounded. -/
def powerOfTen (f : Format) (n : Nat) : Option Magnitude := f.nearest (.pow 10 n) 1

end Format
end LanInference
