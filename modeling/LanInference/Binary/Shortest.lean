/-
# The fewest decimal digits that read back

The reals that round to a magnitude of the double format form an interval, with its ends if the
mantissa is even. The shortest decimal is sought on the grids of one digit, two digits and so on:
of each grid only the value's two neighbours can lie in the interval, and of two hits the nearer
is taken, a tie going to the even digit.

Key definitions: `Decimal`, `readsBack`, `shortest`.
-/
import LanInference.Binary.Magnitude

namespace LanInference

/-- The value `digits · 10^exponent`. -/
structure Decimal where
  digits : Nat
  exponent : Int
  deriving Repr, DecidableEq, Inhabited

namespace Decimal

def num (d : Decimal) : Nat := d.digits * .pow 10 d.exponent.toNat

def den (d : Decimal) : Nat := .pow 10 (-d.exponent).toNat

/-- Trailing zeros of the digits go into the exponent. -/
def normal (d : Decimal) : Decimal := go 20 d
where
  go : Nat → Decimal → Decimal
    | 0, d => d
    | n + 1, d =>
      if d.digits ≠ 0 ∧ d.digits % 10 = 0 then go n ⟨d.digits / 10, d.exponent + 1⟩ else d

end Decimal

namespace Magnitude

/-- Whether the gap to the next smaller double is half the gap to the next larger one. -/
def narrowBelow (x : Magnitude) : Bool :=
  x.mantissa == 1 <<< 52 && Format.double.least < x.exponent

/-- Whether a decimal lies in the interval of the reals that round to `x`: from halfway to the
neighbour below to halfway to the neighbour above, the ends included when the mantissa is even. -/
def readsBack (x : Magnitude) (d : Decimal) : Bool :=
  -- In quarters of the last place: the ends are `4 m - 2` (or `4 m - 1`) and `4 m + 2`.
  let low := 4 * x.mantissa - (if x.narrowBelow then 1 else 2)
  let high := 4 * x.mantissa + 2
  let v := (4 * d.num) <<< (-x.exponent).toNat
  let u := d.den <<< x.exponent.toNat
  if x.mantissa % 2 = 0 then low * u ≤ v && v ≤ high * u else low * u < v && v < high * u

/-- The least `k` with `x < 10^k`, found upwards from an estimate that is never too large. -/
def decimalScale (x : Magnitude) : Int :=
  let bits : Int := (x.mantissa.log2 : Int) + x.exponent
  go 3 (if 0 ≤ bits then bits * 30102 / 100000 else bits * 30103 / 100000)
where
  go : Nat → Int → Int
    | 0, k => k
    | n + 1, k =>
      if x.num * .pow 10 (-k).toNat < .pow 10 k.toNat * x.den then k else go n (k + 1)

/-- The neighbour of `x` on the grid of `n` significant digits that reads back, if there is one;
of two, the nearer. -/
def onGrid (x : Magnitude) (scale : Int) (n : Nat) : Option Decimal :=
  let e := scale - n
  let p := x.num * .pow 10 (-e).toNat
  let q := x.den * .pow 10 e.toNat
  let below : Decimal := ⟨p / q, e⟩
  let above : Decimal := ⟨p / q + 1, e⟩
  match x.readsBack below, x.readsBack above with
  | true, false => some below
  | false, true => some above
  | false, false => none
  | true, true => some ⟨roundHalfEven p q, e⟩

/-- The shortest decimal that reads back as the double `x`, the nearest to it of that length. -/
def shortest (x : Magnitude) : Decimal :=
  if x.mantissa = 0 then ⟨0, 0⟩
  else
    match (List.range 17).findSome? fun n => x.onGrid x.decimalScale (n + 1) with
    | some d => d.normal
    | none => (Decimal.mk ((x.mantissa * .pow 5 (-x.exponent).toNat) <<< x.exponent.toNat)
        (min x.exponent 0)).normal

end Magnitude
end LanInference
