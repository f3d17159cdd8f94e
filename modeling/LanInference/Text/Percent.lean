/-
# Percent escapes

A character that may not stand in a place of a URL is written as its UTF-8 bytes, each as a percent
sign and two upper-case hexadecimal digits.

Key definitions: `percentEncode`, `percentDecode`.
-/
import LanInference.Text.Digits
import LanInference.Text.Utf8

namespace LanInference
namespace Text

/-- A byte as a percent sign and two digits. -/
def percentByte (b : UInt8) : List Char := '%' :: (hexFixed 2 b.toNat).map Char.toUpper

/-- The text with every character that is not `plain` escaped. -/
def percentEncode (plain : Char → Bool) (cs : List Char) : List Char :=
  cs.flatMap fun c => if plain c then [c] else (Utf8.encode [c]).flatMap percentByte

/-- The bytes of a text, with each percent sign before two digits read as an escape. -/
def percentDecode : List Char → List UInt8
  | [] => []
  | '%' :: a :: b :: rest =>
    match hexDigit? a, hexDigit? b with
    | some m, some n => UInt8.ofNat (16 * m + n) :: percentDecode rest
    | _, _ => Utf8.encode ['%'] ++ percentDecode (a :: b :: rest)
  | c :: rest => Utf8.encode [c] ++ percentDecode rest

/-- A text of plain characters is kept as it is. -/
theorem percentEncode_of_forall (plain : Char → Bool) (cs : List Char)
    (h : ∀ c ∈ cs, plain c = true) : percentEncode plain cs = cs := by
  induction cs with
  | nil => rfl
  | cons c cs ih =>
    have hc := h c (by simp)
    have ih := ih fun d hd => h d (by simp [hd])
    simp only [percentEncode, List.flatMap_cons, hc, if_true] at ih ⊢
    rw [ih]; rfl

end Text
end LanInference
