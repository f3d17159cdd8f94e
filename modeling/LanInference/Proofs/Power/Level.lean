/-
# Levels as numbers

Levels are equal when both are numbers with one key, so a level equals itself unless it is no
number, and equal levels, such as the two zeros, equal the same levels. A clamped number is within
the bounds.

Key theorems: `Level.eq_self`, `Level.eq_congr`, `Level.isNaN_clamp`, `Level.clamp_bounds`.
-/
import LanInference.Power.Level

namespace LanInference
namespace Level

variable {x y : Level}

theorem eq_iff : x.eq y = true ↔ x.isNaN = false ∧ y.isNaN = false ∧ x.key = y.key := by
  simp [eq, and_assoc]

theorem le_iff : x.le y = true ↔ x.isNaN = false ∧ y.isNaN = false ∧ x.key ≤ y.key := by
  simp [le, and_assoc]

theorem lt_iff : x.lt y = true ↔ x.isNaN = false ∧ y.isNaN = false ∧ x.key < y.key := by
  simp [lt, and_assoc]

/-- A level equals itself unless it is no number. -/
@[simp] theorem eq_self (x : Level) : x.eq x = !x.isNaN := by simp [eq]

/-- Equal levels equal the same levels. -/
theorem eq_congr (h : x.eq y = true) (z : Level) : z.eq x = z.eq y := by
  obtain ⟨hx, hy, hkey⟩ := eq_iff.mp h
  simp only [eq, hx, hy, hkey]

/-! ### Clamping -/

/-- What is no number stays so, and a number stays one. -/
theorem isNaN_clamp (x : Level) : x.clamp.isNaN = x.isNaN := by
  unfold clamp
  split
  next h => rw [(lt_iff.mp h).1]; rfl
  next =>
    split
    next h => rw [(lt_iff.mp h).2.1]; rfl
    next => rfl

/-- **A clamped number is within the bounds.** -/
theorem clamp_bounds (h : x.isNaN = false) :
    zero.le x.clamp = true ∧ x.clamp.le one = true := by
  have hzero : zero.isNaN = false := rfl
  have hone : one.isNaN = false := rfl
  unfold clamp
  split
  next => exact ⟨rfl, rfl⟩
  next hlow =>
    split
    next => exact ⟨rfl, rfl⟩
    next hhigh =>
      simp only [lt_iff, h, hzero, hone, true_and, Int.not_lt] at hlow hhigh
      exact ⟨le_iff.mpr ⟨hzero, h, hlow⟩, le_iff.mpr ⟨h, hone, hhigh⟩⟩

end Level
end LanInference
