/-
# Letter case

Writing a text in lower case moves the 26 capital letters of ASCII and leaves every other character
as it is, so it keeps the number of characters and the number of bytes.

Key theorems: `toLower_cases`, `toLower_eq_iff`, `utf8ByteSize_map_toLower`.
-/

namespace LanInference

/-- A capital letter comes 32 places before its small one, and no other character changes. -/
theorem toLower_cases (c : Char) :
    (65 ≤ c.toNat ∧ c.toNat ≤ 90 ∧ c.toLower.toNat = c.toNat + 32) ∨
      (¬ (65 ≤ c.toNat ∧ c.toNat ≤ 90) ∧ c.toLower = c) := by
  unfold Char.toLower
  split
  · rename_i h
    have hlow : 65 ≤ c.toNat := UInt32.le_iff_toNat_le.mp h.1
    have hhigh : c.toNat ≤ 90 := UInt32.le_iff_toNat_le.mp h.2
    refine .inl ⟨hlow, hhigh, ?_⟩
    show (c.toNat + 32) % 4294967296 = c.toNat + 32
    omega
  · rename_i h
    exact .inr ⟨fun hb => h ⟨UInt32.le_iff_toNat_le.mpr hb.1, UInt32.le_iff_toNat_le.mpr hb.2⟩, rfl⟩

theorem isAlpha_iff (c : Char) : c.isAlpha = true ↔
    (65 ≤ c.toNat ∧ c.toNat ≤ 90) ∨ (97 ≤ c.toNat ∧ c.toNat ≤ 122) := by
  have hupper : c.isUpper = true ↔ 65 ≤ c.toNat ∧ c.toNat ≤ 90 := by
    show decide (65 ≤ c.val ∧ c.val ≤ 90) = true ↔ _
    rw [decide_eq_true_iff, UInt32.le_iff_toNat_le, UInt32.le_iff_toNat_le]
    rfl
  have hlower : c.isLower = true ↔ 97 ≤ c.toNat ∧ c.toNat ≤ 122 := by
    show (decide (97 ≤ c.val) && decide (c.val ≤ 122)) = true ↔ _
    rw [Bool.and_eq_true, decide_eq_true_iff, decide_eq_true_iff, UInt32.le_iff_toNat_le,
      UInt32.le_iff_toNat_le]
    rfl
  show (c.isUpper || c.isLower) = true ↔ _
  rw [Bool.or_eq_true, hupper, hlower]

/-- No letter becomes another character in lower case, and no other character changes. -/
theorem toLower_eq_iff {d : Char} (hd : d.isAlpha = false) (c : Char) : c.toLower = d ↔ c = d := by
  have hout : ¬ d.isAlpha = true := by simp [hd]
  rw [isAlpha_iff] at hout
  rcases toLower_cases c with ⟨hlow, hhigh, hsum⟩ | ⟨-, hsame⟩
  · constructor
    · rintro rfl
      omega
    · rintro rfl
      omega
  · rw [hsame]

theorem utf8Size_toLower (c : Char) : c.toLower.utf8Size = c.utf8Size := by
  rcases toLower_cases c with ⟨hlow, hhigh, hsum⟩ | ⟨-, hsame⟩
  · have hone : ∀ {d : Char}, d.toNat ≤ 127 → d.utf8Size = 1 := fun hd =>
      Char.utf8Size_eq_one_iff.mpr (UInt32.le_iff_toNat_le.mpr hd)
    rw [hone (by omega), hone (by omega)]
  · rw [hsame]

/-- A text has as many bytes in lower case. -/
theorem utf8ByteSize_map_toLower (s : String) :
    (s.map Char.toLower).utf8ByteSize = s.utf8ByteSize := by
  have hlist : ∀ cs : List Char, (String.ofList (cs.map Char.toLower)).utf8ByteSize =
      (String.ofList cs).utf8ByteSize := by
    intro cs
    induction cs with
    | nil => rfl
    | cons c cs ih =>
      rw [List.map_cons, String.ofList_cons, String.ofList_cons, String.utf8ByteSize_append,
        String.utf8ByteSize_append, String.utf8ByteSize_singleton, String.utf8ByteSize_singleton,
        utf8Size_toLower, ih]
  rw [String.map_eq_internal, hlist, String.ofList_toList]

end LanInference
