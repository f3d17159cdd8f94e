/-
# Digits read back

A number is read back from its decimal digits, and from its hexadecimal digits if their width holds
it. Hexadecimal digits have a value in either letter case, and in lower case they are the digits
that the value is written with.

Key theorems: `Text.hexDigit?_hexChar`, `Text.hexFixed_four`, `Text.exists_of_mem_hexFixed`,
`Text.hexValue?_hexFixed`, `Text.hexDigit?_eq_some_iff`, `Text.hexValue?_eq_some_iff`,
`Text.exists_of_mem_toDigits`, `Text.hexValue?_toDigits`, `Text.decimalValue_decimal`,
`Text.head?_decimal`, `Text.natural?_decimal`, `Text.natural?_eq_some_iff`, `Text.span_append`.
-/
import Mathlib.Algebra.Group.Nat.Defs
import Mathlib.Data.List.Induction
import Mathlib.Data.List.TakeDrop
import LanInference.Proofs.Text.Case
import LanInference.Text.Digits

namespace LanInference
namespace Text

theorem hexDigit?_hexChar {n : Nat} (h : n < 16) : hexDigit? (hexChar n) = some n := by
  have hall : ∀ k : Fin 16, hexDigit? (hexChar k) = some k.val := by decide
  exact hall ⟨n, h⟩

theorem le_hexChar {n : Nat} (h : n < 16) : 0x20 ≤ (hexChar n).toNat := by
  have hall : ∀ k : Fin 16, 0x20 ≤ (hexChar k).toNat := by decide
  exact hall ⟨n, h⟩

/-- The four digits of a unit, the most significant first. -/
theorem hexFixed_four (n : Nat) : hexFixed 4 n =
    [hexChar (n / 4096 % 16), hexChar (n / 256 % 16), hexChar (n / 16 % 16), hexChar (n % 16)] := by
  simp [hexFixed, Nat.div_div_eq_div_mul]

theorem length_hexFixed : ∀ (width n : Nat), (hexFixed width n).length = width
  | 0, _ => rfl
  | w + 1, n => by simp [hexFixed, length_hexFixed w]

/-- All the characters are digits of values below 16. -/
theorem exists_of_mem_hexFixed {c : Char} : ∀ {width n : Nat}, c ∈ hexFixed width n →
    ∃ k < 16, c = hexChar k
  | w + 1, n, h => by
    rcases List.mem_append.mp h with h | h
    · exact exists_of_mem_hexFixed h
    · exact ⟨n % 16, Nat.mod_lt n (by decide), List.mem_singleton.mp h⟩

/-- One more digit is worth itself, and those before it sixteen times what they were. -/
theorem hexValue?_concat (cs : List Char) (c : Char) :
    hexValue? (cs ++ [c]) = (hexValue? cs).bind fun n => (hexDigit? c).map (16 * n + ·) := by
  unfold hexValue?
  rw [List.foldlM_append]
  simp

/-- Digits of a fixed width have the value that the width leaves of a number. -/
theorem hexValue?_hexFixed : ∀ width n : Nat,
    hexValue? (hexFixed width n) = some (n % 16 ^ width)
  | 0, n => by simp [hexFixed, hexValue?, Nat.mod_one]
  | w + 1, n => by
    have hdigit : hexDigit? (hexChar (n % 16)) = some (n % 16) :=
      hexDigit?_hexChar (Nat.mod_lt n (by decide))
    have hsplit : n % 16 ^ (w + 1) = 16 * (n / 16 % 16 ^ w) + n % 16 := by
      rw [Nat.pow_succ', Nat.mod_mul, Nat.add_comm]
    rw [hexFixed, hexValue?_concat, hexValue?_hexFixed w (n / 16), hsplit, Option.bind_some,
      hdigit, Option.map_some]

theorem toNat_le_of_hexDigit? {c : Char} {k : Nat} (h : hexDigit? c = some k) : c.toNat ≤ 102 := by
  have hle : ∀ {d : Char}, c ≤ d → c.toNat ≤ d.toNat := fun hd => UInt32.le_iff_toNat_le.mp hd
  unfold hexDigit? at h
  split at h
  · rename_i hc
    exact Nat.le_trans (hle hc.2) (by decide)
  split at h
  · rename_i hc
    exact hle hc.2
  split at h
  · rename_i hc
    exact Nat.le_trans (hle hc.2) (by decide)
  · cases h

/-- A digit is the character of its value in lower case. -/
theorem hexDigit?_eq_some_iff {c : Char} {k : Nat} :
    hexDigit? c = some k ↔ k < 16 ∧ c.toLower = hexChar k := by
  constructor
  · intro h
    have hall : ∀ n < 103, ∀ k ∈ hexDigit? (Char.ofNat n),
        k < 16 ∧ (Char.ofNat n).toLower = hexChar k := by decide
    have hc := hall c.toNat (Nat.lt_succ_of_le (toNat_le_of_hexDigit? h)) k
    rw [Char.ofNat_toNat] at hc
    exact hc h
  · rintro ⟨hk, hc⟩
    rcases toLower_cases c with ⟨hlow, hhigh, hsum⟩ | ⟨_, hsame⟩
    · have hall : ∀ k < 16, 97 ≤ (hexChar k).toNat →
          hexDigit? (Char.ofNat ((hexChar k).toNat - 32)) = some k := by decide
      have hd := hall k hk (by rw [← hc]; omega)
      rwa [← hc, hsum, Nat.add_sub_cancel, Char.ofNat_toNat] at hd
    · rw [← hsame, hc, hexDigit?_hexChar hk]

/-- Hexadecimal digits of either case are those of their value, in lower case. -/
theorem hexValue?_eq_some_iff {cs : List Char} {n : Nat} :
    hexValue? cs = some n ↔ n < 16 ^ cs.length ∧ cs.map Char.toLower = hexFixed cs.length n := by
  induction cs using List.reverseRecOn generalizing n with
  | nil =>
    simp only [hexValue?, List.foldlM_nil, Option.pure_def, Option.some.injEq, List.length_nil,
      Nat.pow_zero, List.map_nil, hexFixed, and_true]
    omega
  | append_singleton cs c ih =>
    rw [hexValue?_concat, List.length_append, List.length_singleton, hexFixed, List.map_append,
      List.map_singleton, Nat.pow_succ]
    constructor
    · intro h
      obtain ⟨m, hm, h⟩ := Option.bind_eq_some_iff.mp h
      obtain ⟨k, hk, rfl⟩ := Option.map_eq_some_iff.mp h
      obtain ⟨hlt, hcs⟩ := ih.mp hm
      obtain ⟨hk16, hc⟩ := hexDigit?_eq_some_iff.mp hk
      have hdiv : (16 * m + k) / 16 = m := by omega
      have hmod : (16 * m + k) % 16 = k := by omega
      rw [hdiv, hmod, hcs, hc]
      exact ⟨by omega, rfl⟩
    · rintro ⟨hlt, h⟩
      have hlen : (cs.map Char.toLower).length = (hexFixed cs.length (n / 16)).length := by
        rw [List.length_map, length_hexFixed]
      obtain ⟨hcs, hc⟩ := List.append_inj h hlen
      have hm : hexValue? cs = some (n / 16) := ih.mpr ⟨by omega, hcs⟩
      have hk : hexDigit? c = some (n % 16) :=
        hexDigit?_eq_some_iff.mpr ⟨Nat.mod_lt n (by decide), List.singleton_inj.mp hc⟩
      rw [hm, Option.bind_some, hk, Option.map_some]
      exact congrArg some (by omega)

/-- The digits of a number are digits of values below the base. -/
theorem exists_of_mem_toDigits {b : Nat} (hb : 1 < b) {n : Nat} {c : Char}
    (h : c ∈ Nat.toDigits b n) : ∃ k < b, c = Nat.digitChar k := by
  induction n using Nat.strongRecOn with
  | ind n ih =>
    by_cases hn : n < b
    · rw [Nat.toDigits_of_lt_base hn, List.mem_singleton] at h
      exact ⟨n, hn, h⟩
    · rw [Nat.toDigits_of_base_le hb (by omega)] at h
      rcases List.mem_append.mp h with h | h
      · exact ih (n / b) (Nat.div_lt_self (by omega) hb) h
      · exact ⟨n % b, Nat.mod_lt n (by omega), List.mem_singleton.mp h⟩

theorem hexDigit?_digitChar {n : Nat} (h : n < 16) : hexDigit? (Nat.digitChar n) = some n := by
  have hall : ∀ k : Fin 16, hexDigit? (Nat.digitChar k) = some k.val := by decide
  exact hall ⟨n, h⟩

/-- No digit is a character that is not read as one. -/
theorem digitChar_ne {n : Nat} (h : n < 16) {c : Char} (hc : hexDigit? c = none) :
    Nat.digitChar n ≠ c := by
  rintro rfl
  rw [hexDigit?_digitChar h] at hc
  cases hc

/-- A number is read back from its hexadecimal digits without leading zeros. -/
theorem hexValue?_toDigits (n : Nat) : hexValue? (Nat.toDigits 16 n) = some n := by
  induction n using Nat.strongRecOn with
  | ind n ih =>
    by_cases hn : n < 16
    · rw [Nat.toDigits_of_lt_base hn]
      simp [hexValue?, hexDigit?_digitChar hn]
    · have hfront := ih (n / 16) (by omega)
      have hlast := hexDigit?_digitChar (Nat.mod_lt n (by decide : 0 < 16))
      rw [Nat.toDigits_of_base_le (by decide) (by omega), hexValue?_concat, hfront,
        Option.bind_some, hlast, Option.map_some]
      exact congrArg some (by omega)

theorem decimalValue_decimal (n : Nat) : decimalValue (decimal n) = n := by
  have h : decimalValue (decimal n) = Nat.ofDigitChars 10 (Nat.toDigits 10 n) 0 := rfl
  rw [h, Nat.ofDigitChars_ten_toDigits]

theorem isDigit_of_mem_decimal {n : Nat} {c : Char} (h : c ∈ decimal n) : c.isDigit = true :=
  Nat.isDigit_of_mem_toDigits (by decide) (by decide) h

/-- A number of several digits does not start with a zero. -/
theorem head?_decimal {n : Nat} (h : (decimal n).head? = some '0') : (decimal n).length = 1 := by
  induction n using Nat.strongRecOn with
  | ind n ih =>
    by_cases hn : n < 10
    · rw [decimal, Nat.toDigits_of_lt_base hn]
      rfl
    · have hsplit : decimal n = decimal (n / 10) ++ [Nat.digitChar (n % 10)] :=
        Nat.toDigits_of_base_le (by decide) (by omega)
      obtain ⟨c, cs, hfront⟩ :=
        List.exists_cons_of_ne_nil (Nat.toDigits_ne_nil (n := n / 10) (b := 10))
      rw [hsplit, decimal, hfront] at h
      have hc : c = '0' := Option.some.inj h
      have hone := ih (n / 10) (by omega) (by rw [decimal, hfront, hc]; rfl)
      -- Nothing but the zero stands in front of the last digit, so the number is below ten.
      rw [decimal, hfront, List.length_cons] at hone
      have hnil : cs = [] := List.eq_nil_of_length_eq_zero (by omega)
      have hvalue := decimalValue_decimal (n / 10)
      rw [decimal, hfront, hnil, hc] at hvalue
      have hzero : n / 10 = 0 := hvalue.symm
      omega

/-- A number below the bound is read back from its decimal digits. -/
theorem natural?_decimal {n bound : Nat} (h : n < bound) :
    natural? bound (decimal n) = some n := by
  have hne : decimal n ≠ [] := Nat.toDigits_ne_nil
  have hall : (decimal n).all Char.isDigit = true :=
    List.all_eq_true.mpr fun c hc => isDigit_of_mem_decimal hc
  have hplus : ∀ rest, decimal n ≠ '+' :: rest := by
    intro rest hrest
    have hdigit : Char.isDigit '+' = true :=
      isDigit_of_mem_decimal (n := n) (by rw [hrest]; exact List.mem_cons_self)
    exact absurd hdigit (by decide)
  unfold natural?
  dsimp only
  split
  · rename_i rest hrest
    exact absurd hrest (hplus rest)
  · rw [decimalValue_decimal, if_pos ⟨hne, hall, h⟩]

theorem natural?_of_ne {bound : Nat} {cs : List Char} (h : ∀ rest, cs ≠ '+' :: rest) :
    natural? bound cs = natural? bound ('+' :: cs) := by
  unfold natural?
  dsimp only
  split
  · exact absurd rfl (h _)
  · rfl

theorem natural?_plus {bound n : Nat} {ds : List Char} :
    natural? bound ('+' :: ds) = some n ↔ n < bound ∧ ds ≠ [] ∧ (∀ d ∈ ds, d.isDigit = true) ∧
      Nat.ofDigitChars 10 ds 0 = n := by
  have hread : natural? bound ('+' :: ds) =
      if ds ≠ [] ∧ ds.all Char.isDigit ∧ Nat.ofDigitChars 10 ds 0 < bound then
        some (Nat.ofDigitChars 10 ds 0) else none := rfl
  rw [hread]
  constructor
  · intro h
    split at h
    · rename_i hds
      cases h
      exact ⟨hds.2.2, hds.1, List.all_eq_true.mp hds.2.1, rfl⟩
    · cases h
  · rintro ⟨hlt, hne, hall, rfl⟩
    rw [if_pos ⟨hne, List.all_eq_true.mpr hall, hlt⟩]

/-- A number is read from its decimal digits, with a plus sign or none, and only if it is below the
bound. -/
theorem natural?_eq_some_iff {bound n : Nat} {cs : List Char} :
    natural? bound cs = some n ↔ n < bound ∧ ∃ ds, (cs = ds ∨ cs = '+' :: ds) ∧ ds ≠ [] ∧
      (∀ d ∈ ds, d.isDigit = true) ∧ Nat.ofDigitChars 10 ds 0 = n := by
  constructor
  · intro h
    by_cases hplus : ∃ rest, cs = '+' :: rest
    · obtain ⟨ds, rfl⟩ := hplus
      obtain ⟨hlt, hds⟩ := natural?_plus.mp h
      exact ⟨hlt, ds, .inr rfl, hds⟩
    · rw [natural?_of_ne fun rest hrest => hplus ⟨rest, hrest⟩] at h
      obtain ⟨hlt, hds⟩ := natural?_plus.mp h
      exact ⟨hlt, cs, .inl rfl, hds⟩
  · rintro ⟨hlt, ds, rfl | rfl, hds⟩
    · have hplus : ∀ rest, cs ≠ '+' :: rest := by
        rintro rest rfl
        exact absurd (hds.2.1 '+' List.mem_cons_self) (by decide)
      rw [natural?_of_ne hplus]
      exact natural?_plus.mpr ⟨hlt, hds⟩
    · exact natural?_plus.mpr ⟨hlt, hds⟩

/-- A run of characters ends where something else starts. -/
theorem span_append {p : Char → Bool} {ds rest : List Char} (h : ∀ c ∈ ds, p c = true)
    (hr : ∀ c, rest.head? = some c → p c = false) : (ds ++ rest).span p = (ds, rest) := by
  rw [List.span_eq_takeWhile_dropWhile, List.takeWhile_append_of_pos h,
    List.dropWhile_append_of_pos h]
  cases rest with
  | nil => simp
  | cons c rest => simp [hr c rfl]

end Text
end LanInference
