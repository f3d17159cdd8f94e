/-
# Text survives UTF-8

The reader takes back every text from its encoding, without a replacement, and without one it takes
nothing else. Bytes below 128 stand for themselves only, so a newline or a carriage return in the
encoding is one in the text, and one in what is read from any bytes is one of these.

Key definitions: `Utf8.Reader.Finishes`, `Utf8.Held.Beyond`, `Utf8.Reader.Stems`.
Key theorems: `Utf8.Reader.foldl_push_encodeChar`, `Utf8.decodeLossy_encode`, `Utf8.decode?_encode`,
`Utf8.mem_encode_ascii`, `Utf8.getLast?_encode_ascii`, `Utf8.Reader.Finishes.exists_char`,
`Utf8.decode?_eq_some_iff`, `Utf8.Reader.Stems.push`, `Utf8.mem_of_mem_decodeLossy`.
-/
import Mathlib.Algebra.Group.Nat.Defs
import LanInference.Text.Utf8

namespace LanInference
namespace Utf8

theorem encode_append (cs ds : List Char) : encode (cs ++ ds) = encode cs ++ encode ds :=
  List.flatMap_append

theorem encode_cons (c : Char) (cs : List Char) :
    encode (c :: cs) = String.utf8EncodeChar c ++ encode cs := List.flatMap_cons

theorem toNat_ofNat {n : Nat} (h : n < 256) : (UInt8.ofNat n).toNat = n :=
  UInt8.toNat_ofNat_of_lt h

theorem ofNat_lt_iff {n : Nat} (h : n < 256) (b : UInt8) : UInt8.ofNat n < b ↔ n < b.toNat := by
  rw [UInt8.lt_iff_toNat_lt, toNat_ofNat h]

theorem ofNat_eq_iff {n : Nat} (h : n < 256) (b : UInt8) : UInt8.ofNat n = b ↔ n = b.toNat := by
  rw [← UInt8.toNat_inj, toNat_ofNat h]

/-! ### First bytes -/

/-- The leading byte's table, in numbers. -/
theorem ofByte_ofNat {n : Nat} (h : n < 256) : Lead.ofByte (UInt8.ofNat n) =
    if n < 0x80 then .whole (Char.ofNat n)
    else if n < 0xC2 then .ill
    else if n < 0xE0 then .first ⟨1, 0x80, 0xBF, n - 0xC0⟩
    else if n < 0xF0 then
      .first ⟨2, if n = 0xE0 then 0xA0 else 0x80, if n = 0xED then 0x9F else 0xBF, n - 0xE0⟩
    else if n < 0xF5 then
      .first ⟨3, if n = 0xF0 then 0x90 else 0x80, if n = 0xF4 then 0x8F else 0xBF, n - 0xF0⟩
    else .ill := by
  simp only [Lead.ofByte, ofNat_lt_iff h, ofNat_eq_iff h, toNat_ofNat h]
  rfl

theorem lead_one {n : Nat} (h : n < 0x80) :
    Lead.ofByte (UInt8.ofNat n) = .whole (Char.ofNat n) := by
  rw [ofByte_ofNat (by omega), if_pos h]

theorem lead_two {n : Nat} (h : 0xC2 ≤ n) (h' : n < 0xE0) :
    Lead.ofByte (UInt8.ofNat n) = .first ⟨1, 0x80, 0xBF, n - 0xC0⟩ := by
  rw [ofByte_ofNat (by omega), if_neg (by omega), if_neg (by omega), if_pos h']

theorem lead_three {n : Nat} (h : 0xE0 ≤ n) (h' : n < 0xF0) :
    Lead.ofByte (UInt8.ofNat n) =
      .first ⟨2, if n = 0xE0 then 0xA0 else 0x80, if n = 0xED then 0x9F else 0xBF, n - 0xE0⟩ := by
  rw [ofByte_ofNat (by omega), if_neg (by omega), if_neg (by omega), if_neg (by omega), if_pos h']

theorem lead_four {n : Nat} (h : 0xF0 ≤ n) (h' : n < 0xF5) :
    Lead.ofByte (UInt8.ofNat n) =
      .first ⟨3, if n = 0xF0 then 0x90 else 0x80, if n = 0xF4 then 0x8F else 0xBF, n - 0xF0⟩ := by
  rw [ofByte_ofNat (by omega), if_neg (by omega), if_neg (by omega), if_neg (by omega),
    if_neg (by omega), if_pos h']

/-! ### The reader over one character -/

namespace Reader

variable (cs : List Char) (w : Bool)

theorem push_first {n : Nat} {h : Held} (hl : Lead.ofByte (UInt8.ofNat n) = .first h) :
    (⟨none, cs, w⟩ : Reader).push (UInt8.ofNat n) = ⟨some h, cs, w⟩ := by
  simp only [push, start, hl]

/-- A byte in the range that is owed next. -/
theorem push_owed {n owed code : Nat} {low high : UInt8} (hn : n < 256) (hl : low.toNat ≤ n)
    (hh : n ≤ high.toNat) :
    (⟨some ⟨owed, low, high, code⟩, cs, w⟩ : Reader).push (UInt8.ofNat n) =
      if owed = 1 then ⟨none, Char.ofNat (code * 64 + (n - 0x80)) :: cs, w⟩
      else ⟨some ⟨owed - 1, 0x80, 0xBF, code * 64 + (n - 0x80)⟩, cs, w⟩ := by
  have hb : (decide (low ≤ UInt8.ofNat n) && decide (UInt8.ofNat n ≤ high)) = true := by
    rw [Bool.and_eq_true, decide_eq_true_eq, decide_eq_true_eq, UInt8.le_iff_toNat_le,
      UInt8.le_iff_toNat_le, toNat_ofNat hn]
    exact ⟨hl, hh⟩
  simp only [push, hb, if_true, toNat_ofNat hn]

/-- A continuation byte where nothing narrows its range. -/
theorem push_tail {n : Nat} (owed code : Nat) (hl : 0x80 ≤ n) (hh : n < 0xC0) :
    (⟨some ⟨owed, 0x80, 0xBF, code⟩, cs, w⟩ : Reader).push (UInt8.ofNat n) =
      if owed = 1 then ⟨none, Char.ofNat (code * 64 + (n - 0x80)) :: cs, w⟩
      else ⟨some ⟨owed - 1, 0x80, 0xBF, code * 64 + (n - 0x80)⟩, cs, w⟩ :=
  push_owed cs w (by omega) hl (Nat.le_of_lt_succ hh)

theorem foldl_push_two {a b : Nat} (ha : 0xC2 ≤ a) (ha' : a < 0xE0) (hb : 0x80 ≤ b)
    (hb' : b < 0xC0) : [UInt8.ofNat a, UInt8.ofNat b].foldl push ⟨none, cs, w⟩ =
      ⟨none, Char.ofNat ((a - 0xC0) * 64 + (b - 0x80)) :: cs, w⟩ := by
  rw [List.foldl_cons, List.foldl_cons, List.foldl_nil, push_first cs w (lead_two ha ha'),
    push_tail cs w 1 _ hb hb', if_pos rfl]

/-- Three bytes: the second one's range leaves out what fewer bytes write, and surrogates. -/
theorem foldl_push_three {a b c : Nat} (ha : 0xE0 ≤ a) (ha' : a < 0xF0) (hb : 0x80 ≤ b)
    (hb' : b < 0xC0) (hlow : a = 0xE0 → 0xA0 ≤ b) (hhigh : a = 0xED → b < 0xA0) (hc : 0x80 ≤ c)
    (hc' : c < 0xC0) :
    [UInt8.ofNat a, UInt8.ofNat b, UInt8.ofNat c].foldl push ⟨none, cs, w⟩ =
      ⟨none, Char.ofNat (((a - 0xE0) * 64 + (b - 0x80)) * 64 + (c - 0x80)) :: cs, w⟩ := by
  have h2 : (if a = 0xE0 then 0xA0 else 0x80 : UInt8).toNat ≤ b := by
    split
    · exact hlow ‹_›
    · exact hb
  have h3 : b ≤ (if a = 0xED then 0x9F else 0xBF : UInt8).toNat := by
    split
    · exact Nat.le_of_lt_succ (hhigh ‹_›)
    · exact Nat.le_of_lt_succ hb'
  rw [List.foldl_cons, List.foldl_cons, List.foldl_cons, List.foldl_nil,
    push_first cs w (lead_three ha ha'), push_owed cs w (by omega) h2 h3, if_neg (by decide),
    push_tail cs w _ _ hc hc', if_pos rfl]

/-- Four bytes: the second one's range leaves out what fewer bytes write, and what lies beyond the
last code point. -/
theorem foldl_push_four {a b c d : Nat} (ha : 0xF0 ≤ a) (ha' : a < 0xF5) (hb : 0x80 ≤ b)
    (hb' : b < 0xC0) (hlow : a = 0xF0 → 0x90 ≤ b) (hhigh : a = 0xF4 → b < 0x90) (hc : 0x80 ≤ c)
    (hc' : c < 0xC0) (hd : 0x80 ≤ d) (hd' : d < 0xC0) :
    [UInt8.ofNat a, UInt8.ofNat b, UInt8.ofNat c, UInt8.ofNat d].foldl push ⟨none, cs, w⟩ =
      ⟨none, Char.ofNat
        ((((a - 0xF0) * 64 + (b - 0x80)) * 64 + (c - 0x80)) * 64 + (d - 0x80)) :: cs, w⟩ := by
  have h2 : (if a = 0xF0 then 0x90 else 0x80 : UInt8).toNat ≤ b := by
    split
    · exact hlow ‹_›
    · exact hb
  have h3 : b ≤ (if a = 0xF4 then 0x8F else 0xBF : UInt8).toNat := by
    split
    · exact Nat.le_of_lt_succ (hhigh ‹_›)
    · exact Nat.le_of_lt_succ hb'
  rw [List.foldl_cons, List.foldl_cons, List.foldl_cons, List.foldl_cons, List.foldl_nil,
    push_first cs w (lead_four ha ha'), push_owed cs w (by omega) h2 h3, if_neg (by decide),
    push_tail cs w _ _ hc hc', if_neg (by decide), push_tail cs w _ _ hd hd', if_pos rfl]

/-- The code point of a character is one that is no surrogate. -/
theorem code_cases (c : Char) : c.toNat < 0xD800 ∨ (0xDFFF < c.toNat ∧ c.toNat < 0x110000) :=
  c.valid

/-- **A character is read back from its bytes.** -/
theorem foldl_push_encodeChar (c : Char) :
    (String.utf8EncodeChar c).foldl push ⟨none, cs, w⟩ = ⟨none, c :: cs, w⟩ := by
  have hv := code_cases c
  have hc : Char.ofNat c.toNat = c := Char.ofNat_toNat c
  have hval : c.val.toNat = c.toNat := rfl
  simp only [String.utf8EncodeChar, hval]
  generalize c.toNat = v at hv hc
  -- one case for each number of bytes; the bits of the bytes are those of the code point
  split
  · simp only [List.foldl_cons, List.foldl_nil, push, start, lead_one (by omega : v < 0x80), hc]
  split
  · have hcode : (v / 64 % 32 + 192 - 192) * 64 + (v % 64 + 128 - 128) = v := by omega
    rw [foldl_push_two cs w (by omega) (by omega) (by omega) (by omega), hcode, hc]
  split
  · have hcode : ((v / 4096 % 16 + 224 - 224) * 64 + (v / 64 % 64 + 128 - 128)) * 64 +
        (v % 64 + 128 - 128) = v := by omega
    rw [foldl_push_three cs w (by omega) (by omega) (by omega) (by omega) (by omega) (by omega)
      (by omega) (by omega), hcode, hc]
  · have hcode : (((v / 262144 % 8 + 240 - 240) * 64 + (v / 4096 % 64 + 128 - 128)) * 64 +
        (v / 64 % 64 + 128 - 128)) * 64 + (v % 64 + 128 - 128) = v := by omega
    rw [foldl_push_four cs w (by omega) (by omega) (by omega) (by omega) (by omega) (by omega)
      (by omega) (by omega) (by omega) (by omega), hcode, hc]

theorem foldl_push_encode : ∀ ds cs : List Char,
    (encode ds).foldl push ⟨none, cs, w⟩ = ⟨none, ds.reverse ++ cs, w⟩
  | [], _ => rfl
  | d :: ds, cs => by
    rw [encode_cons, List.foldl_append, foldl_push_encodeChar, foldl_push_encode ds (d :: cs)]
    simp

end Reader

theorem read_encode (cs : List Char) : read (encode cs) = { chars := cs.reverse } := by
  rw [read, Reader.foldl_push_encode true cs []]
  simp [Reader.giveUp]

/-- **Text survives the lossy reader.** -/
theorem decodeLossy_encode (cs : List Char) : decodeLossy (encode cs) = cs := by
  simp [decodeLossy, read_encode]

theorem decode?_encode (cs : List Char) : decode? (encode cs) = some cs := by
  simp [decode?, read_encode]

/-! ### Bytes below 128 -/

theorem encodeChar_ascii {c : Char} (h : c.toNat < 0x80) :
    String.utf8EncodeChar c = [UInt8.ofNat c.toNat] := by
  have hval : c.val.toNat = c.toNat := rfl
  rw [String.utf8EncodeChar, hval, if_pos (by omega)]

/-- The bytes of a character beyond ASCII are 128 or more. -/
theorem le_of_mem_encodeChar {c : Char} (h : 0x80 ≤ c.toNat) {b : UInt8}
    (hb : b ∈ String.utf8EncodeChar c) : 0x80 ≤ b.toNat := by
  have hval : c.val.toNat = c.toNat := rfl
  have hv := Reader.code_cases c
  simp only [String.utf8EncodeChar, hval] at hb
  generalize c.toNat = v at h hv hb
  rw [if_neg (by omega)] at hb
  have tail : ∀ n, 0x80 ≤ n → n < 256 → 0x80 ≤ (UInt8.ofNat n).toNat := fun n h1 h2 => by
    rw [toNat_ofNat h2]
    exact h1
  split at hb
  · simp only [List.mem_cons, List.not_mem_nil, or_false] at hb
    rcases hb with rfl | rfl <;> exact tail _ (by omega) (by omega)
  split at hb
  · simp only [List.mem_cons, List.not_mem_nil, or_false] at hb
    rcases hb with rfl | rfl | rfl <;> exact tail _ (by omega) (by omega)
  · simp only [List.mem_cons, List.not_mem_nil, or_false] at hb
    rcases hb with rfl | rfl | rfl | rfl <;> exact tail _ (by omega) (by omega)

/-- A byte below 128 in a character's bytes is the character. -/
theorem mem_encodeChar_ascii {c d : Char} (hd : d.toNat < 0x80)
    (h : UInt8.ofNat d.toNat ∈ String.utf8EncodeChar c) : c = d := by
  by_cases hc : c.toNat < 0x80
  · rw [encodeChar_ascii hc, List.mem_singleton, ofNat_eq_iff (by omega),
      toNat_ofNat (by omega)] at h
    exact Char.toNat_inj.mp h.symm
  · have hle := le_of_mem_encodeChar (by omega) h
    rw [toNat_ofNat (by omega)] at hle
    omega

/-- A byte below 128 in the encoding of a text is a character of the text. -/
theorem mem_encode_ascii {cs : List Char} {d : Char} (hd : d.toNat < 0x80)
    (h : UInt8.ofNat d.toNat ∈ encode cs) : d ∈ cs := by
  obtain ⟨c, hc, hm⟩ := List.mem_flatMap.mp h
  exact mem_encodeChar_ascii hd hm ▸ hc

/-- A text whose encoding ends in a byte below 128 ends in that character. -/
theorem getLast?_encode_ascii {cs : List Char} {d : Char} (hd : d.toNat < 0x80)
    (h : (encode cs).getLast? = some (UInt8.ofNat d.toNat)) : ∃ ds, cs = ds ++ [d] := by
  rcases List.eq_nil_or_concat cs with rfl | ⟨ds, c, rfl⟩
  · simp [encode] at h
  · rw [List.concat_eq_append, encode_append, encode_cons, List.getLast?_append] at h
    have hne : (String.utf8EncodeChar c ++ encode []) ≠ [] := by simp [String.utf8EncodeChar_ne_nil]
    rw [List.getLast?_eq_some_getLast hne, Option.some_or] at h
    have hm : UInt8.ofNat d.toNat ∈ String.utf8EncodeChar c := by
      rw [← Option.some.inj h]
      simp [encode]
    exact ⟨ds, by rw [List.concat_eq_append, mem_encodeChar_ascii hd hm]⟩

/-! ### Nothing but encodings is well formed -/

namespace Reader

theorem wellFormed_start {r : Reader} {b : UInt8} (h : (r.start b).wellFormed = true) :
    r.wellFormed = true := by
  unfold start at h
  split at h
  · exact h
  · exact h
  · cases h

theorem wellFormed_giveUp {r : Reader} (h : r.giveUp.wellFormed = true) :
    r.wellFormed = true ∧ r.held = none := by
  unfold giveUp at h
  split at h
  · rename_i hheld
    exact ⟨h, hheld⟩
  · cases h

/-- A reader that made a replacement has made one for good. -/
theorem wellFormed_push {r : Reader} {b : UInt8} (h : (r.push b).wellFormed = true) :
    r.wellFormed = true := by
  unfold push at h
  split at h
  · exact wellFormed_start h
  · split at h
    · dsimp only at h
      split at h
      · exact h
      · exact h
    · exact (wellFormed_giveUp (wellFormed_start h)).1

theorem wellFormed_foldl : ∀ {bs : List UInt8} {r : Reader},
    (bs.foldl push r).wellFormed = true → r.wellFormed = true
  | [], _, h => h
  | _ :: _, _, h => wellFormed_push (wellFormed_foldl h)

/-- These bytes end a text without any replacement. -/
def Finishes (r : Reader) (bs : List UInt8) : Prop := (bs.foldl push r).giveUp.wellFormed = true

theorem Finishes.wellFormed {r : Reader} {bs : List UInt8} (h : r.Finishes bs) :
    r.wellFormed = true := wellFormed_foldl (wellFormed_giveUp h).1

/-- A character that is begun goes on with a byte in the range that is owed. -/
theorem Finishes.owed {owed code : Nat} {low high : UInt8} {cs : List Char} {bs : List UInt8}
    (h : (⟨some ⟨owed, low, high, code⟩, cs, true⟩ : Reader).Finishes bs) :
    ∃ n rest, bs = UInt8.ofNat n :: rest ∧ n < 256 ∧ low.toNat ≤ n ∧ n ≤ high.toNat := by
  cases bs with
  | nil => exact absurd (wellFormed_giveUp h).2 (by simp)
  | cons b rest =>
    have hpush := (show Finishes (push _ b) rest from h).wellFormed
    simp only [push] at hpush
    split at hpush
    · rename_i hrange
      rw [Bool.and_eq_true, decide_eq_true_eq, decide_eq_true_eq, UInt8.le_iff_toNat_le,
        UInt8.le_iff_toNat_le] at hrange
      exact ⟨b.toNat, rest, by rw [UInt8.ofNat_toNat], b.toNat_lt, hrange.1, hrange.2⟩
    · exact absurd (wellFormed_start hpush) (by simp [giveUp])

/-- The bytes of the character with a code point. -/
theorem encodeChar_ofNat {v : Nat} (hv : v < 0xD800 ∨ 0xDFFF < v ∧ v < 0x110000) :
    String.utf8EncodeChar (Char.ofNat v) =
      if v ≤ 0x7F then [UInt8.ofNat v]
      else if v ≤ 0x7FF then [UInt8.ofNat (v / 64 % 32 + 192), UInt8.ofNat (v % 64 + 128)]
      else if v ≤ 0xFFFF then [UInt8.ofNat (v / 4096 % 16 + 224), UInt8.ofNat (v / 64 % 64 + 128),
        UInt8.ofNat (v % 64 + 128)]
      else [UInt8.ofNat (v / 262144 % 8 + 240), UInt8.ofNat (v / 4096 % 64 + 128),
        UInt8.ofNat (v / 64 % 64 + 128), UInt8.ofNat (v % 64 + 128)] := by
  have hvalid : v.isValidChar := hv
  have hcode : (Char.ofNat v).val.toNat = v := by
    rw [Char.ofNat, dif_pos hvalid]
    rfl
  rw [String.utf8EncodeChar, hcode]

/-- The range of the second byte, which some first bytes narrow. -/
theorem narrowed {p q : Prop} [Decidable p] [Decidable q] {low high : UInt8} {m : Nat}
    (hl : 0x80 ≤ low.toNat) (hh : high.toNat ≤ 0xBF)
    (hlow : (if p then low else 0x80).toNat ≤ m) (hhigh : m ≤ (if q then high else 0xBF).toNat) :
    0x80 ≤ m ∧ m ≤ 0xBF ∧ (p → low.toNat ≤ m) ∧ (q → m ≤ high.toNat) := by
  constructor
  · split at hlow
    · exact Nat.le_trans hl hlow
    · exact hlow
  refine ⟨?_, fun hp => by rwa [if_pos hp] at hlow, fun hq => by rwa [if_pos hq] at hhigh⟩
  split at hhigh
  · exact Nat.le_trans hhigh hh
  · exact hhigh

variable {cs : List Char} {bs : List UInt8}

theorem Finishes.two {n : Nat} (hn : 0xC2 ≤ n) (hn' : n < 0xE0)
    (h : (⟨none, cs, true⟩ : Reader).Finishes (UInt8.ofNat n :: bs)) :
    ∃ c rest, UInt8.ofNat n :: bs = String.utf8EncodeChar c ++ rest := by
  have hfirst : Finishes _ bs := h
  rw [push_first cs true (lead_two hn hn')] at hfirst
  obtain ⟨m, rest, rfl, -, hlow, hhigh⟩ := hfirst.owed
  change 0x80 ≤ m at hlow
  change m ≤ 0xBF at hhigh
  refine ⟨Char.ofNat ((n - 0xC0) * 64 + (m - 0x80)), rest, ?_⟩
  have h1 : ((n - 0xC0) * 64 + (m - 0x80)) / 64 % 32 + 192 = n := by omega
  have h2 : ((n - 0xC0) * 64 + (m - 0x80)) % 64 + 128 = m := by omega
  rw [encodeChar_ofNat (by omega), if_neg (by omega), if_pos (by omega), h1, h2]
  rfl

theorem Finishes.three {n : Nat} (hn : 0xE0 ≤ n) (hn' : n < 0xF0)
    (h : (⟨none, cs, true⟩ : Reader).Finishes (UInt8.ofNat n :: bs)) :
    ∃ c rest, UInt8.ofNat n :: bs = String.utf8EncodeChar c ++ rest := by
  have hfirst : Finishes _ bs := h
  rw [push_first cs true (lead_three hn hn')] at hfirst
  obtain ⟨m, bs, rfl, hm, hlow, hhigh⟩ := hfirst.owed
  have hsecond : Finishes _ bs := hfirst
  rw [push_owed cs true hm hlow hhigh, if_neg (by decide)] at hsecond
  obtain ⟨k, rest, rfl, -, hk, hk'⟩ := hsecond.owed
  change 0x80 ≤ k at hk
  change k ≤ 0xBF at hk'
  obtain ⟨hm1, hm2, hleast, hgreatest⟩ := narrowed (by decide) (by decide) hlow hhigh
  change n = 0xE0 → 0xA0 ≤ m at hleast
  change n = 0xED → m ≤ 0x9F at hgreatest
  refine ⟨Char.ofNat (((n - 0xE0) * 64 + (m - 0x80)) * 64 + (k - 0x80)), rest, ?_⟩
  generalize hv : ((n - 0xE0) * 64 + (m - 0x80)) * 64 + (k - 0x80) = v
  have h1 : v / 4096 % 16 + 224 = n := by omega
  have h2 : v / 64 % 64 + 128 = m := by omega
  have h3 : v % 64 + 128 = k := by omega
  rw [encodeChar_ofNat (by omega), if_neg (by omega), if_neg (by omega), if_pos (by omega), h1, h2,
    h3]
  rfl

theorem Finishes.four {n : Nat} (hn : 0xF0 ≤ n) (hn' : n < 0xF5)
    (h : (⟨none, cs, true⟩ : Reader).Finishes (UInt8.ofNat n :: bs)) :
    ∃ c rest, UInt8.ofNat n :: bs = String.utf8EncodeChar c ++ rest := by
  have hfirst : Finishes _ bs := h
  rw [push_first cs true (lead_four hn hn')] at hfirst
  obtain ⟨m, bs, rfl, hm, hlow, hhigh⟩ := hfirst.owed
  have hsecond : Finishes _ bs := hfirst
  rw [push_owed cs true hm hlow hhigh, if_neg (by decide)] at hsecond
  obtain ⟨k, bs, rfl, -, hk, hk'⟩ := hsecond.owed
  change 0x80 ≤ k at hk
  change k ≤ 0xBF at hk'
  have hthird : Finishes _ bs := hsecond
  rw [push_tail cs true _ _ hk (by omega), if_neg (by decide)] at hthird
  obtain ⟨j, rest, rfl, -, hj, hj'⟩ := hthird.owed
  change 0x80 ≤ j at hj
  change j ≤ 0xBF at hj'
  obtain ⟨hm1, hm2, hleast, hgreatest⟩ := narrowed (by decide) (by decide) hlow hhigh
  change n = 0xF0 → 0x90 ≤ m at hleast
  change n = 0xF4 → m ≤ 0x8F at hgreatest
  refine ⟨Char.ofNat ((((n - 0xF0) * 64 + (m - 0x80)) * 64 + (k - 0x80)) * 64 + (j - 0x80)), rest,
    ?_⟩
  generalize hv : (((n - 0xF0) * 64 + (m - 0x80)) * 64 + (k - 0x80)) * 64 + (j - 0x80) = v
  have h1 : v / 262144 % 8 + 240 = n := by omega
  have h2 : v / 4096 % 64 + 128 = m := by omega
  have h3 : v / 64 % 64 + 128 = k := by omega
  have h4 : v % 64 + 128 = j := by omega
  rw [encodeChar_ofNat (by omega), if_neg (by omega), if_neg (by omega), if_neg (by omega), h1, h2,
    h3, h4]
  rfl

/-- Bytes that are read without a replacement start with those of a character. -/
theorem Finishes.exists_char {b : UInt8} (h : (⟨none, cs, true⟩ : Reader).Finishes (b :: bs)) :
    ∃ c rest, b :: bs = String.utf8EncodeChar c ++ rest := by
  obtain ⟨n, hn, rfl⟩ : ∃ n < 256, b = UInt8.ofNat n :=
    ⟨b.toNat, b.toNat_lt, UInt8.ofNat_toNat.symm⟩
  have hill : Lead.ofByte (UInt8.ofNat n) ≠ .ill := by
    intro hlead
    have hrest : Finishes (push ⟨none, cs, true⟩ (UInt8.ofNat n)) bs := h
    have hpush := hrest.wellFormed
    simp [push, start, hlead] at hpush
  rw [ofByte_ofNat hn] at hill
  by_cases h1 : n < 0x80
  · refine ⟨Char.ofNat n, bs, ?_⟩
    rw [encodeChar_ofNat (by omega), if_pos (by omega)]
    rfl
  by_cases h2 : n < 0xC2
  · simp [h1, h2] at hill
  by_cases h3 : n < 0xE0
  · exact h.two (by omega) h3
  by_cases h4 : n < 0xF0
  · exact h.three (by omega) h4
  by_cases h5 : n < 0xF5
  · exact h.four (by omega) h5
  · simp [h1, h2, h3, h4, h5] at hill

/-- **Bytes that are read without a replacement are the encoding of a text.** -/
theorem Finishes.exists_text : ∀ {n : Nat} {cs : List Char} {bs : List UInt8}, bs.length ≤ n →
    (⟨none, cs, true⟩ : Reader).Finishes bs → ∃ ds, bs = encode ds
  | _, _, [], _, _ => ⟨[], rfl⟩
  | n + 1, cs, b :: bs, hn, h => by
    obtain ⟨c, rest, hsplit⟩ := h.exists_char
    have hlength := congrArg List.length hsplit
    have hpos := List.length_pos_iff.mpr (String.utf8EncodeChar_ne_nil (c := c))
    rw [List.length_append, List.length_cons] at hlength
    rw [List.length_cons] at hn
    have hmore : (⟨none, c :: cs, true⟩ : Reader).Finishes rest := by
      unfold Finishes at h ⊢
      rwa [hsplit, List.foldl_append, foldl_push_encodeChar] at h
    obtain ⟨ds, hds⟩ := Finishes.exists_text (n := n) (by omega) hmore
    exact ⟨c :: ds, by rw [hsplit, hds, encode_cons]⟩

end Reader

/-- **Bytes have a text exactly if they are its encoding.** -/
theorem decode?_eq_some_iff {bs : List UInt8} {cs : List Char} :
    decode? bs = some cs ↔ bs = encode cs := by
  constructor
  · intro h
    unfold decode? at h
    dsimp only at h
    split at h
    · rename_i hread
      obtain ⟨ds, rfl⟩ := Reader.Finishes.exists_text (Nat.le_refl bs.length) hread
      have hsame := decode?_encode ds
      rw [decode?, if_pos hread, Option.some.inj h] at hsame
      rw [Option.some.inj hsame]
    · cases h
  · rintro rfl
    exact decode?_encode cs

/-! ### ASCII in what is read from any bytes -/

/-- A number that is no code point makes the null character. -/
theorem toNat_charOfNat (n : Nat) :
    (Char.ofNat n).toNat = n ∨ (¬ n.isValidChar ∧ (Char.ofNat n).toNat = 0) := by
  by_cases h : n.isValidChar
  · left
    rw [Char.ofNat, dif_pos h]
    rfl
  · right
    refine ⟨h, ?_⟩
    rw [Char.ofNat, dif_neg h]
    rfl

theorem toNat_of_whole {b : UInt8} {c : Char} (h : Lead.ofByte b = .whole c) :
    c.toNat = b.toNat := by
  by_cases hb : b < 0x80
  · rw [Lead.ofByte, if_pos hb, Lead.whole.injEq] at h
    have hlt : b.toNat < 0x80 := hb
    rcases toNat_charOfNat b.toNat with hsame | ⟨hinvalid, -⟩
    · rw [← h, hsame]
    · exact absurd (.inl (by omega)) hinvalid
  · rw [Lead.ofByte, if_neg hb] at h
    split at h
    · cases h
    split at h
    · cases h
    split at h
    · cases h
    split at h <;> cases h

/-- The least code point that the held part of a character can come to. -/
def Held.least (h : Held) : Nat :=
  h.code * 64 ^ h.owed + (h.low.toNat - 0x80) * 64 ^ (h.owed - 1)

/-- A held part comes to a character beyond ASCII only. -/
structure Held.Beyond (h : Held) : Prop where
  owed_pos : 0 < h.owed
  le_low : 0x80 ≤ h.low.toNat
  le_least : 0x80 ≤ h.least

theorem beyond_of_first {b : UInt8} {h : Held} (hl : Lead.ofByte b = .first h) : h.Beyond := by
  obtain ⟨n, hn, rfl⟩ : ∃ n < 256, b = UInt8.ofNat n :=
    ⟨b.toNat, b.toNat_lt, UInt8.ofNat_toNat.symm⟩
  by_cases h1 : n < 0x80
  · rw [lead_one h1] at hl
    cases hl
  by_cases h2 : n < 0xC2
  · rw [ofByte_ofNat hn, if_neg h1, if_pos h2] at hl
    cases hl
  by_cases h3 : n < 0xE0
  · rw [lead_two (by omega) h3, Lead.first.injEq] at hl
    subst hl
    exact ⟨Nat.one_pos, Nat.le_refl 0x80, by simp [Held.least]; omega⟩
  by_cases h4 : n < 0xF0
  · rw [lead_three (by omega) h4, Lead.first.injEq] at hl
    subst hl
    by_cases he : n = 0xE0
    · subst he
      exact ⟨Nat.two_pos, by decide, by decide⟩
    · exact ⟨Nat.two_pos, by simp [he], by simp [Held.least, he]; omega⟩
  by_cases h5 : n < 0xF5
  · rw [lead_four (by omega) h5, Lead.first.injEq] at hl
    subst hl
    by_cases he : n = 0xF0
    · subst he
      exact ⟨Nat.succ_pos 2, by decide, by decide⟩
    · exact ⟨Nat.succ_pos 2, by simp [he], by simp [Held.least, he]; omega⟩
  · rw [ofByte_ofNat hn, if_neg h1, if_neg h2, if_neg h3, if_neg h4, if_neg h5] at hl
    cases hl

/-- A byte in the range that is owed brings the least code point no lower. -/
theorem least_le_of_owed {h : Held} (hp : 0 < h.owed) {m : Nat} (hm : h.low.toNat ≤ m) :
    h.least ≤ (h.code * 64 + (m - 0x80)) * 64 ^ (h.owed - 1) := by
  obtain ⟨k, hk⟩ := Nat.exists_eq_add_of_lt hp
  have hpow : h.code * 64 ^ h.owed = h.code * 64 * 64 ^ (h.owed - 1) := by
    rw [hk, Nat.zero_add, Nat.add_sub_cancel, Nat.pow_succ', Nat.mul_assoc]
  rw [Held.least, hpow, ← Nat.add_mul]
  exact Nat.mul_le_mul_right _ (by omega)

namespace Reader

/-- What a reader has read from these bytes: its ASCII characters are bytes among them, and what it
holds does not come to one. -/
structure Stems (bytes : List UInt8) (r : Reader) : Prop where
  ascii : ∀ c ∈ r.chars, 0 < c.toNat → c.toNat < 0x80 → UInt8.ofNat c.toNat ∈ bytes
  beyond : ∀ h, r.held = some h → h.Beyond

variable {bytes : List UInt8} {r : Reader}

theorem Stems.mono (h : Stems bytes r) (more : List UInt8) : Stems (bytes ++ more) r :=
  ⟨fun c hc h0 h1 => List.mem_append_left _ (h.ascii c hc h0 h1), h.beyond⟩

theorem Stems.start (h : Stems bytes r) (b : UInt8) : Stems (bytes ++ [b]) (r.start b) := by
  unfold Reader.start
  split
  · rename_i c hl
    have hbyte : UInt8.ofNat c.toNat = b := by rw [toNat_of_whole hl, UInt8.ofNat_toNat]
    refine ⟨List.forall_mem_cons.mpr ⟨fun _ _ => ?_, (h.mono [b]).ascii⟩, fun _ hn => by cases hn⟩
    rw [hbyte]
    exact List.mem_append_right _ (List.mem_singleton_self b)
  · rename_i held hl
    refine ⟨(h.mono [b]).ascii, fun k hk => ?_⟩
    cases hk
    exact beyond_of_first hl
  · exact ⟨List.forall_mem_cons.mpr ⟨fun _ h1 => absurd h1 (by decide), (h.mono [b]).ascii⟩,
      fun _ hn => by cases hn⟩

theorem Stems.giveUp (h : Stems bytes r) : Stems bytes r.giveUp := by
  unfold Reader.giveUp
  split
  · exact h
  · exact ⟨List.forall_mem_cons.mpr ⟨fun _ h1 => absurd h1 (by decide), h.ascii⟩,
      fun _ hn => by cases hn⟩

/-- One more byte: the character that it completes is beyond ASCII, or the byte itself. -/
theorem Stems.push (h : Stems bytes r) (b : UInt8) : Stems (bytes ++ [b]) (r.push b) := by
  unfold Reader.push
  split
  · exact h.start b
  · rename_i held hheld
    obtain ⟨hpos, hlow, hleast⟩ := h.beyond held hheld
    split
    · rename_i hrange
      rw [Bool.and_eq_true, decide_eq_true_eq, UInt8.le_iff_toNat_le] at hrange
      have hgrow := Nat.le_trans hleast (least_le_of_owed hpos hrange.1)
      dsimp only
      split
      · rename_i hone
        rw [hone, Nat.sub_self, Nat.pow_zero, Nat.mul_one] at hgrow
        refine ⟨List.forall_mem_cons.mpr ⟨fun h0 h1 => ?_, (h.mono [b]).ascii⟩,
          fun _ hn => by cases hn⟩
        rcases toNat_charOfNat (held.code * 64 + (b.toNat - 0x80)) with hsame | ⟨-, hnull⟩ <;> omega
      · refine ⟨(h.mono [b]).ascii, fun k hk => ?_⟩
        cases hk
        exact ⟨by show 0 < held.owed - 1; omega, Nat.le_refl 0x80,
          by simpa [Held.least] using hgrow⟩
    · exact h.giveUp.start b

theorem stems_foldl : ∀ (more bytes : List UInt8) {r : Reader}, Stems bytes r →
    Stems (bytes ++ more) (more.foldl Reader.push r)
  | [], bytes, _, h => by rwa [List.append_nil]
  | b :: more, bytes, r, h => by
    have htail := stems_foldl more (bytes ++ [b]) (h.push b)
    rwa [List.append_assoc, List.singleton_append] at htail

end Reader

/-- An ASCII character that is read from any bytes is one of them. -/
theorem mem_of_mem_decodeLossy {bytes : List UInt8} {d : Char} (h0 : 0 < d.toNat)
    (h1 : d.toNat < 0x80) (h : d ∈ decodeLossy bytes) : UInt8.ofNat d.toNat ∈ bytes := by
  have hnew : Reader.Stems [] {} := ⟨fun c hc => by simp at hc, fun _ hn => by cases hn⟩
  have hread : Reader.Stems bytes (read bytes) := by
    have hall := (Reader.stems_foldl bytes [] hnew).giveUp
    rwa [List.nil_append] at hall
  exact hread.ascii d (List.mem_reverse.mp h) h0 h1

end Utf8
end LanInference
