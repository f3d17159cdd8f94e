/-
# The order of texts is the order of their bytes

UTF-8 writes a smaller code point with a smaller byte at the first place where the two differ: fewer
bytes begin with a smaller one, and the same number of bytes are the digits of the code point to the
base 64. So texts compare by code points as their encodings do by bytes.

Key theorems: `Utf8.encodeChar_append_lt`, `Utf8.encode_lt_encode`.
-/
import Mathlib.Tactic.SplitIfs
import LanInference.Proofs.Text.Utf8

namespace LanInference
namespace Utf8

theorem ofNat_cons_lt_iff {m n : Nat} (hm : m < 256) (hn : n < 256) (xs ys : List UInt8) :
    UInt8.ofNat m :: xs < UInt8.ofNat n :: ys ↔ m < n ∨ m = n ∧ xs < ys := by
  rw [List.cons_lt_cons_iff, ofNat_lt_iff hm, ofNat_eq_iff hm, toNat_ofNat hn]

/-- The bytes of a smaller character come first, whatever follows them. -/
theorem encodeChar_append_lt {c d : Char} (h : c < d) (xs ys : List UInt8) :
    String.utf8EncodeChar c ++ xs < String.utf8EncodeChar d ++ ys := by
  have hlt : c.toNat < d.toNat := h
  have hc := Reader.code_cases c
  have hd := Reader.code_cases d
  have hcval : c.val.toNat = c.toNat := rfl
  have hdval : d.val.toNat = d.toNat := rfl
  have hshift : ∀ n : Nat, n / 4096 = n / 64 / 64 ∧ n / 262144 = n / 64 / 64 / 64 := by omega
  simp only [String.utf8EncodeChar, hcval, hdval, hshift]
  generalize c.toNat = v at hlt hc
  generalize d.toNat = w at hlt hd
  -- the numbers of bytes: either the first bytes differ already, or the digits to the base 64 do
  split_ifs
  all_goals
    simp only [List.cons_append, List.nil_append]
    repeat rw [ofNat_cons_lt_iff (by omega) (by omega)]
    omega

/-- **Texts are in the order of their bytes.** -/
theorem encode_lt_encode : ∀ {xs ys : List Char}, xs < ys → encode xs < encode ys
  | xs, [], h => absurd h (List.not_lt_nil xs)
  | [], y :: ys, _ => by
    rw [encode_cons]
    obtain ⟨b, bs, hbytes⟩ := List.exists_cons_of_ne_nil (String.utf8EncodeChar_ne_nil (c := y))
    rw [hbytes]
    exact List.nil_lt_cons b _
  | x :: xs, y :: ys, h => by
    rw [encode_cons, encode_cons]
    rcases List.cons_lt_cons_iff.mp h with hlt | ⟨rfl, hlt⟩
    · exact encodeChar_append_lt hlt _ _
    · exact List.append_left_lt (encode_lt_encode hlt)

end Utf8
end LanInference
