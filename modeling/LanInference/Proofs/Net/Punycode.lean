/-
# A coded label reads back

The text of a label is read back from its code. Writer and reader go through the text in step: when
the writer is at a code point and a place of the text, the reader holds the characters below that
code point and those of it that stand before the place, and the distance since the last character is
the way between the two in rounds over what the reader holds (`InStep`). The digits of a distance
are read back as long as no word overflows, which a text of a label's length keeps far from.

Key definitions: `InStep`.
Key theorems: `foldlM_digits`, `InStep.pass`, `InStep.next`, `InStep.writeCodes`, `decode?_encode`,
`mem_encode`, `getLast?_encode`.
-/
import Mathlib.Algebra.Group.Nat.Defs
import Mathlib.Data.List.TakeWhile
import LanInference.Net.Punycode

namespace LanInference
namespace Punycode

/-! ### Digits -/

theorem threshold_le (bias place : Nat) : threshold bias place ≤ 26 := by
  unfold threshold
  omega

/-- A distance that is below this bound is read without overflow of a word. -/
def distanceBound : Nat := 35 ^ 6

namespace Decoder

/-- Putting a character in does not ask how its distance was read. -/
theorem insert?_congr {d e : Decoder} (hout : d.out = e.out) (hcode : d.code = e.code)
    (hposition : d.position = e.position) (hdistance : d.distance = e.distance) :
    d.insert? = e.insert? := by
  obtain ⟨out, code, position, bias, distance, weight, place⟩ := d
  obtain ⟨out', code', position', bias', distance', weight', place'⟩ := e
  cases hout
  cases hcode
  cases hposition
  cases hdistance
  rfl

/-- The character that a distance leads to is put in at its place. -/
theorem insert?_eq {d : Decoder} {c : Char} {place : Nat}
    (hcode : d.code + (d.position + d.distance) / (d.out.length + 1) = c.toNat)
    (hplace : (d.position + d.distance) % (d.out.length + 1) = place) :
    d.insert? = some {
      out := d.out.insertIdx place c
      code := c.toNat
      position := place + 1
      bias := fitted d.distance (d.out.length + 1) (d.position = 0) } := by
  subst hplace
  have hchar : ∀ (code : Nat) (put : Char → Decoder), code = c.toNat →
      (if h : code.isValidChar then some (put (Char.ofNatAux code h)) else none) =
        some (put c) := by
    rintro _ put rfl
    exact dif_pos c.valid
  rw [← hcode]
  exact hchar _ (fun x => {
    out := d.out.insertIdx ((d.position + d.distance) % (d.out.length + 1)) x
    code := d.code + (d.position + d.distance) / (d.out.length + 1)
    position := (d.position + d.distance) % (d.out.length + 1) + 1
    bias := fitted d.distance (d.out.length + 1) (d.position = 0) }) hcode

end Decoder

/-- The weight of a digit that is read on stays in a word. Before the threshold leaves its least
value the weight is a power of 35, and behind it a digit is worth more than the weight grows. -/
theorem weight_lt {bias place weight n : Nat}
    (hpower : place < bias + 26 → ∃ k, weight = 35 ^ k) (hn : threshold bias place ≤ n)
    (hbound : n * weight < distanceBound) :
    weight * (36 - threshold bias place) < Decoder.limit := by
  have hlimit : distanceBound < Decoder.limit := by decide
  by_cases hplace : place < bias + 26
  · obtain ⟨k, rfl⟩ := hpower hplace
    have hpos := threshold_pos bias place
    have hlt : 35 ^ k < 35 ^ 6 :=
      calc 35 ^ k ≤ n * 35 ^ k := Nat.le_mul_of_pos_left _ (by omega)
        _ < 35 ^ 6 := hbound
    have hk : k + 1 ≤ 6 := (Nat.pow_lt_pow_iff_right (by omega)).mp hlt
    calc 35 ^ k * (36 - threshold bias place) ≤ 35 ^ k * 35 := Nat.mul_le_mul_left _ (by omega)
      _ = 35 ^ (k + 1) := (Nat.pow_succ 35 k).symm
      _ ≤ 35 ^ 6 := Nat.pow_le_pow_right (by omega) hk
      _ < Decoder.limit := hlimit
  · have ht : threshold bias place = 26 := by
      unfold threshold
      omega
    rw [ht] at hn ⊢
    calc weight * (36 - 26) ≤ n * weight := by
          rw [Nat.mul_comm]
          exact Nat.mul_le_mul_right _ (by omega)
      _ < distanceBound := hbound
      _ < Decoder.limit := hlimit

/-- The digits of a distance are read as that distance, and its character is put in. -/
theorem foldlM_digits (rest : List Char) (n : Nat) (d : Decoder)
    (hbound : d.position + (d.distance + n * d.weight) < distanceBound)
    (hpower : d.place < d.bias + 26 → ∃ k, d.weight = 35 ^ k) :
    (digits d.bias d.place n ++ rest).foldlM Decoder.push? d =
      ({ d with distance := d.distance + n * d.weight } : Decoder).insert?.bind
        (rest.foldlM Decoder.push?) := by
  induction n using Nat.strongRecOn generalizing d with
  | ind n ih =>
    have hpos := threshold_pos d.bias d.place
    have hle := threshold_le d.bias d.place
    have hlimit : distanceBound < Decoder.limit := by decide
    unfold digits
    dsimp only
    by_cases hlast : n < threshold d.bias d.place
    · have hpush : d.push? (digitChar n) =
          ({ d with distance := d.distance + n * d.weight } : Decoder).insert? := by
        unfold Decoder.push?
        rw [digit?_digitChar (by omega)]
        simp only [Option.bind_eq_bind, Option.bind_some]
        rw [if_neg (by omega), if_pos hlast]
      rw [if_pos hlast, List.singleton_append, List.foldlM_cons, hpush]
      rfl
    · generalize ht : threshold d.bias d.place = t at *
      have hdigit : t + (n - t) % (36 - t) < 36 := by
        have := Nat.mod_lt (n - t) (show 0 < 36 - t by omega)
        omega
      have hsplit : t + (n - t) % (36 - t) + (n - t) / (36 - t) * (36 - t) = n := by
        have := Nat.mod_add_div' (n - t) (36 - t)
        omega
      generalize hq : (n - t) / (36 - t) = q at *
      generalize hr : t + (n - t) % (36 - t) = r at *
      have hweight : r * d.weight + q * (d.weight * (36 - t)) = n * d.weight := by
        rw [← hsplit, Nat.add_mul, Nat.mul_comm d.weight, Nat.mul_assoc]
      have hgrow : d.weight * (36 - t) < Decoder.limit := by
        rw [← ht]
        exact weight_lt (n := n) hpower (by omega) (by omega)
      have hpush : d.push? (digitChar r) = some { d with
          distance := d.distance + r * d.weight, weight := d.weight * (36 - t),
          place := d.place + 36 } := by
        unfold Decoder.push?
        rw [digit?_digitChar hdigit]
        simp only [Option.bind_eq_bind, Option.bind_some]
        rw [ht, if_neg (by omega), if_neg (by omega), if_neg (by omega)]
      have hlt : q < n := by
        have := Nat.div_le_self (n - t) (36 - t)
        omega
      have htail := ih q hlt { d with
          distance := d.distance + r * d.weight, weight := d.weight * (36 - t),
          place := d.place + 36 } (by dsimp only; omega) (by
        intro hplace
        dsimp only at hplace ⊢
        obtain ⟨k, hk⟩ := hpower (by omega)
        have hone : t = 1 := by
          rw [← ht]
          unfold threshold
          omega
        exact ⟨k + 1, by rw [hk, hone, Nat.pow_succ]⟩)
      dsimp only at htail
      have hsum : d.distance + r * d.weight + q * (d.weight * (36 - t)) =
          d.distance + n * d.weight := by omega
      rw [if_neg hlast, List.cons_append, List.foldlM_cons, hpush]
      exact htail.trans (congrArg (Option.bind · _) (Decoder.insert?_congr rfl rfl rfl hsum))

/-! ### Writer and reader in step -/

/-- The writer is at a code point, with these characters of the text behind it and those ahead. The
reader has read all that is written. It holds what is below the code point, and of the code point
what is behind, and the distance so far leads it there. -/
structure InStep (code : Nat) (behind ahead : List Char) (e : Encoder) (d : Decoder) : Prop where
  out : d.out = behind.filter (fun c => decide (c.toNat ≤ code)) ++
    ahead.filter (fun c => decide (c.toNat < code))
  count : e.count = d.out.length
  bias : d.bias = e.bias
  isFirst : e.isFirst = decide (d.position = 0)
  distance : d.distance = 0
  weight : d.weight = 1
  place : d.place = 36
  code_le : d.code ≤ code
  way : d.position + e.distance = (code - d.code) * (e.count + 1) +
    (behind.filter fun c => decide (c.toNat ≤ code)).length

theorem insertIdx_append {α : Type} (as bs : List α) (x : α) :
    (as ++ bs).insertIdx as.length x = as ++ x :: bs := by
  induction as with
  | nil => rfl
  | cons a as ih => simpa using ih

section
variable {code : Nat} {behind ahead : List Char} {e : Encoder} {d : Decoder}

/-- A distance within a label is far from an overflow. -/
theorem InStep.way_lt (h : InStep code behind ahead e d) (hcode : code < 0x110000)
    (hlen : (behind ++ ahead).length ≤ 1000) : d.position + e.distance < distanceBound := by
  have hbehind := List.length_filter_le (fun c => decide (c.toNat ≤ code)) behind
  have hahead := List.length_filter_le (fun c => decide (c.toNat < code)) ahead
  have hcount : e.count ≤ 1000 := by
    rw [h.count, h.out, List.length_append]
    rw [List.length_append] at hlen
    omega
  have hrounds : (code - d.code) * (e.count + 1) ≤ 0x10FFFF * 1001 :=
    Nat.mul_le_mul (by omega) (by omega)
  have hbound : distanceBound = 1838265625 := by decide
  rw [List.length_append] at hlen
  rw [h.way, hbound]
  omega

/-- The distance so far leads the reader to the place of a character of the code point. -/
theorem InStep.insert?_eq {c : Char} (h : InStep c.toNat behind (c :: ahead) e d)
    {below above : List Char} (hbelow : behind.filter (fun x => decide (x.toNat ≤ c.toNat)) = below)
    (habove : ahead.filter (fun x => decide (x.toNat < c.toNat)) = above) :
    (⟨d.out, d.code, d.position, e.bias, e.distance, 1, 36⟩ : Decoder).insert? =
      some ⟨below ++ c :: above, c.toNat, below.length + 1,
        fitted e.distance (e.count + 1) e.isFirst, 0, 1, 36⟩ := by
  have hout : d.out = below ++ above := by
    rw [h.out, hbelow, List.filter_cons_of_neg (by simp), habove]
  have hway : d.position + e.distance = below.length + (d.out.length + 1) * (c.toNat - d.code) := by
    rw [h.way, hbelow, h.count, Nat.mul_comm, Nat.add_comm]
  have hlt : below.length < d.out.length + 1 := by
    rw [hout, List.length_append]
    omega
  have hcode : d.code + (d.position + e.distance) / (d.out.length + 1) = c.toNat := by
    rw [hway, Nat.add_mul_div_left _ _ (by omega), Nat.div_eq_of_lt hlt]
    have := h.code_le
    omega
  have hplace : (d.position + e.distance) % (d.out.length + 1) = below.length := by
    rw [hway, Nat.add_mul_mod_self_left, Nat.mod_eq_of_lt hlt]
  rw [Decoder.insert?_eq hcode hplace, h.isFirst, h.count, hout, insertIdx_append]

/-- A character of the code point is written as the distance to it. -/
theorem pass_self (e : Encoder) (c : Char) : e.pass c.toNat c =
    { distance := 0
      bias := fitted e.distance (e.count + 1) e.isFirst
      count := e.count + 1
      isFirst := false
      out := e.out ++ digits e.bias 36 e.distance } := by
  unfold Encoder.pass
  rw [if_neg (Nat.lt_irrefl _), if_pos rfl]

/-- A character of the code point is written, read, and put in where it is. -/
theorem InStep.write {c : Char} (h : InStep c.toNat behind (c :: ahead) e d)
    (hlen : (behind ++ c :: ahead).length ≤ 1000) :
    ∃ f, (digits e.bias 36 e.distance).foldlM Decoder.push? d = some f ∧
      InStep c.toNat (behind ++ [c]) ahead (e.pass c.toNat c) f := by
  have hvalid : c.toNat.isValidChar := c.valid
  have hcode : c.toNat < 0x110000 := by
    rcases hvalid with hlow | hhigh <;> omega
  have hbound := h.way_lt hcode hlen
  have hread := foldlM_digits [] e.distance d (by rw [h.distance, h.weight]; omega)
    (fun _ => ⟨0, h.weight⟩)
  rw [List.append_nil, h.bias, h.place, h.distance, h.weight, Nat.zero_add, Nat.mul_one] at hread
  have hinsert := h.insert?_eq rfl rfl
  have hout := h.out
  rw [List.filter_cons_of_neg (by simp)] at hout
  generalize hbelow : behind.filter (fun x => decide (x.toNat ≤ c.toNat)) = below at *
  generalize habove : ahead.filter (fun x => decide (x.toNat < c.toNat)) = above at *
  have hbehind : (behind ++ [c]).filter (fun x => decide (x.toNat ≤ c.toNat)) = below ++ [c] := by
    rw [List.filter_append, hbelow, List.filter_cons_of_pos (by simp), List.filter_nil]
  refine ⟨_, hread.trans (by rw [hinsert]; rfl), ?_⟩
  rw [pass_self]
  exact {
    out := by rw [hbehind, habove, List.append_assoc, List.singleton_append]
    count := by
      show e.count + 1 = (below ++ c :: above).length
      rw [h.count, hout, List.length_append, List.length_append, List.length_cons, Nat.add_assoc]
    bias := rfl
    isFirst := by simp
    distance := rfl
    weight := rfl
    place := rfl
    code_le := Nat.le_refl _
    way := by
      rw [hbehind, List.length_append, List.length_singleton]
      simp }

/-- One character of the text is passed. -/
theorem InStep.pass {c : Char} (h : InStep code behind (c :: ahead) e d)
    (hlen : (behind ++ c :: ahead).length ≤ 1000) :
    ∃ f more, (e.pass code c).out = e.out ++ more ∧ more.foldlM Decoder.push? d = some f ∧
      InStep code (behind ++ [c]) ahead (e.pass code c) f := by
  rcases Nat.lt_trichotomy c.toNat code with hlt | rfl | hgt
  · have hpass : e.pass code c = { e with distance := e.distance + 1 } := by
      unfold Encoder.pass
      rw [if_pos hlt]
    have hbehind : (behind ++ [c]).filter (fun x => decide (x.toNat ≤ code)) =
        behind.filter (fun x => decide (x.toNat ≤ code)) ++ [c] := by
      rw [List.filter_append, List.filter_cons_of_pos (by simpa using Nat.le_of_lt hlt),
        List.filter_nil]
    have hout := h.out
    rw [List.filter_cons_of_pos (by simpa using hlt)] at hout
    rw [hpass]
    refine ⟨d, [], (List.append_nil _).symm, rfl, { h with out := ?_, way := ?_ }⟩
    · rw [hout, hbehind, List.append_assoc, List.singleton_append]
    · have hway := h.way
      rw [hbehind, List.length_append, List.length_singleton]
      dsimp only
      omega
  · have hpass : (e.pass c.toNat c).out = e.out ++ digits e.bias 36 e.distance := by
      rw [pass_self]
    obtain ⟨f, hread, hstep⟩ := h.write hlen
    exact ⟨f, _, hpass, hread, hstep⟩
  · have hpass : e.pass code c = e := by
      unfold Encoder.pass
      rw [if_neg (by omega), if_neg (by omega)]
    have hbehind : (behind ++ [c]).filter (fun x => decide (x.toNat ≤ code)) =
        behind.filter (fun x => decide (x.toNat ≤ code)) := by
      rw [List.filter_append, List.filter_cons_of_neg (by simpa using hgt), List.filter_nil,
        List.append_nil]
    have hout := h.out
    rw [List.filter_cons_of_neg (by simpa using Nat.le_of_lt hgt)] at hout
    rw [hpass]
    refine ⟨d, [], (List.append_nil _).symm, rfl, { h with out := ?_, way := ?_ }⟩
    · rw [hout, hbehind]
    · rw [hbehind]
      exact h.way

/-- All that is ahead is passed. -/
theorem InStep.foldl_pass : ∀ {ahead behind : List Char} {e : Encoder} {d : Decoder},
    InStep code behind ahead e d → (behind ++ ahead).length ≤ 1000 →
    ∃ f more, (ahead.foldl (Encoder.pass code) e).out = e.out ++ more ∧
      more.foldlM Decoder.push? d = some f ∧
      InStep code (behind ++ ahead) [] (ahead.foldl (Encoder.pass code) e) f
  | [], behind, e, d, h, _ => ⟨d, [], (List.append_nil _).symm, rfl, by rwa [List.append_nil]⟩
  | c :: ahead, behind, e, d, h, hlen => by
    obtain ⟨f, more, hout, hread, hstep⟩ := h.pass hlen
    have hassoc : behind ++ c :: ahead = behind ++ [c] ++ ahead := by
      rw [List.append_assoc, List.singleton_append]
    obtain ⟨g, rest, hout', hread', hstep'⟩ := hstep.foldl_pass (hassoc ▸ hlen)
    refine ⟨g, more ++ rest, ?_, ?_, hassoc ▸ hstep'⟩
    · rw [List.foldl_cons, hout', hout, List.append_assoc]
    · rw [List.foldlM_append, hread]
      exact hread'

/-- The writer goes on to a code point that none of the text stands before. -/
theorem InStep.next {cs : List Char} {next : Nat} (h : InStep next [] cs e d) {code : Nat}
    (hle : next ≤ code) (hnone : ∀ c ∈ cs, c.toNat < next ∨ code ≤ c.toNat) :
    InStep code [] cs { e with distance := e.distance + (code - next) * (e.count + 1) } d := by
  have hsame : cs.filter (fun c => decide (c.toNat < code)) =
      cs.filter fun c => decide (c.toNat < next) :=
    List.filter_congr fun c hc => by
      rcases hnone c hc with hlow | hhigh
      · rw [decide_eq_true hlow, decide_eq_true (Nat.lt_of_lt_of_le hlow hle)]
      · rw [decide_eq_false (by omega), decide_eq_false (by omega)]
  refine { h with
    out := by rw [h.out, hsame, List.filter_nil, List.filter_nil]
    code_le := Nat.le_trans h.code_le hle
    way := ?_ }
  have hway := h.way
  have hcode := h.code_le
  have hsplit : (code - d.code) * (e.count + 1) =
      (next - d.code) * (e.count + 1) + (code - next) * (e.count + 1) := by
    rw [← Nat.add_mul]
    congr 1
    omega
  simp only [List.filter_nil, List.length_nil, Nat.add_zero] at hway ⊢
  omega

/-- At the end of the text the writer stands before the next code point. -/
theorem InStep.turn {cs : List Char} (h : InStep code cs [] e d) :
    InStep (code + 1) [] cs { e with distance := e.distance + 1 } d := by
  have hsame : cs.filter (fun c => decide (c.toNat < code + 1)) =
      cs.filter fun c => decide (c.toNat ≤ code) := by
    simp only [Nat.lt_succ_iff]
  have hout := h.out
  rw [List.filter_nil, List.append_nil] at hout
  refine { h with
    out := by rw [hout, hsame, List.filter_nil, List.nil_append]
    code_le := Nat.le_succ_of_le h.code_le
    way := ?_ }
  have hway := h.way
  have hcode := h.code_le
  have hround : (code + 1 - d.code) * (e.count + 1) =
      (code - d.code) * (e.count + 1) + (e.count + 1) := by
    rw [Nat.succ_sub hcode, Nat.succ_mul]
  rw [← hout, ← h.count] at hway
  simp only [List.filter_nil, List.length_nil, Nat.add_zero]
  omega

end

/-- When all the code points are written, the reader has the text. -/
theorem InStep.writeCodes {cs : List Char} (hlen : cs.length ≤ 1000) :
    ∀ {codes : List Nat} {next : Nat} {e : Encoder} {d : Decoder}, InStep next [] cs e d →
      codes.Pairwise (· < ·) → (∀ code ∈ codes, next ≤ code) →
      (∀ c ∈ cs, next ≤ c.toNat → c.toNat ∈ codes) →
      ∃ f more, (Encoder.writeCodes cs next e codes).out = e.out ++ more ∧
        more.foldlM Decoder.push? d = some f ∧ f.out = cs ∧ f.place = 36
  | [], next, e, d, h, _, _, hall => by
    refine ⟨d, [], (List.append_nil _).symm, rfl, ?_, h.place⟩
    have hbelow : ∀ c ∈ cs, decide (c.toNat < next) = true := by
      intro c hc
      rw [decide_eq_true_iff]
      exact Nat.lt_of_not_le fun hle => by simpa using hall c hc hle
    rw [h.out, List.filter_nil, List.nil_append, List.filter_eq_self.mpr hbelow]
  | code :: codes, next, e, d, h, hsorted, hnext, hall => by
    obtain ⟨hfirst, hrest⟩ := List.pairwise_cons.mp hsorted
    have hcode : InStep code [] cs _ d := h.next (hnext code List.mem_cons_self) fun c hc => by
      by_cases hlt : c.toNat < next
      · exact .inl hlt
      · rcases List.mem_cons.mp (hall c hc (by omega)) with heq | hmem
        · exact .inr (Nat.le_of_eq heq.symm)
        · exact .inr (Nat.le_of_lt (hfirst _ hmem))
    obtain ⟨f, more, hout, hread, hpassed⟩ := hcode.foldl_pass (by simpa using hlen)
    rw [List.nil_append] at hpassed
    obtain ⟨g, rest, hout', hread', hg⟩ := InStep.writeCodes hlen hpassed.turn hrest
      (fun other hother => hfirst other hother) (fun c hc hle => by
        have hmem := hall c hc (by have := hnext code List.mem_cons_self; omega)
        rcases List.mem_cons.mp hmem with heq | hmem
        · omega
        · exact hmem)
    refine ⟨g, more ++ rest, ?_, ?_, hg⟩
    · unfold Encoder.writeCodes
      rw [hout']
      dsimp only at hout ⊢
      rw [hout, List.append_assoc]
    · rw [List.foldlM_append, hread]
      exact hread'

/-! ### Whole texts -/

/-- The code points of a text beyond ASCII, each once, in ascending order. -/
def codesOf (cs : List Char) : List Nat :=
  (((cs.filter fun c => !decide (c.toNat < 0x80)).map Char.toNat).mergeSort).eraseDups

/-- What is written of a text behind its ASCII characters. -/
def tailOf (cs : List Char) : List Char :=
  (Encoder.writeCodes cs 0x80 { count := (cs.filter fun c => decide (c.toNat < 0x80)).length }
    (codesOf cs)).out

theorem encode_eq (cs : List Char) : encode cs =
    (if cs.filter (fun c => decide (c.toNat < 0x80)) = [] then []
      else cs.filter (fun c => decide (c.toNat < 0x80)) ++ ['-']) ++ tailOf cs := by
  unfold encode
  rw [List.partition_eq_filter_filter]
  rfl

theorem pairwise_eraseDups : ∀ {l : List Nat}, l.Pairwise (· ≤ ·) → l.eraseDups.Pairwise (· < ·)
  | [], _ => List.Pairwise.nil
  | n :: l, h => by
    obtain ⟨hfirst, hrest⟩ := List.pairwise_cons.mp h
    rw [List.eraseDups_cons, List.pairwise_cons]
    refine ⟨fun m hm => ?_, pairwise_eraseDups (hrest.filter _)⟩
    obtain ⟨hmem, hne⟩ := List.mem_filter.mp (List.mem_eraseDups.mp hm)
    have hle := hfirst m hmem
    simp only [Bool.not_eq_true', beq_eq_false_iff_ne] at hne
    omega
termination_by l => l.length
decreasing_by
  exact Nat.lt_succ_of_le (List.length_filter_le _ _)

theorem pairwise_codesOf (cs : List Char) : (codesOf cs).Pairwise (· < ·) := by
  refine pairwise_eraseDups ?_
  have hsorted := @List.pairwise_mergeSort Nat (fun a b => decide (a ≤ b))
    (fun a b c hab hbc => by simp only [decide_eq_true_iff] at *; omega)
    (fun a b => by simp only [Bool.or_eq_true, decide_eq_true_iff]; omega)
    ((cs.filter fun c => !decide (c.toNat < 0x80)).map Char.toNat)
  exact hsorted.imp fun h => of_decide_eq_true h

theorem mem_codesOf {cs : List Char} {code : Nat} :
    code ∈ codesOf cs ↔ 0x80 ≤ code ∧ ∃ c ∈ cs, c.toNat = code := by
  unfold codesOf
  rw [List.mem_eraseDups, List.mem_mergeSort, List.mem_map]
  constructor
  · rintro ⟨c, hc, rfl⟩
    obtain ⟨hmem, hlarge⟩ := List.mem_filter.mp hc
    exact ⟨by simpa using hlarge, c, hmem, rfl⟩
  · rintro ⟨hlarge, c, hmem, rfl⟩
    exact ⟨c, List.mem_filter.mpr ⟨hmem, by simpa using hlarge⟩, rfl⟩

/-- The reader of what is behind the ASCII characters comes to the text. -/
theorem read_tailOf {cs : List Char} (hlen : cs.length ≤ 1000) :
    ∃ d : Decoder, (tailOf cs).foldlM Decoder.push?
        { out := cs.filter fun c => decide (c.toNat < 0x80) } = some d ∧
      d.out = cs ∧ d.place = 36 := by
  have hstart : InStep 0x80 [] cs
      { count := (cs.filter fun c => decide (c.toNat < 0x80)).length }
      { out := cs.filter fun c => decide (c.toNat < 0x80) } :=
    { out := rfl, count := rfl, bias := rfl, isFirst := rfl, distance := rfl, weight := rfl,
      place := rfl, code_le := Nat.le_refl _, way := by simp }
  obtain ⟨d, more, hout, hread, hd⟩ := hstart.writeCodes hlen (pairwise_codesOf cs)
    (fun code hcode => (mem_codesOf.mp hcode).1)
    (fun c hc hlarge => mem_codesOf.mpr ⟨hlarge, c, hc, rfl⟩)
  exact ⟨d, by rw [tailOf, hout, List.nil_append]; exact hread, hd⟩

/-- A character of digits. -/
def IsDigitChar (c : Char) : Prop := ∃ n < 36, c = digitChar n

theorem isDigitChar_of_mem_digits {bias place n : Nat} {c : Char}
    (h : c ∈ digits bias place n) : IsDigitChar c := by
  induction n using Nat.strongRecOn generalizing place with
  | ind n ih =>
    have hpos := threshold_pos bias place
    have hle := threshold_le bias place
    unfold digits at h
    dsimp only at h
    split at h
    · exact ⟨n, by omega, List.mem_singleton.mp h⟩
    · rcases List.mem_cons.mp h with rfl | h
      · have := Nat.mod_lt (n - threshold bias place) (show 0 < 36 - threshold bias place by omega)
        exact ⟨_, by omega, rfl⟩
      · have := Nat.div_le_self (n - threshold bias place) (36 - threshold bias place)
        exact ih _ (by omega) h

theorem isDigitChar_of_mem_pass {code : Nat} {e : Encoder} {c : Char}
    (h : ∀ x ∈ e.out, IsDigitChar x) : ∀ x ∈ (e.pass code c).out, IsDigitChar x := by
  unfold Encoder.pass
  split
  · exact h
  split
  · intro x hx
    rcases List.mem_append.mp hx with hx | hx
    · exact h x hx
    · exact isDigitChar_of_mem_digits hx
  · exact h

theorem isDigitChar_of_mem_writeCodes (cs : List Char) : ∀ {codes : List Nat} {next : Nat}
    {e : Encoder}, (∀ x ∈ e.out, IsDigitChar x) →
      ∀ x ∈ (Encoder.writeCodes cs next e codes).out, IsDigitChar x
  | [], _, _, h => h
  | code :: codes, next, e, h => by
    have hpasses : ∀ (ds : List Char) (f : Encoder), (∀ x ∈ f.out, IsDigitChar x) →
        ∀ x ∈ (ds.foldl (Encoder.pass code) f).out, IsDigitChar x := by
      intro ds
      induction ds with
      | nil => exact fun _ hf => hf
      | cons d ds ih => exact fun f hf => ih _ (isDigitChar_of_mem_pass hf)
    unfold Encoder.writeCodes
    exact isDigitChar_of_mem_writeCodes cs (hpasses cs _ h)

theorem isDigitChar_of_mem_tailOf {cs : List Char} : ∀ x ∈ tailOf cs, IsDigitChar x :=
  isDigitChar_of_mem_writeCodes cs (by simp)

theorem IsDigitChar.ne_hyphen {c : Char} (h : IsDigitChar c) : c ≠ '-' := by
  obtain ⟨n, hn, rfl⟩ := h
  exact (by decide : ∀ n < 36, digitChar n ≠ '-') n hn

/-- What is behind the last hyphen of a code is what is written behind its ASCII characters. -/
theorem behind_encode (cs : List Char) :
    ((encode cs).reverse.takeWhile (· ≠ '-')).reverse = tailOf cs := by
  have hplain : ∀ x ∈ (tailOf cs).reverse, decide (x ≠ '-') = true := fun x hx =>
    decide_eq_true (isDigitChar_of_mem_tailOf x (List.mem_reverse.mp hx)).ne_hyphen
  rw [encode_eq]
  split
  · rw [List.nil_append, List.takeWhile_eq_self_iff.mpr hplain, List.reverse_reverse]
  · have hreverse : ∀ as bs : List Char,
        (as ++ ['-'] ++ bs).reverse = bs.reverse ++ '-' :: as.reverse := by simp
    rw [hreverse, List.takeWhile_append_of_pos hplain, List.takeWhile_cons_of_neg (by simp),
      List.append_nil, List.reverse_reverse]

theorem ahead_encode (cs : List Char) :
    (encode cs).take ((encode cs).length - (tailOf cs).length - 1) =
      cs.filter fun c => decide (c.toNat < 0x80) := by
  rw [encode_eq]
  split
  · rename_i hnone
    rw [List.nil_append, Nat.sub_self, Nat.zero_sub, List.take_zero, hnone]
  · have hlen : ∀ as bs : List Char,
        (as ++ ['-'] ++ bs).length - bs.length - 1 = as.length := by
      intro as bs
      simp only [List.length_append, List.length_singleton]
      omega
    rw [hlen, List.append_assoc, List.take_left]

/-- The text of a label is read back from its code. -/
theorem decode?_encode {cs : List Char} (hlen : cs.length ≤ 1000) :
    decode? (encode cs) = some cs := by
  obtain ⟨d, hread, hout, hplace⟩ := read_tailOf hlen
  have hdigits : (if cs.filter (fun c => decide (c.toNat < 0x80)) = [] then encode cs
      else tailOf cs) = tailOf cs := by
    split
    · rename_i hnone
      rw [encode_eq, if_pos hnone, List.nil_append]
    · rfl
  unfold decode?
  simp only [behind_encode, ahead_encode, hdigits, hread, Option.bind_eq_bind, Option.bind_some,
    hplace, if_true, hout]

/-- A text that is not all ASCII has digits at the end of its code. -/
theorem tailOf_ne_nil {cs : List Char} (hlen : cs.length ≤ 1000)
    (h : ¬ ∀ c ∈ cs, c.toNat < 0x80) : tailOf cs ≠ [] := by
  intro hnil
  obtain ⟨d, hread, hout, -⟩ := read_tailOf hlen
  rw [hnil] at hread
  cases hread
  have hall := List.filter_eq_self.mp hout
  exact h fun c hc => of_decide_eq_true (hall c hc)

theorem getLast?_encode {cs : List Char} (hlen : cs.length ≤ 1000)
    (h : ¬ ∀ c ∈ cs, c.toNat < 0x80) : ∃ c, IsDigitChar c ∧ (encode cs).getLast? = some c := by
  have hc := List.getLast?_eq_some_getLast (tailOf_ne_nil hlen h)
  generalize (tailOf cs).getLast _ = c at hc
  refine ⟨c, isDigitChar_of_mem_tailOf c (List.mem_of_getLast? hc), ?_⟩
  rw [encode_eq, List.getLast?_append, hc]
  rfl

/-- A code is written in the text's ASCII characters, a hyphen, and digits. -/
theorem mem_encode {cs : List Char} {c : Char} (h : c ∈ encode cs) :
    (c ∈ cs ∧ c.toNat < 0x80) ∨ c = '-' ∨ IsDigitChar c := by
  rw [encode_eq] at h
  rcases List.mem_append.mp h with h | h
  · split at h
    · cases h
    · rcases List.mem_append.mp h with h | h
      · obtain ⟨hmem, hsmall⟩ := List.mem_filter.mp h
        exact .inl ⟨hmem, of_decide_eq_true hsmall⟩
      · exact .inr (.inl (List.mem_singleton.mp h))
  · exact .inr (.inr (isDigitChar_of_mem_tailOf c h))

end Punycode
end LanInference
