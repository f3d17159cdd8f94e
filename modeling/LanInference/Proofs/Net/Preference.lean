/-
# The preferred address

Addresses are ranked by their numbers, IPv4 before IPv6, and no two have the same rank. So the
preferred one of several addresses is the one that none of them ranks before, and it depends on
which addresses they are, not on their order or on how often they come.

Key theorems: `Address.rank_inj`, `Address.preferred?_eq_some_iff`, `Address.preferred?_congr`.
-/
import LanInference.Net.Address

namespace LanInference

namespace Ipv4

theorem value_lt (a : Ipv4) : a.value < UInt32.size := by
  have ha := a.a.toNat_lt
  have hb := a.b.toNat_lt
  have hc := a.c.toNat_lt
  have hd := a.d.toNat_lt
  show ((a.a.toNat * 256 + a.b.toNat) * 256 + a.c.toNat) * 256 + a.d.toNat < 4294967296
  omega

theorem eq_of_value_eq {a b : Ipv4} (h : a.value = b.value) : a = b := by
  obtain ⟨a1, a2, a3, a4⟩ := a
  obtain ⟨b1, b2, b3, b4⟩ := b
  have ha2 := a2.toNat_lt
  have ha3 := a3.toNat_lt
  have ha4 := a4.toNat_lt
  have hb2 := b2.toNat_lt
  have hb3 := b3.toNat_lt
  have hb4 := b4.toNat_lt
  simp only [value] at h
  rw [mk.injEq, ← UInt8.toNat_inj, ← UInt8.toNat_inj, ← UInt8.toNat_inj, ← UInt8.toNat_inj]
  omega

end Ipv4

/-- Groups are the digits of a number to the base 65536. -/
theorem groups_eq_of_foldl_eq : ∀ {gs hs : List UInt16} {m n : Nat}, gs.length = hs.length →
    gs.foldl (fun n g => n * 65536 + g.toNat) m = hs.foldl (fun n g => n * 65536 + g.toNat) n →
    m = n ∧ gs = hs
  | [], [], _, _, _, h => ⟨h, rfl⟩
  | [], _ :: _, _, _, hlength, _ => by cases hlength
  | _ :: _, [], _, _, hlength, _ => by cases hlength
  | g :: gs, k :: hs, m, n, hlength, h => by
    obtain ⟨hfront, rfl⟩ := groups_eq_of_foldl_eq (Nat.succ.inj hlength) h
    have hdigits : m * 65536 + g.toNat = n * 65536 + k.toNat := hfront
    have hg := g.toNat_lt
    have hk := k.toNat_lt
    have hsame : m = n ∧ g.toNat = k.toNat := by omega
    exact ⟨hsame.1, by rw [UInt16.toNat_inj.mp hsame.2]⟩

theorem Ipv6.eq_of_value_eq {a b : Ipv6} (h : a.value = b.value) : a = b := by
  obtain ⟨gs, hgs⟩ := a
  obtain ⟨hs, hhs⟩ := b
  obtain ⟨-, rfl⟩ := groups_eq_of_foldl_eq (hgs.trans hhs.symm) h
  rfl

namespace Address

/-- **No two addresses have the same rank.** -/
theorem rank_inj {a b : Address} : a.rank = b.rank ↔ a = b := by
  refine ⟨fun h => ?_, fun h => congrArg rank h⟩
  cases a with
  | v4 a =>
    cases b with
    | v4 b => rw [Ipv4.eq_of_value_eq h]
    | v6 b =>
      have hlt := a.value_lt
      simp only [rank] at h
      omega
  | v6 a =>
    cases b with
    | v4 b =>
      have hlt := b.value_lt
      simp only [rank] at h
      omega
    | v6 b => rw [Ipv6.eq_of_value_eq (Nat.add_left_cancel h)]

theorem preferred?_eq_none_iff : ∀ {as : List Address}, preferred? as = none ↔ as = []
  | [] => by simp [preferred?]
  | a :: as => by
    unfold preferred?
    split <;> simp

/-- **The preferred address is one of them, and none ranks before it.** -/
theorem preferred?_eq_some_iff : ∀ {as : List Address} {a : Address},
    preferred? as = some a ↔ a ∈ as ∧ ∀ b ∈ as, a.rank ≤ b.rank
  | [], a => by simp [preferred?]
  | x :: as, a => by
    unfold preferred?
    split
    · rename_i hnone
      rw [preferred?_eq_none_iff.mp hnone]
      simp only [Option.some.injEq, List.mem_singleton, forall_eq]
      constructor
      · rintro rfl
        exact ⟨rfl, Nat.le_refl _⟩
      · rintro ⟨rfl, -⟩
        rfl
    · rename_i y hy
      obtain ⟨hmem, hleast⟩ := preferred?_eq_some_iff.mp hy
      rw [Option.some.injEq, List.forall_mem_cons]
      constructor
      · rintro rfl
        by_cases hle : x.rank ≤ y.rank
        · rw [if_pos hle]
          exact ⟨List.mem_cons_self, Nat.le_refl _, fun b hb => Nat.le_trans hle (hleast b hb)⟩
        · rw [if_neg hle]
          exact ⟨List.mem_cons_of_mem _ hmem, by omega, hleast⟩
      · rintro ⟨ha, hx, has⟩
        have hy' : a.rank ≤ y.rank := has y hmem
        rcases List.mem_cons.mp ha with rfl | ha
        · rw [if_pos hy']
        · have hback : y.rank ≤ a.rank := hleast a ha
          have heq : y = a := rank_inj.mp (by omega)
          by_cases hle : x.rank ≤ y.rank
          · rw [if_pos hle]
            exact rank_inj.mp (by omega)
          · rw [if_neg hle, heq]

/-- **The order of addresses does not matter, nor do repetitions.** -/
theorem preferred?_congr {as bs : List Address} (h : ∀ a, a ∈ as ↔ a ∈ bs) :
    preferred? as = preferred? bs := by
  refine Option.ext fun a => ?_
  rw [preferred?_eq_some_iff, preferred?_eq_some_iff, h a]
  simp only [h]

end Address
end LanInference
