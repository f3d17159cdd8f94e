/-
# Addresses are read back

Every address is read back from its text, so no two addresses have the same text. An IPv4 address is
read octet by octet. The groups of an IPv6 address are read up to the double colon or the end of the
text; what the double colon stands for is known from how many groups are left, whichever run of
zeros was left out (`longestZeroRun_lies`). A group is never taken for an IPv4 address, for no dot
follows it, and only the text of an IPv4-mapped address has a dot.

Key definitions: `ZeroRun.Lies`, `Closed`, `IsAddressChar`.
Key theorems: `Ipv4.read?_text`, `readGroups_groupsText`, `longestZeroRun_lies`, `Ipv6.read?_text`,
`Address.parse?_text`, `Address.text_inj`.
-/
import Mathlib.Data.List.Basic
import LanInference.Net.Address
import LanInference.Proofs.Text.Digits

namespace LanInference

open Text

/-! ### IPv4 -/

theorem isDigit_decimal (n : Nat) : ∀ c ∈ decimal n, c.isDigit = true :=
  fun _ hc => isDigit_of_mem_decimal hc

/-- An octet is read up to the end of its digits. -/
theorem octet?_decimal (n : UInt8) {rest : List Char}
    (hr : ∀ c, rest.head? = some c → c.isDigit = false) :
    octet? (decimal n.toNat ++ rest) = some (n, rest) := by
  have hn : n.toNat < 256 := n.toNat_lt
  have hne : decimal n.toNat ≠ [] := Nat.toDigits_ne_nil
  have hlength : (decimal n.toNat).length ≤ 3 :=
    (Nat.length_toDigits_le_iff (by decide) (by decide)).mpr (by omega)
  have hzero : ¬ (1 < (decimal n.toNat).length ∧ (decimal n.toNat).head? = some '0') := by
    rintro ⟨hlong, hhead⟩
    have hone := head?_decimal hhead
    omega
  rw [octet?, span_append (isDigit_decimal n.toNat) hr]
  simp only [decimalValue_decimal]
  rw [if_neg, UInt8.ofNat_toNat]
  rintro (h | h | h | h)
  · exact hne h
  · omega
  · exact hzero h
  · omega

theorem Ipv4.text_eq (a : Ipv4) : a.text = decimal a.a.toNat ++ '.' :: (decimal a.b.toNat ++
    '.' :: (decimal a.c.toNat ++ '.' :: decimal a.d.toNat)) := by
  simp [text, List.intercalate, List.intersperse]

theorem head?_dot {rest : List Char} :
    ∀ c, ('.' :: rest).head? = some c → c.isDigit = false := by
  rintro c hc
  cases hc
  decide

/-- **An IPv4 address is read back.** -/
theorem Ipv4.read?_text (a : Ipv4) : Ipv4.read? a.text = some (a, []) := by
  have hend : ∀ c, ([] : List Char).head? = some c → c.isDigit = false := by simp
  have hlast := octet?_decimal a.d hend
  rw [List.append_nil] at hlast
  simp [read?, text_eq, octet?_decimal _ head?_dot, after?, hlast]

/-- Where no dot follows the digits, there is no IPv4 address. -/
theorem Ipv4.read?_eq_none {cs : List Char} (h : (cs.dropWhile Char.isDigit).head? ≠ some '.') :
    Ipv4.read? cs = none := by
  have hdot : ∀ rest, cs.dropWhile Char.isDigit = rest → after? '.' rest = none := by
    rintro rest rfl
    cases hrest : cs.dropWhile Char.isDigit with
    | nil => rfl
    | cons d ds =>
      rw [hrest, List.head?_cons] at h
      exact if_neg fun hd => h (congrArg some hd)
  unfold read? octet?
  rw [List.span_eq_takeWhile_dropWhile]
  dsimp only
  split
  · rfl
  · simp [hdot _ rfl]

/-! ### Groups -/

theorem exists_of_mem_groupText {g : UInt16} {c : Char} (h : c ∈ groupText g) :
    ∃ k < 16, c = Nat.digitChar k := exists_of_mem_toDigits (by decide) h

theorem isSome_hexDigit?_of_mem {g : UInt16} : ∀ c ∈ groupText g, (hexDigit? c).isSome = true := by
  intro c hc
  obtain ⟨k, hk, rfl⟩ := exists_of_mem_groupText hc
  rw [hexDigit?_digitChar hk]
  rfl

theorem dot_not_mem_groupText (g : UInt16) : '.' ∉ groupText g := by
  intro h
  obtain ⟨k, hk, hdot⟩ := exists_of_mem_groupText h
  exact digitChar_ne hk (by decide) hdot.symm

/-- What follows is nothing or starts with a colon. -/
def AtColon (rest : List Char) : Prop := ∀ c, rest.head? = some c → c = ':'

theorem atColon_nil : AtColon [] := by simp [AtColon]

theorem atColon_cons (rest : List Char) : AtColon (':' :: rest) := by
  rintro c hc
  cases hc
  rfl

/-- A group is read up to the end of its digits. -/
theorem group?_groupText (g : UInt16) {rest : List Char} (hr : AtColon rest) :
    group? (groupText g ++ rest) = some (g, rest) := by
  have hlength : (groupText g).length ≤ 4 :=
    (Nat.length_toDigits_le_iff (by decide) (by decide)).mpr g.toNat_lt
  have hne : groupText g ≠ [] := Nat.toDigits_ne_nil
  have hhex : ∀ c, rest.head? = some c → (hexDigit? c).isSome = false := by
    intro c hc
    rw [hr c hc]
    decide
  have hvalue : hexValue? (groupText g) = some g.toNat := hexValue?_toDigits g.toNat
  rw [group?, span_append isSome_hexDigit?_of_mem hhex]
  dsimp only
  rw [if_neg, hvalue, Option.map_some, UInt16.ofNat_toNat]
  rintro (h | h)
  · exact hne h
  · omega

/-- Where the text starts with no digit, there is no group. -/
theorem group?_of_atColon {rest : List Char} (hr : AtColon rest) : group? rest = none := by
  cases rest with
  | nil => rfl
  | cons c cs =>
    have hc : c = ':' := hr c rfl
    subst hc
    have hcolon : ((hexDigit? ':').isSome) = false := by decide
    simp [group?, List.span_eq_takeWhile_dropWhile, hcolon]

/-- No IPv4 address starts with characters other than dots that end at a colon. -/
theorem Ipv4.read?_of_atColon : ∀ {cs rest : List Char}, '.' ∉ cs → AtColon rest →
    Ipv4.read? (cs ++ rest) = none := by
  intro cs rest hcs hr
  refine read?_eq_none ?_
  induction cs with
  | nil =>
    cases rest with
    | nil => simp
    | cons c rest =>
      have hc : c = ':' := hr c rfl
      subst hc
      have hcolon : Char.isDigit ':' = false := by decide
      simp [hcolon]
  | cons c cs ih =>
    rw [List.cons_append, List.dropWhile_cons]
    split
    · exact ih fun h => hcs (List.mem_cons_of_mem c h)
    · rw [List.head?_cons]
      intro hdot
      exact hcs (by rw [Option.some.inj hdot]; exact List.mem_cons_self)

/-- Nothing goes on with groups: the text is over, or a double colon comes. -/
def Closed (rest : List Char) : Prop := rest = [] ∨ ∃ more, rest = ':' :: ':' :: more

theorem Closed.atColon {rest : List Char} (h : Closed rest) : AtColon rest := by
  rcases h with rfl | ⟨more, rfl⟩
  · exact atColon_nil
  · exact atColon_cons _

theorem readGroups_of_closed {rest : List Char} (h : Closed rest) (n : Nat) (first : Bool) :
    readGroups n first rest = ⟨[], false, rest⟩ := by
  have hnone : ∀ here, AtColon here → (if n - 1 = 0 then none else Ipv4.read? here) = none ∧
      group? here = none := by
    intro here hhere
    have h4 : Ipv4.read? ([] ++ here) = none := Ipv4.read?_of_atColon List.not_mem_nil hhere
    rw [List.nil_append] at h4
    exact ⟨by rw [h4, ite_self], group?_of_atColon hhere⟩
  cases n with
  | zero => rfl
  | succ n =>
    rw [Nat.add_sub_cancel] at hnone
    rw [readGroups]
    cases first with
    | true =>
      obtain ⟨h4, hgroup⟩ := hnone rest h.atColon
      simp only [if_true, h4, hgroup]
    | false =>
      rcases h with rfl | ⟨more, rfl⟩
      · rfl
      · obtain ⟨h4, hgroup⟩ := hnone (':' :: more) (atColon_cons more)
        simp only [Bool.false_eq_true, if_false, after?, if_true, h4, hgroup]

/-- The text of groups that follow another one. -/
def laterText (gs : List UInt16) : List Char := gs.flatMap fun g => ':' :: groupText g

theorem atColon_laterText (gs : List UInt16) {rest : List Char} (hr : Closed rest) :
    AtColon (laterText gs ++ rest) := by
  cases gs with
  | nil => exact hr.atColon
  | cons g gs => exact atColon_cons _

theorem groupsText_cons (g : UInt16) : ∀ gs : List UInt16,
    groupsText (g :: gs) = groupText g ++ laterText gs := by
  intro gs
  induction gs generalizing g with
  | nil => simp [groupsText, laterText, List.intercalate]
  | cons k gs ih =>
    have hstep : groupsText (g :: k :: gs) = groupText g ++ ':' :: groupsText (k :: gs) := by
      simp [groupsText, List.intercalate]
    rw [hstep, ih k]
    simp [laterText]

/-- One group, where an IPv4 address may stand or may not. -/
theorem readGroups_group (n : Nat) (g : UInt16) {rest : List Char} (hr : AtColon rest) :
    readGroups (n + 1) true (groupText g ++ rest) =
      { readGroups n false rest with groups := g :: (readGroups n false rest).groups } := by
  have h4 : Ipv4.read? (groupText g ++ rest) = none :=
    Ipv4.read?_of_atColon (dot_not_mem_groupText g) hr
  rw [readGroups]
  simp only [if_true, h4, ite_self, group?_groupText g hr]

theorem readGroups_later (n : Nat) (rest : List Char) :
    readGroups (n + 1) false (':' :: rest) =
      if (readGroups (n + 1) true rest).groups = [] then ⟨[], false, ':' :: rest⟩
      else readGroups (n + 1) true rest := by
  rw [readGroups, readGroups]
  simp only [Bool.false_eq_true, if_false, after?, if_true]
  split
  · simp
  · split <;> simp

theorem readGroups_laterText {rest : List Char} (hr : Closed rest) : ∀ (gs : List UInt16) (n : Nat),
    gs.length ≤ n → readGroups n false (laterText gs ++ rest) = ⟨gs, false, rest⟩
  | [], n, _ => readGroups_of_closed hr n false
  | g :: gs, 0, hn => by simp at hn
  | g :: gs, n + 1, hn => by
    have ih := readGroups_laterText hr gs n (Nat.le_of_succ_le_succ hn)
    have hgroup := readGroups_group n g (atColon_laterText gs hr)
    have htext : laterText (g :: gs) ++ rest = ':' :: (groupText g ++ (laterText gs ++ rest)) := by
      simp [laterText]
    rw [htext, readGroups_later, hgroup, ih]
    simp

/-- **Groups are read up to the double colon or the end.** -/
theorem readGroups_groupsText {rest : List Char} (hr : Closed rest) (gs : List UInt16) {n : Nat}
    (hn : gs.length ≤ n) : readGroups n true (groupsText gs ++ rest) = ⟨gs, false, rest⟩ := by
  cases gs with
  | nil => exact readGroups_of_closed hr n true
  | cons g gs =>
    cases n with
    | zero => simp at hn
    | succ n =>
      rw [groupsText_cons, List.append_assoc, readGroups_group n g (atColon_laterText gs hr),
        readGroups_laterText hr gs n (Nat.le_of_succ_le_succ hn)]

/-! ### The run that is left out -/

/-- The run is one of zeros in these groups. -/
def ZeroRun.Lies (run : ZeroRun) (gs : List UInt16) : Prop :=
  ∃ front back, gs = front ++ (List.replicate run.length 0 ++ back) ∧
    (run.length ≠ 0 → front.length = run.start)

/-- The run found is one of zeros: the invariant is that the longest run so far is, and that the
current one ends where the groups still to come begin. -/
theorem longestZeroRun_lies : ∀ (gs front : List UInt16) (current longest : ZeroRun),
    (∃ before, front = before ++ List.replicate current.length 0 ∧
      (current.length ≠ 0 → before.length = current.start)) →
    longest.Lies (front ++ gs) → (longestZeroRun front.length current longest gs).Lies (front ++ gs)
  | [], _, _, _, _, hlongest => hlongest
  | g :: gs, front, current, longest, ⟨before, hfront, hstart⟩, hlongest => by
    have hsplit : front ++ g :: gs = (front ++ [g]) ++ gs := by simp
    have hcount : (front ++ [g]).length = front.length + 1 := by simp
    rw [longestZeroRun]
    split
    · rename_i hg
      subst hg
      have hnext : front ++ [0] = before ++ List.replicate (current.length + 1) 0 := by
        rw [hfront, List.replicate_succ', List.append_assoc]
      -- the run that the zero starts or goes on with
      generalize hrun : (if current.length = 0 then (⟨front.length, 1⟩ : ZeroRun)
        else ⟨current.start, current.length + 1⟩) = run
      have hlength : run.length = current.length + 1 := by
        rw [← hrun]
        split <;> simp_all
      have hplace : before.length = run.start := by
        rw [← hrun]
        split
        · rename_i hzero
          rw [hfront, hzero]
          simp
        · rename_i hsome
          exact hstart hsome
      have hlies : run.Lies ((front ++ [0]) ++ gs) := by
        refine ⟨before, gs, ?_, fun _ => hplace⟩
        rw [hnext, hlength, List.append_assoc]
      dsimp only
      rw [hsplit, ← hcount]
      refine longestZeroRun_lies gs (front ++ [0]) run _ ⟨before, ?_, fun _ => hplace⟩ ?_
      · rw [hlength, hnext]
      · rw [hsplit] at hlongest
        split
        · exact hlies
        · exact hlongest
    · rw [hsplit, ← hcount]
      refine longestZeroRun_lies gs (front ++ [g]) ⟨0, 0⟩ longest ?_ (hsplit ▸ hlongest)
      exact ⟨front ++ [g], by simp, by simp⟩

/-! ### IPv6 -/

namespace Ipv6

/-- **Groups are read back,** with a run of zeros left out or without. -/
theorem read?_hexText (a : Ipv6) : Ipv6.read? a.hexText = some (a, []) := by
  obtain ⟨gs, hgs⟩ := a
  have hclosed : Closed [] := .inl rfl
  rw [hexText]
  dsimp only
  generalize hrun : longestZeroRun 0 ⟨0, 0⟩ ⟨0, 0⟩ gs = run
  split
  · rename_i hlong
    have hlies : run.Lies gs := by
      rw [← hrun]
      refine longestZeroRun_lies gs [] ⟨0, 0⟩ ⟨0, 0⟩ ⟨[], rfl, by simp⟩ ?_
      exact ⟨[], gs, by simp, by simp⟩
    obtain ⟨front, back, rfl, hstart⟩ := hlies
    have hfront : front.length = run.start := hstart (by omega)
    have htotal : front.length + (run.length + back.length) = 8 := by simpa using hgs
    have htake : (front ++ (List.replicate run.length 0 ++ back)).take run.start = front := by
      rw [← hfront, List.take_left]
    have hdrop : (front ++ (List.replicate run.length 0 ++ back)).drop (run.start + run.length) =
        back := by
      rw [← hfront, List.drop_append, List.drop_append]
      simp
    have hhead : readGroups 8 true (groupsText front ++ ':' :: ':' :: groupsText back) =
        ⟨front, false, ':' :: ':' :: groupsText back⟩ :=
      readGroups_groupsText (.inr ⟨_, rfl⟩) front (by omega)
    have htail : readGroups (7 - front.length) true (groupsText back) = ⟨back, false, []⟩ := by
      have h := readGroups_groupsText hclosed back (n := 7 - front.length) (by omega)
      rwa [List.append_nil] at h
    have hzeros : 8 - front.length - back.length = run.length := by omega
    have hshort : ¬ front.length = 8 := by omega
    rw [htake, hdrop, read?, hhead]
    simp only [hshort, dif_neg, not_false_eq_true, htail, hzeros, Bool.false_eq_true, if_false,
      List.append_assoc, hgs, dif_pos]
  · have hhead : readGroups 8 true (groupsText gs) = ⟨gs, false, []⟩ := by
      have h := readGroups_groupsText hclosed gs (n := 8) (by omega)
      rwa [List.append_nil] at h
    rw [read?, hhead]
    simp only [hgs, dif_pos]

/-- The two octets of a group make the group. -/
theorem join_octets (g : UInt16) :
    (g >>> 8).toUInt8.toUInt16 <<< 8 ||| g.toUInt8.toUInt16 = g := by
  have hg : g.toNat < 65536 := g.toNat_lt
  have hshift : g.toNat >>> 8 = g.toNat / 256 := Nat.shiftRight_eq_div_pow g.toNat 8
  have hback : (g.toNat / 256) <<< 8 = g.toNat / 256 * 256 := Nat.shiftLeft_eq _ 8
  have hlow : g.toNat % 256 < 2 ^ 8 := Nat.mod_lt _ (by decide)
  rw [← UInt16.toNat_inj]
  calc ((g >>> 8).toUInt8.toUInt16 <<< 8 ||| g.toUInt8.toUInt16).toNat
      = (g.toNat >>> 8 % 256) <<< 8 % 65536 ||| g.toNat % 256 := by simp
    _ = (g.toNat / 256) <<< 8 ||| g.toNat % 256 := by
      rw [hshift, Nat.mod_eq_of_lt (by omega : g.toNat / 256 < 256),
        Nat.mod_eq_of_lt (by omega : (g.toNat / 256) <<< 8 < 65536)]
    _ = (g.toNat / 256) <<< 8 + g.toNat % 256 := (Nat.shiftLeft_add_eq_or_of_lt hlow _).symm
    _ = g.toNat := by omega

/-- Two groups that are written as an IPv4 address, and one in hexadecimal before it. -/
theorem readGroups_mapped (v4 : Ipv4) :
    readGroups 7 true ('f' :: 'f' :: 'f' :: 'f' :: ':' :: v4.text) =
      ⟨[0xFFFF, v4.a.toUInt16 <<< 8 ||| v4.b.toUInt16, v4.c.toUInt16 <<< 8 ||| v4.d.toUInt16],
        true, []⟩ := by
  have htext : 'f' :: 'f' :: 'f' :: 'f' :: ':' :: v4.text =
      groupText 0xFFFF ++ ':' :: v4.text := rfl
  have hafter : readGroups 6 false (':' :: v4.text) =
      ⟨[v4.a.toUInt16 <<< 8 ||| v4.b.toUInt16, v4.c.toUInt16 <<< 8 ||| v4.d.toUInt16],
        true, []⟩ := by
    rw [readGroups_later, readGroups]
    simp [v4.read?_text]
  rw [htext, readGroups_group 6 0xFFFF (atColon_cons _), hafter]

/-- **An IPv6 address is read back.** -/
theorem read?_text (a : Ipv6) : Ipv6.read? a.text = some (a, []) := by
  unfold text
  split
  · rename_i v4 hmapped
    obtain ⟨gs, hgs⟩ := a
    unfold mapped? at hmapped
    split at hmapped
    · rename_i g h heq
      obtain rfl := Option.some.inj hmapped
      simp only at heq
      subst heq
      have hhead := fun more => readGroups_of_closed (.inr ⟨more, rfl⟩) 8 true
      have htail := readGroups_mapped ⟨(g >>> 8).toUInt8, g.toUInt8, (h >>> 8).toUInt8, h.toUInt8⟩
      simp only [join_octets] at htail
      simp [read?, hhead, htail]
    · cases hmapped
  · exact read?_hexText a

end Ipv6

/-! ### Both -/

theorem mem_groupsText {c : Char} : ∀ {gs : List UInt16}, c ∈ groupsText gs →
    c = ':' ∨ ∃ k < 16, c = Nat.digitChar k
  | [], h => by simp [groupsText] at h
  | g :: gs, h => by
    rw [groupsText_cons] at h
    rcases List.mem_append.mp h with h | h
    · exact .inr (exists_of_mem_groupText h)
    · obtain ⟨k, -, hk⟩ := List.mem_flatMap.mp h
      rcases List.mem_cons.mp hk with rfl | hk
      · exact .inl rfl
      · exact .inr (exists_of_mem_groupText hk)

namespace Ipv6

/-- Groups are written with hexadecimal digits and colons. -/
theorem mem_hexText {a : Ipv6} {c : Char} (h : c ∈ a.hexText) :
    c = ':' ∨ ∃ k < 16, c = Nat.digitChar k := by
  unfold hexText at h
  dsimp only at h
  split at h
  · simp only [List.mem_append, List.mem_cons] at h
    rcases h with h | h | h | h
    · exact mem_groupsText h
    · exact .inl h
    · exact .inl h
    · exact mem_groupsText h
  · exact mem_groupsText h

theorem dot_not_mem_hexText (a : Ipv6) : '.' ∉ a.hexText := by
  intro h
  rcases mem_hexText h with hcolon | ⟨k, hk, hdot⟩
  · cases hcolon
  · exact digitChar_ne hk (by decide) hdot.symm

/-- No IPv4 address starts with the text of an IPv6 address. -/
theorem not_ipv4 (a : Ipv6) : Ipv4.read? a.text = none := by
  unfold text
  split
  · rw [← List.nil_append (_ ++ _)]
    exact Ipv4.read?_of_atColon List.not_mem_nil (atColon_cons _)
  · have h := Ipv4.read?_of_atColon a.dot_not_mem_hexText atColon_nil
    rwa [List.append_nil] at h

end Ipv6

/-! ### Characters of addresses -/

/-- The characters that addresses are written with. -/
def IsAddressChar (c : Char) : Prop := c = ':' ∨ c = '.' ∨ ∃ k < 16, c = Nat.digitChar k

theorem IsAddressChar.toLower_eq {c : Char} (h : IsAddressChar c) : c.toLower = c := by
  have hall : ∀ k : Fin 16, (Nat.digitChar k).toLower = Nat.digitChar k := by decide
  rcases h with rfl | rfl | ⟨k, hk, rfl⟩
  · rfl
  · rfl
  · exact hall ⟨k, hk⟩

theorem IsAddressChar.ne_bracket {c : Char} (h : IsAddressChar c) : c ≠ '[' := by
  rcases h with rfl | rfl | ⟨k, hk, rfl⟩
  · decide
  · decide
  · exact digitChar_ne hk (by decide)

theorem isAddressChar_of_mem_decimal {n : Nat} {c : Char} (h : c ∈ decimal n) :
    IsAddressChar c := by
  obtain ⟨k, hk, hc⟩ := exists_of_mem_toDigits (by decide) h
  exact .inr (.inr ⟨k, by omega, hc⟩)

theorem Ipv4.isAddressChar_of_mem {a : Ipv4} {c : Char} (h : c ∈ a.text) : IsAddressChar c := by
  have hdot : IsAddressChar '.' := .inr (.inl rfl)
  rw [text_eq] at h
  simp only [List.mem_append, List.mem_cons] at h
  rcases h with h | rfl | h | rfl | h | rfl | h
  all_goals first | exact hdot | exact isAddressChar_of_mem_decimal h

theorem Ipv6.isAddressChar_of_mem {a : Ipv6} {c : Char} (h : c ∈ a.text) : IsAddressChar c := by
  unfold text at h
  split at h
  · rcases List.mem_append.mp h with h | h
    · have hcolon : IsAddressChar ':' := .inl rfl
      have hdigit : IsAddressChar 'f' := .inr (.inr ⟨15, by decide, rfl⟩)
      simp only [List.mem_cons, List.not_mem_nil, or_false] at h
      rcases h with rfl | rfl | rfl | rfl | rfl | rfl | rfl
      all_goals first | exact hcolon | exact hdigit
    · exact Ipv4.isAddressChar_of_mem h
  · rcases mem_hexText h with hc | hc
    · exact .inl hc
    · exact .inr (.inr hc)

namespace Address

/-- **Every address is read back from its text.** -/
theorem parse?_text (a : Address) : parse? a.text = some a := by
  cases a with
  | v4 a => simp [parse?, text, a.read?_text]
  | v6 a => simp [parse?, text, a.not_ipv4, a.read?_text]

/-- **No two addresses have the same text.** -/
theorem text_inj {a b : Address} : a.text = b.text ↔ a = b := by
  refine ⟨fun h => ?_, fun h => congrArg text h⟩
  have hread := congrArg parse? h
  rw [parse?_text, parse?_text] at hread
  exact Option.some.inj hread

end Address
end LanInference
