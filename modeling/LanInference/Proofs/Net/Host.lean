/-
# Hosts of URLs read back

The host that a URL names is written in its normal form, and read from that form it is the same
host: an address always, and a name if its codes are not too long to be read (`Host.parse?_text`).
In its form a host has no character that ends it, so what is around it in a URL is told apart from
it.

Key definitions: `Url.Host.IsRead`, `Url.Host.HasReadableCodes`.
Key theorems: `Url.Host.isRead_of_parse?`, `Url.Host.parse?_text`, `Url.Host.IsRead.of_mem_text`,
`Url.splitPort_text`.
-/
import LanInference.Net.Url
import LanInference.Proofs.Net.Address
import LanInference.Proofs.Net.DomainName
import LanInference.Proofs.Text.Utf8

namespace LanInference

/-- A text without percent signs has no escapes. -/
theorem Text.percentDecode_of_not_mem : ∀ {cs : List Char}, '%' ∉ cs →
    Text.percentDecode cs = Utf8.encode cs
  | [], _ => rfl
  | c :: cs, h => by
    have hc : '%' ≠ c := fun heq => h (heq ▸ List.mem_cons_self)
    have hcs : '%' ∉ cs := fun hmem => h (List.mem_cons_of_mem c hmem)
    unfold Text.percentDecode
    split
    · rename_i heq
      cases heq
    · rename_i heq
      exact absurd (List.cons.inj heq).1.symm hc
    · rename_i heq
      obtain ⟨rfl, rfl⟩ := List.cons.inj heq
      rw [Text.percentDecode_of_not_mem hcs, ← Utf8.encode_append, List.singleton_append]

open Text

/-- An IPv4 address is written in these characters. -/
def numberChars : List Char := ".0123456789".toList

theorem Ipv4.mem_text {a : Ipv4} {c : Char} (h : c ∈ a.text) : c ∈ numberChars := by
  have hdigit : ∀ {n : Nat}, c ∈ decimal n → c ∈ numberChars := by
    intro n hc
    obtain ⟨k, hk, rfl⟩ := exists_of_mem_toDigits (by decide) hc
    exact (by decide : ∀ k < 10, Nat.digitChar k ∈ numberChars) k hk
  rw [Ipv4.text_eq] at h
  simp only [List.mem_append, List.mem_cons] at h
  rcases h with h | rfl | h | rfl | h | rfl | h
  all_goals first | exact hdigit h | decide

namespace Url

/-! ### IPv4 addresses as names -/

/-- Numbers with dots between them are a name as it should be. -/
theorem isName_of_numbers {name : List Char} (h : ∀ c ∈ name, c ∈ numberChars) :
    DomainName.isLowerAscii name = true ∧ DomainName.isName name = true := by
  have hall : ∀ c ∈ numberChars, c.toNat < 0x80 ∧ c.toLower = c ∧ c ≠ 'x' :=
    List.all_iff_forall_prop.mp (by decide)
  have hplain : ∀ c ∈ name, c.toNat < 0x80 ∧ NameMapping.isPlain c = true := fun c hc =>
    have hc := hall c (h c hc)
    ⟨hc.1, (DomainName.isPlain_of_ascii hc.1).mpr hc.2.1⟩
  have hlabel : ∀ label ∈ name.splitOn '.', ∀ c ∈ label, c.toNat < 0x80 ∧ c ≠ 'x' :=
    fun label hmem c hc =>
      have hc := hall c (h c ((mem_part_of_splitOn hmem).2 c hc))
      ⟨hc.1, hc.2.2⟩
  have htext : ∀ label ∈ name.splitOn '.', DomainName.labelText? label = some label := by
    intro label hmem
    refine DomainName.labelText?_of_not_isCoded ?_
    by_contra hcoded
    rw [Bool.not_eq_false] at hcoded
    have hx : 'x' ∈ label := (List.isPrefixOf_iff_prefix.mp hcoded).subset (by decide)
    exact (hlabel label hmem 'x' hx).2 rfl
  refine ⟨DomainName.isLowerAscii_iff.mpr hplain, DomainName.isName_iff.mpr
    ⟨fun c hc => (hplain c hc).2, _, List.forall₂_same.mpr htext, ?_⟩⟩
  refine DomainName.areRight_of_ascii fun label hmem => ?_
  exact List.all_eq_true.mpr fun c hc => decide_eq_true (hlabel label hmem c hc).1

theorem ipv4Number?_decimal {n : Nat} (h : n < 256) : ipv4Number? (decimal n) = some n := by
  have hall : ∀ n < 256, ipv4Number? (decimal n) = some n := by decide +kernel
  exact hall n h

theorem labels_text (a : Ipv4) : labels a.text =
    [decimal a.a.toNat, decimal a.b.toNat, decimal a.c.toNat, decimal a.d.toNat] := by
  have hdots : ∀ label ∈ [a.a, a.b, a.c, a.d].map fun n => decimal n.toNat, '.' ∉ label := by
    intro label hlabel hdot
    obtain ⟨n, -, rfl⟩ := List.mem_map.mp hlabel
    exact absurd (isDigit_of_mem_decimal hdot) (by decide)
  have hparts : a.text.splitOn '.' = [a.a, a.b, a.c, a.d].map fun n => decimal n.toNat :=
    List.splitOn_intercalate '.' hdots (by simp)
  have hne : decimal a.d.toNat ≠ [] := Nat.toDigits_ne_nil
  unfold labels
  rw [hparts]
  simp [hne]

theorem endsInNumber_text (a : Ipv4) : endsInNumber a.text = true := by
  have hne : decimal a.d.toNat ≠ [] := Nat.toDigits_ne_nil
  have hall : (decimal a.d.toNat).all Char.isDigit = true :=
    List.all_eq_true.mpr fun c hc => isDigit_of_mem_decimal hc
  unfold endsInNumber
  rw [labels_text]
  simp [hne, hall]

theorem ipv4?_text (a : Ipv4) : ipv4? a.text = some a := by
  have ha := a.a.toNat_lt
  have hb := a.b.toNat_lt
  have hc := a.c.toNat_lt
  have hd := a.d.toNat_lt
  have hread : (labels a.text).mapM ipv4Number? =
      some [a.a.toNat, a.b.toNat, a.c.toNat, a.d.toNat] := by
    simp [labels_text, ipv4Number?_decimal, ha, hb, hc, hd]
  unfold ipv4?
  rw [hread]
  simp only [Option.bind_eq_bind, Option.bind_some, List.getLast?_cons_cons,
    List.getLast?_singleton, List.dropLast_cons_cons, List.dropLast_singleton, List.length_cons,
    List.length_nil, List.any_cons, List.any_nil, List.zip_cons_cons, List.zip_nil_left,
    List.foldl_cons, List.foldl_nil]
  have hoctet : ∀ {n : Nat} {b : UInt8}, n % 256 = b.toNat → UInt8.ofNat n = b := fun hn =>
    UInt8.toNat_inj.mp (by rw [UInt8.toNat_ofNat', hn])
  rw [if_neg (by simp; omega), hoctet (b := a.a) (by omega), hoctet (b := a.b) (by omega),
    hoctet (b := a.c) (by omega), hoctet (b := a.d) (by omega)]
  rfl

/-! ### Hosts -/

namespace Host

/-- A host as it is read: an address, or a name in its form that is none. -/
def IsRead : Host → Prop
  | name cs => cs ≠ [] ∧ (∀ c ∈ cs, isForbiddenInName c = false) ∧ endsInNumber cs = false ∧
      ∃ source, DomainName.ofText? source = some cs
  | v4 _ => True
  | v6 _ => True

/-- The codes of a host's name can be read. -/
def HasReadableCodes : Host → Prop
  | name cs => DomainName.HasReadableCodes cs
  | v4 _ => True
  | v6 _ => True

instance (h : Host) : Decidable h.HasReadableCodes := by
  cases h <;> unfold HasReadableCodes <;> infer_instance

theorem parse?_of_unbracketed {cs : List Char} (h : cs.head? ≠ some '[') : parse? cs =
    (DomainName.ofText? (Utf8.decodeLossy (percentDecode cs))).bind fun name =>
      if name = [] ∨ name.any isForbiddenInName then none
      else if endsInNumber name then (ipv4? name).map .v4
      else some (.name name) := by
  unfold parse?
  split
  · exact absurd rfl h
  · rfl

theorem isRead_of_parse? {cs : List Char} {h : Host} (hparse : parse? cs = some h) : h.IsRead := by
  by_cases hhead : cs.head? = some '['
  · obtain ⟨rest, rfl⟩ := List.head?_eq_some_iff.mp hhead
    obtain ⟨a, -, rfl⟩ := Option.map_eq_some_iff.mp hparse
    trivial
  · rw [parse?_of_unbracketed hhead] at hparse
    obtain ⟨form, hform, hparse⟩ := Option.bind_eq_some_iff.mp hparse
    split at hparse
    · cases hparse
    rename_i hright
    rw [not_or, Bool.not_eq_true] at hright
    split at hparse
    · obtain ⟨a, -, rfl⟩ := Option.map_eq_some_iff.mp hparse
      trivial
    · rename_i hnumber
      cases hparse
      refine ⟨hright.1, fun c hc => ?_, by simpa using hnumber, _, hform⟩
      simpa using List.any_eq_false.mp hright.2 c hc

/-- A text without escapes is read as a name from its characters. -/
theorem parse?_of_plain {cs : List Char} (hhead : cs.head? ≠ some '[') (hescape : '%' ∉ cs) :
    parse? cs = (DomainName.ofText? cs).bind fun name =>
      if name = [] ∨ name.any isForbiddenInName then none
      else if endsInNumber name then (ipv4? name).map .v4
      else some (.name name) := by
  rw [parse?_of_unbracketed hhead, percentDecode_of_not_mem hescape, Utf8.decodeLossy_encode]

theorem parse?_v4 (a : Ipv4) : parse? a.text = some (.v4 a) := by
  have hchars : ∀ c ∈ numberChars, c ≠ '[' ∧ c ≠ '%' ∧ isForbiddenInName c = false :=
    List.all_iff_forall_prop.mp (by decide)
  have hhead : a.text.head? ≠ some '[' := fun h =>
    (hchars _ (Ipv4.mem_text (List.mem_of_head? h))).1 rfl
  have hescape : '%' ∉ a.text := fun h => (hchars _ (Ipv4.mem_text h)).2.1 rfl
  obtain ⟨hlower, hname⟩ := isName_of_numbers fun c hc => Ipv4.mem_text (a := a) hc
  have hne : a.text ≠ [] := by
    intro hnil
    have hend := endsInNumber_text a
    rw [hnil] at hend
    exact absurd hend (by decide)
  have hfree : a.text.any isForbiddenInName = false := List.any_eq_false.mpr fun c hc => by
    rw [(hchars c (Ipv4.mem_text hc)).2.2]
    decide
  rw [parse?_of_plain hhead hescape, DomainName.ofText?_of_isName hlower hname, Option.bind_some,
    if_neg (by simp [hne, hfree]), if_pos (endsInNumber_text a), ipv4?_text, Option.map_some]

theorem parse?_v6 (a : Ipv6) : parse? ('[' :: a.hexText ++ [']']) = some (.v6 a) := by
  show (ipv6? (a.hexText ++ [']'])).map v6 = some (.v6 a)
  have hread : ipv6? (a.hexText ++ [']']) = some a := by
    unfold ipv6?
    rw [if_pos (by simp), List.dropLast_concat, Ipv6.read?_hexText]
  rw [hread, Option.map_some]

/-- **A host is read back from its text**, unless it is a name with a code that is too long. -/
theorem parse?_text {h : Host} (hread : h.IsRead) :
    parse? h.text = if h.HasReadableCodes then some h else none := by
  cases h with
  | v4 a => exact parse?_v4 a
  | v6 a => exact parse?_v6 a
  | name cs =>
    obtain ⟨hne, hfree, hnumber, source, hsource⟩ := hread
    have hhead : cs.head? ≠ some '[' := fun h =>
      absurd (hfree _ (List.mem_of_head? h)) (by decide)
    have hescape : '%' ∉ cs := fun h => absurd (hfree _ h) (by decide)
    have hany : cs.any isForbiddenInName = false := List.any_eq_false.mpr fun c hc => by
      rw [hfree c hc]
      decide
    show parse? cs = if DomainName.HasReadableCodes cs then some (.name cs) else none
    rw [parse?_of_plain hhead hescape, (DomainName.ofText?_ofText? hsource).2]
    split
    · rw [Option.bind_some, if_neg (by simp [hne, hany]), if_neg (by simp [hnumber])]
    · rfl

/-! ### What is around a host -/

theorem of_not_forbidden {c : Char} (h : isForbiddenInName c = false) :
    ' ' < c ∧ endsAuthority c = false ∧ c ≠ '@' ∧ c ≠ ':' ∧ c ≠ '[' := by
  have hne : ∀ d, isForbiddenInName d = true → c ≠ d := by
    rintro d hd rfl
    rw [h] at hd
    cases hd
  refine ⟨?_, ?_, hne '@' (by decide), hne ':' (by decide), hne '[' (by decide)⟩
  · by_contra hle
    have hlow : c ≤ ' ' := Char.not_lt.mp hle
    rw [isForbiddenInName, decide_eq_true (.inl hlow), Bool.true_or] at h
    cases h
  · unfold endsAuthority isSlash
    simp [hne '/' (by decide), hne '\\' (by decide), hne '?' (by decide), hne '#' (by decide)]

theorem of_mem_numberChars {c : Char} (h : c ∈ numberChars) : isForbiddenInName c = false := by
  have hall : ∀ c ∈ numberChars, isForbiddenInName c = false :=
    List.all_iff_forall_prop.mp (by decide)
  exact hall c h

/-- A host has no character that would end it, and no blank. -/
theorem IsRead.of_mem_text {h : Host} (hread : h.IsRead) {c : Char} (hc : c ∈ h.text) :
    ' ' < c ∧ endsAuthority c = false ∧ c ≠ '@' := by
  cases h with
  | name cs =>
    have hc := of_not_forbidden (hread.2.1 c hc)
    exact ⟨hc.1, hc.2.1, hc.2.2.1⟩
  | v4 a =>
    have hc := of_not_forbidden (of_mem_numberChars (Ipv4.mem_text hc))
    exact ⟨hc.1, hc.2.1, hc.2.2.1⟩
  | v6 a =>
    have hdigits : ∀ k < 16, ' ' < Nat.digitChar k ∧ endsAuthority (Nat.digitChar k) = false ∧
        Nat.digitChar k ≠ '@' := by decide
    rcases List.mem_cons.mp hc with rfl | hc
    · decide
    rcases List.mem_append.mp hc with hc | hc
    · rcases Ipv6.mem_hexText hc with rfl | ⟨k, hk, rfl⟩
      · decide
      · exact hdigits k hk
    · rw [List.mem_singleton.mp hc]
      decide

theorem IsRead.text_ne_nil {h : Host} (hread : h.IsRead) : h.text ≠ [] := by
  cases h with
  | name cs => exact hread.1
  | v4 a =>
    intro hnil
    have hend := endsInNumber_text a
    rw [show a.text = [] from hnil] at hend
    exact absurd hend (by decide)
  | v6 a => exact List.cons_ne_nil _ _

end Host

/-- A port behind its host. -/
def behindHost : Option (List Char) → List Char
  | some ds => ':' :: ds
  | none => []

theorem splitPort_behindHost (o : Option (List Char)) :
    splitPort false (behindHost o) = ([], o) := by
  cases o with
  | none => rfl
  | some ds => rfl

theorem splitPort_plain (o : Option (List Char)) : ∀ {cs : List Char},
    (∀ c ∈ cs, c ≠ ':' ∧ c ≠ '[') → splitPort false (cs ++ behindHost o) = (cs, o)
  | [], _ => splitPort_behindHost o
  | c :: cs, h => by
    obtain ⟨hc, hcs⟩ := List.forall_mem_cons.mp h
    rw [List.cons_append, splitPort, if_neg (by simp [hc.1])]
    have hinside : (decide (c = '[') || (false && decide (c ≠ ']'))) = false := by simp [hc.2]
    rw [hinside, splitPort_plain o hcs]

theorem splitPort_bracketed (o : Option (List Char)) : ∀ {cs : List Char}, (∀ c ∈ cs, c ≠ ']') →
    splitPort true (cs ++ ']' :: behindHost o) = (cs ++ [']'], o)
  | [], _ => by
    rw [List.nil_append, splitPort, if_neg (by simp)]
    have hinside : (decide (']' = '[') || (true && decide (']' ≠ ']'))) = false := by decide
    rw [hinside, splitPort_behindHost]
    rfl
  | c :: cs, h => by
    obtain ⟨hc, hcs⟩ := List.forall_mem_cons.mp h
    rw [List.cons_append, splitPort, if_neg (by simp)]
    have hinside : (decide (c = '[') || (true && decide (c ≠ ']'))) = true := by simp [hc]
    rw [hinside, splitPort_bracketed o hcs]
    rfl

/-- A host is told apart from the port behind it. -/
theorem splitPort_text {h : Host} (hread : h.IsRead) (o : Option (List Char)) :
    splitPort false (h.text ++ behindHost o) = (h.text, o) := by
  cases h with
  | name cs =>
    refine splitPort_plain o fun c hc => ?_
    have hc := Host.of_not_forbidden (hread.2.1 c hc)
    exact ⟨hc.2.2.2.1, hc.2.2.2.2⟩
  | v4 a =>
    refine splitPort_plain o fun c hc => ?_
    have hc := Host.of_not_forbidden (Host.of_mem_numberChars (Ipv4.mem_text hc))
    exact ⟨hc.2.2.2.1, hc.2.2.2.2⟩
  | v6 a =>
    have hchars : ∀ c ∈ a.hexText, c ≠ ']' := by
      intro c hc
      rcases Ipv6.mem_hexText hc with rfl | ⟨k, hk, rfl⟩
      · decide
      · exact digitChar_ne hk (by decide)
    show splitPort false ('[' :: a.hexText ++ [']'] ++ behindHost o) =
      ('[' :: a.hexText ++ [']'], o)
    rw [List.append_assoc, List.singleton_append, List.cons_append, splitPort, if_neg (by decide)]
    have hinside : (decide ('[' = '[') || (false && decide ('[' ≠ ']'))) = true := by decide
    rw [hinside, splitPort_bracketed o hchars]
    rfl

end Url
end LanInference
