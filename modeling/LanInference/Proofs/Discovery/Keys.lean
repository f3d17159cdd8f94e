/-
# Keys tell endpoints apart

The key of a host and a port is read back: split at its last colon, it is the host in its normal
form, in brackets if it has colons of its own, and the port in decimal. So two keys are equal
exactly if the ports are and the hosts differ at most in dots at their ends and in the case of ASCII
letters. The text of an address is in its normal form, and an address is read back from it, so
endpoints at different addresses have different keys.

A host that starts with a bracket is taken as it is, and would be read as the host within: the hosts
here have no opening bracket, as no address and no domain name has.

Key definitions: `SameHost`, `splitLast`, `unbracketed`, `hostPort?`.
Key theorems: `SameHost.key_eq`, `normalName_eq_iff`, `hostPort?_ofHostPort`,
`Address.normalName_text`, `EndpointKey.identifies`.
-/
import LanInference.Discovery.Endpoint
import LanInference.Proofs.Net.Address
import LanInference.Proofs.Text.Case

namespace LanInference

/-! ### Hosts with one key -/

/-- Hosts, or other domain names, that differ at most in the case of ASCII letters and in dots at
their ends. -/
def SameHost (host host' : String) : Prop :=
  ∃ (base base' : List Char) (m n : Nat), host.toList = base ++ List.replicate m '.' ∧
    host'.toList = base' ++ List.replicate n '.' ∧ base.map Char.toLower = base'.map Char.toLower

/-- Cutting off dots and writing in lower case can change places. -/
theorem map_toLower_dropTrailing (cs : List Char) :
    (Text.dropTrailing (· == '.') cs).map Char.toLower =
      Text.dropTrailing (· == '.') (cs.map Char.toLower) := by
  have hdot : ((· == '.') ∘ Char.toLower) = ((· == '.') : Char → Bool) := by
    funext c
    rw [Function.comp_apply, Bool.eq_iff_iff, beq_iff_eq, beq_iff_eq,
      toLower_eq_iff (by decide : '.'.isAlpha = false)]
  simp [Text.dropTrailing, ← List.map_reverse, List.dropWhile_map, hdot]

theorem toList_normalName (name : String) : (normalName name).toList =
    (Text.dropTrailing (· == '.') name.toList).map Char.toLower := by
  simp [normalName, Text.stripTrailing]

/-- What is cut off a text are dots. -/
theorem exists_dots (cs : List Char) :
    ∃ n, cs = Text.dropTrailing (· == '.') cs ++ List.replicate n '.' := by
  have hdots : ∀ c ∈ cs.reverse.takeWhile (· == '.'), c = '.' :=
    fun c hc => beq_iff_eq.mp (List.all_eq_true.mp List.all_takeWhile c hc)
  refine ⟨(cs.reverse.takeWhile (· == '.')).length, ?_⟩
  calc cs = (cs.reverse.takeWhile (· == '.') ++ cs.reverse.dropWhile (· == '.')).reverse := by
        rw [List.takeWhile_append_dropWhile, List.reverse_reverse]
    _ = Text.dropTrailing (· == '.') cs ++ (cs.reverse.takeWhile (· == '.')).reverse :=
        List.reverse_append
    _ = _ := by rw [List.eq_replicate_of_mem hdots, List.reverse_replicate, List.length_replicate]

/-- **Hosts have one normal form exactly if they differ in case and trailing dots alone.** -/
theorem normalName_eq_iff {host host' : String} :
    normalName host = normalName host' ↔ SameHost host host' := by
  rw [← String.toList_inj, toList_normalName, toList_normalName]
  constructor
  · intro h
    obtain ⟨m, hm⟩ := exists_dots host.toList
    obtain ⟨n, hn⟩ := exists_dots host'.toList
    exact ⟨_, _, m, n, hm, hn, h⟩
  · rintro ⟨base, base', m, n, hhost, hhost', hbase⟩
    have hcut : ∀ (cs : List Char) (k : Nat), Text.dropTrailing (· == '.')
        (cs ++ List.replicate k '.') = Text.dropTrailing (· == '.') cs := fun cs k =>
      Text.dropTrailing_append_of_forall _ _ _ fun d hd => by simp [List.eq_of_mem_replicate hd]
    rw [hhost, hhost', hcut, hcut, map_toLower_dropTrailing, map_toLower_dropTrailing, hbase]

/-- **Hosts that differ in case and trailing dots alone have one key.** -/
theorem SameHost.key_eq {host host' : String} (h : SameHost host host') (port : UInt16) :
    EndpointKey.ofHostPort host port = EndpointKey.ofHostPort host' port := by
  rw [EndpointKey.ofHostPort, EndpointKey.ofHostPort, normalName_eq_iff.mpr h]

/-! ### Reading a key -/

/-- What stands before the last `c` of a text, and what stands after it. -/
def splitLast (c : Char) (cs : List Char) : Option (List Char × List Char) :=
  match cs.reverse.span (· != c) with
  | (back, _ :: front) => some (front.reverse, back.reverse)
  | (_, []) => none

theorem splitLast_append {c : Char} (front : List Char) {back : List Char} (h : c ∉ back) :
    splitLast c (front ++ c :: back) = some (front, back) := by
  have hreverse : (front ++ c :: back).reverse = back.reverse ++ c :: front.reverse := by simp
  have hother : ∀ d ∈ back.reverse, (d != c) = true := by
    intro d hd
    rw [bne_iff_ne]
    rintro rfl
    exact h (List.mem_reverse.mp hd)
  rw [splitLast, hreverse, Text.span_append hother (by simp)]
  simp

/-- The text within the brackets, if it is in brackets. -/
def unbracketed (cs : List Char) : List Char :=
  if cs.head? = some '[' ∧ cs.getLast? = some ']' then cs.tail.dropLast else cs

theorem unbracketed_of_bracketed (cs : List Char) : unbracketed ('[' :: (cs ++ [']'])) = cs := by
  have hlast : ('[' :: (cs ++ [']'])).getLast? = some ']' := List.getLast?_concat (l := '[' :: cs)
  rw [unbracketed, if_pos ⟨rfl, hlast⟩, List.tail_cons, List.dropLast_concat]

theorem unbracketed_of_not_mem {cs : List Char} (h : '[' ∉ cs) : unbracketed cs = cs :=
  if_neg fun hbrackets => h (List.mem_of_mem_head? hbrackets.1)

/-- The host and the port that a text gives after its start: they are parted by the last colon. -/
def hostPort? (start : String) (text : String) : Option (String × UInt16) := do
  let (front, back) ← splitLast ':' text.toList
  let host ← front.dropPrefix? start.toList
  let port ← Text.natural? UInt16.size back
  return (String.ofList (unbracketed host), UInt16.ofNat port)

/-- The host as it stands in a key. -/
theorem exists_hostText (host : String) (port : UInt16) (h : '[' ∉ host.toList) :
    ∃ shown, (EndpointKey.ofHostPort host port).text.toList =
        shown ++ ':' :: Text.decimal port.toNat ∧
      unbracketed shown = (normalName host).toList := by
  have hnormal : '[' ∉ (normalName host).toList := by
    intro hmem
    rw [toList_normalName] at hmem
    obtain ⟨c, hc, hlower⟩ := List.mem_map.mp hmem
    rw [toLower_eq_iff (by decide)] at hlower
    rw [hlower] at hc
    exact h ((Text.dropTrailing_prefix _ _).subset hc)
  unfold EndpointKey.ofHostPort
  dsimp only
  split
  · refine ⟨'[' :: ((normalName host).toList ++ [']']), ?_, unbracketed_of_bracketed _⟩
    simp [Text.decimal, Nat.repr]
  · refine ⟨(normalName host).toList, ?_, unbracketed_of_not_mem hnormal⟩
    simp [Text.decimal, Nat.repr]

/-- **The host and the port are read back,** from a key and from a text that goes on with one. -/
theorem hostPort?_ofHostPort (start host : String) (port : UInt16) (h : '[' ∉ host.toList) :
    hostPort? start (start ++ (EndpointKey.ofHostPort host port).text) =
      some (normalName host, port) := by
  obtain ⟨shown, htext, hshown⟩ := exists_hostText host port h
  have hcolon : ':' ∉ Text.decimal port.toNat := by
    intro hmem
    have hdigit : Char.isDigit ':' = true := Text.isDigit_of_mem_decimal hmem
    exact absurd hdigit (by decide)
  have hprefix : (start.toList ++ shown).dropPrefix? start.toList = some shown :=
    List.dropPrefix?_eq_some_iff.mpr ⟨start.toList, rfl, beq_self_eq_true _⟩
  rw [hostPort?, String.toList_append, htext, ← List.append_assoc, splitLast_append _ hcolon]
  simp only [Option.bind_eq_bind, Option.bind_some, hprefix,
    Text.natural?_decimal (n := port.toNat) port.toNat_lt, hshown, String.ofList_toList,
    UInt16.ofNat_toNat, Option.pure_def]

/-! ### Addresses as hosts -/

/-- The text of an IPv4 address ends in a digit. -/
theorem Ipv4.getLast?_text_ne (a : Ipv4) (front : List Char) :
    (front ++ a.text).getLast? ≠ some '.' := by
  intro h
  have hne : Text.decimal a.d.toNat ≠ [] := Nat.toDigits_ne_nil
  have hlast : (Text.decimal a.d.toNat).getLast? = some '.' := by
    have hsplit : a.text = (Text.decimal a.a.toNat ++ '.' :: (Text.decimal a.b.toNat ++
        '.' :: (Text.decimal a.c.toNat ++ ['.']))) ++ Text.decimal a.d.toNat := by
      rw [text_eq]
      simp
    rwa [hsplit, ← List.append_assoc, List.getLast?_append_of_ne_nil _ hne] at h
  have hdigit : Char.isDigit '.' = true := Text.isDigit_of_mem_decimal (List.mem_of_getLast? hlast)
  exact absurd hdigit (by decide)

namespace Address

theorem isAddressChar_of_mem {a : Address} {c : Char} (h : c ∈ a.text.toList) :
    IsAddressChar c := by
  cases a with
  | v4 a => exact Ipv4.isAddressChar_of_mem (by simpa [text] using h)
  | v6 a => exact Ipv6.isAddressChar_of_mem (by simpa [text] using h)

theorem getLast?_text_ne (a : Address) : a.text.toList.getLast? ≠ some '.' := by
  cases a with
  | v4 a => simpa [text] using a.getLast?_text_ne []
  | v6 a =>
    simp only [text, String.toList_ofList]
    unfold Ipv6.text
    split
    · exact Ipv4.getLast?_text_ne _ _
    · exact fun h => a.dot_not_mem_hexText (List.mem_of_getLast? h)

/-- **The text of an address is in its normal form.** -/
theorem normalName_text (a : Address) : normalName a.text = a.text := by
  have hkept : Text.dropTrailing (· == '.') a.text.toList = a.text.toList := by
    refine Text.dropTrailing_of_getLast? _ _ fun c hc => ?_
    rw [beq_eq_false_iff_ne]
    rintro rfl
    exact a.getLast?_text_ne hc
  rw [← String.toList_inj, toList_normalName, hkept]
  calc a.text.toList.map Char.toLower
      = a.text.toList.map id :=
        List.map_congr_left fun c hc => (isAddressChar_of_mem hc).toLower_eq
    _ = a.text.toList := List.map_id _

end Address

namespace EndpointKey

theorem ofHostPort_eq_iff {host host' : String} {port port' : UInt16} (h : '[' ∉ host.toList)
    (h' : '[' ∉ host'.toList) :
    ofHostPort host port = ofHostPort host' port' ↔
      port = port' ∧ normalName host = normalName host' := by
  constructor
  · intro heq
    have hread := hostPort?_ofHostPort "" host port h
    rw [heq, hostPort?_ofHostPort "" host' port' h'] at hread
    obtain ⟨hhost, hport⟩ := Prod.mk.inj (Option.some.inj hread)
    exact ⟨hport.symm, hhost.symm⟩
  · rintro ⟨rfl, hhost⟩
    rw [ofHostPort, ofHostPort, hhost]

/-- **Keys identify endpoints.** Those of addresses are equal exactly if the addresses and the ports
are; those of hosts without an opening bracket, if the ports are and the hosts differ in case and
trailing dots alone. The host in its normal form and the port are read back from the key, and from
the URL of the server. -/
theorem identifies :
    (∀ (name name' : String) (a a' : Address) (port port' : UInt16),
      (Service.ofAddress name a port).key = (Service.ofAddress name' a' port').key ↔
        a = a' ∧ port = port') ∧
    (∀ (host host' : String) (port port' : UInt16), '[' ∉ host.toList → '[' ∉ host'.toList →
      (ofHostPort host port = ofHostPort host' port' ↔
        port = port' ∧ normalName host = normalName host')) ∧
    (∀ host host' : String, normalName host = normalName host' ↔ SameHost host host') ∧
    ∀ (host : String) (port : UInt16), '[' ∉ host.toList →
      hostPort? "" (ofHostPort host port).text = some (normalName host, port) ∧
        hostPort? "http://" (ofHostPort host port).baseUrl = some (normalName host, port) := by
  refine ⟨fun name name' a a' port port' => ?_, fun host host' port port' h h' =>
    ofHostPort_eq_iff h h', fun host host' => normalName_eq_iff, fun host port h => ⟨?_, ?_⟩⟩
  · have hbracket : ∀ a : Address, '[' ∉ a.text.toList :=
      fun a hmem => (Address.isAddressChar_of_mem hmem).ne_bracket rfl
    calc (Service.ofAddress name a port).key = (Service.ofAddress name' a' port').key
        ↔ port = port' ∧ normalName a.text = normalName a'.text :=
          ofHostPort_eq_iff (hbracket a) (hbracket a')
      _ ↔ a = a' ∧ port = port' := by
          rw [Address.normalName_text, Address.normalName_text, Address.text_inj, and_comm]
  · simpa using hostPort?_ofHostPort "" host port h
  · exact hostPort?_ofHostPort "http://" host port h

/-- Two spellings of a name have one key, and an address with colons is read back. -/
theorem identifies_studio :
    ofHostPort "Studio.local." 8080 = ofHostPort "studio.LOCAL" 8080 ∧
      hostPort? "http://" (ofHostPort "FE80::1" 8080).baseUrl = some ("fe80::1", 8080) := by
  have hname : '[' ∉ "Studio.local.".toList := by decide
  have hname' : '[' ∉ "studio.LOCAL".toList := by decide
  have haddress : '[' ∉ "FE80::1".toList := by decide
  have hnormal : normalName "FE80::1" = "fe80::1" := by decide +kernel
  have hsame : SameHost "Studio.local." "studio.LOCAL" :=
    ⟨"Studio.local".toList, "studio.LOCAL".toList, 1, 0, by decide, by decide, by decide⟩
  obtain ⟨-, hhosts, hnormals, hread⟩ := identifies
  constructor
  · exact (hhosts _ _ 8080 8080 hname hname').mpr ⟨rfl, (hnormals _ _).mpr hsame⟩
  · rw [(hread "FE80::1" 8080 haddress).2, hnormal]

-- A host that comes in brackets has the key of the host within.
example : ofHostPort "[::1]" 80 = ofHostPort "::1" 80 := by decide +kernel

end EndpointKey
end LanInference
