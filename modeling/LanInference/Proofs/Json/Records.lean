/-
# Members are found again

An object written from named members is read as a record with those members, if the record knows
their names and no name comes twice. A string made from a text has that text, a number made from a
natural number has that value, and one of several names is the choice of that name.

Key theorems: `Node.string?_ofString`, `Node.natural?_ofNat`, `Node.writable_ofNat`,
`Node.record?_ofMembers`, `Node.choice?_ofString`.
-/
import LanInference.Json.Record
import LanInference.Proofs.Json.Trees

namespace LanInference
namespace Json

namespace Fields

theorem get?_cons (m : String × Node) (fs : Fields) (name : String) :
    get? (m :: fs) name = if m.1 = name then some m.2 else get? fs name := by
  unfold get?
  by_cases h : m.1 = name
  · simp [h]
  · simp [h]

section

variable {α : Type} {fs : Fields} {name : String} {x : Node} {read : Node → Option α} {value : α}

@[simp]
theorem required?_cons_of_ne {other : String} (h : other ≠ name) :
    required? ((other, x) :: fs) name read = required? fs name read := by
  rw [required?, get?_cons, if_neg h]
  rfl

@[simp]
theorem required?_cons_self : required? ((name, x) :: fs) name read = read x := by
  rw [required?, get?_cons, if_pos rfl, Option.bind_some]

@[simp]
theorem optional?_nil : optional? [] name read = some none := rfl

@[simp]
theorem optional?_cons_of_ne {other : String} (h : other ≠ name) :
    optional? ((other, x) :: fs) name read = optional? fs name read := by
  rw [optional?, get?_cons, if_neg h]
  rfl

/-- A member that is there and not null is read. -/
theorem optional?_cons_self (h : x ≠ .null) :
    optional? ((name, x) :: fs) name read = (read x).map some := by
  rw [optional?, get?_cons, if_pos rfl]
  split
  · rename_i hx
    cases hx
  · rename_i hx
    exact absurd (Option.some.inj hx) h
  · rename_i hx
    rw [← Option.some.inj hx]

/-- Something that may be missing is written as null if it is, and read as missing then. -/
theorem optional?_ofOption {β : Type} {node : β → Node} {read : Node → Option β}
    (hne : ∀ b, node b ≠ .null) (hread : ∀ b, read (node b) = some b) (o : Option β) :
    optional? ((name, .ofOption node o) :: fs) name read = some o := by
  cases o with
  | none =>
    rw [optional?, get?_cons, if_pos rfl]
    rfl
  | some b =>
    have hb : optional? ((name, node b) :: fs) name read = (read (node b)).map some :=
      optional?_cons_self (hne b)
    rw [hread b] at hb
    exact hb

@[simp]
theorem default?_nil : default? [] name value read = some value := rfl

@[simp]
theorem default?_cons_of_ne {other : String} (h : other ≠ name) :
    default? ((other, x) :: fs) name value read = default? fs name value read := by
  rw [default?, get?_cons, if_neg h]
  rfl

@[simp]
theorem default?_cons_self : default? ((name, x) :: fs) name value read = read x := by
  rw [default?, get?_cons, if_pos rfl]

end

end Fields

namespace Node

@[simp]
theorem ofMembers_ne_null (ms : List (String × Node)) : ofMembers ms ≠ .null := by
  intro h
  cases h

@[simp]
theorem ofString_ne_null (s : String) : ofString s ≠ .null := by
  intro h
  cases h

theorem string?_ofString (s : String) : (ofString s).string? = some s := by
  rw [ofString, string?, text?_map_char, Option.map_some, String.ofList_toList]

@[simp]
theorem ofNat_ne_null (n : Nat) : ofNat n ≠ .null := by
  intro h
  cases h

theorem writable_ofNat (n : Nat) : (ofNat n).Writable where
  whole := ⟨Nat.toDigits_ne_nil, fun _ h => Text.isDigit_of_mem_decimal h⟩
  leading := Text.head?_decimal
  fraction _ h := by cases h
  exponent _ _ h := by cases h

/-- A number in decimal is read back if it is in range. -/
theorem natural?_ofNat {n bound : Nat} (h : n < bound) : (ofNat n).natural? bound = some n := by
  have hvalue := Text.decimalValue_decimal n
  have hwhole : Literal.isWhole ⟨false, Text.decimal n, none, none⟩ = true := rfl
  show Literal.natural? bound ⟨false, Text.decimal n, none, none⟩ = some n
  unfold Literal.natural?
  simp [hvalue, hwhole, h]

theorem uint64?_ofNat (n : UInt64) : (ofNat n.toNat).uint64? = some n := by
  have h : n.toNat < wordBound := n.toNat_lt
  rw [uint64?, natural?_ofNat h, Option.map_some, UInt64.ofNat_toNat]

theorem uint16?_ofNat (n : UInt16) : (ofNat n.toNat).uint16? = some n := by
  have h : n.toNat < UInt16.size := n.toNat_lt
  rw [uint16?, natural?_ofNat h, Option.map_some, UInt16.ofNat_toNat]

theorem variant?_ofString (s : String) (depth : Nat) :
    (ofString s).variant? depth = some (s, none) := by
  rw [ofString, variant?, text?_map_char, Option.map_some, String.ofList_toList]

/-- Among values with names of their own, the name of one is the choice of that one. -/
theorem choice?_ofString {α : Type} {all : List α} {name : α → String}
    (hname : Function.Injective name) {a : α} (ha : a ∈ all) (depth : Nat) :
    (ofString (name a)).choice? (all.map fun a => (name a, a)) depth = some a := by
  have hfind : (all.map fun a => (name a, a)).find? (·.1 = name a) = some (name a, a) := by
    rw [List.find?_map]
    have hsome : (all.find? fun b => decide (name b = name a)).isSome = true := by
      rw [List.find?_isSome]
      exact ⟨a, ha, by simp⟩
    obtain ⟨b, hb⟩ := Option.isSome_iff_exists.mp hsome
    have hba : b = a := hname (by simpa using List.find?_some hb)
    subst hba
    show Option.map _ (all.find? fun c => decide (name c = name b)) = _
    rw [hb, Option.map_some]
  unfold choice?
  rw [variant?_ofString]
  show ((all.map fun a => (name a, a)).find? (·.1 = name a)).map (·.2) = some a
  rw [hfind, Option.map_some]

/-- Known members join those that are there, the newest first. -/
theorem knownMembers?_ofMembers {names : List String} :
    ∀ (ms : List (String × Node)) (acc : Fields),
    (∀ m ∈ ms, m.1 ∈ names) → (ms.map (·.1)).Nodup → (∀ m ∈ ms, acc.get? m.1 = none) →
    knownMembers? names acc (ms.map fun m => (m.1.toList.map .char, m.2)) = some (ms.reverse ++ acc)
  | [], acc, _, _, _ => rfl
  | m :: ms, acc, hn, hd, ha => by
    rw [List.map_cons, List.nodup_cons] at hd
    have hm : names.contains m.1 = true := by simpa using hn m List.mem_cons_self
    have hacc : ∀ n ∈ ms, Fields.get? (m :: acc) n.1 = none := fun n hmem => by
      have hne : m.1 ≠ n.1 := fun h => hd.1 (h ▸ List.mem_map_of_mem hmem)
      rw [Fields.get?_cons, if_neg hne]
      exact ha n (List.mem_cons_of_mem m hmem)
    have ih := knownMembers?_ofMembers ms (m :: acc)
      (fun n h => hn n (List.mem_cons_of_mem m h)) hd.2 hacc
    rw [List.map_cons, knownMembers?, text?_map_char]
    simp only [String.ofList_toList, hm, if_true, ha m List.mem_cons_self]
    rw [List.reverse_cons, List.append_assoc]
    exact ih

/-- An object of known members is read as a record of them. -/
theorem record?_ofMembers {names : List String} {depth : Nat} {ms : List (String × Node)}
    (hd : depth < depthLimit) (hn : ∀ m ∈ ms, m.1 ∈ names) (hnd : (ms.map (·.1)).Nodup) :
    (ofMembers ms).record? names depth = some ms.reverse := by
  rw [ofMembers, record?, if_pos hd, knownMembers?_ofMembers ms [] hn hnd fun _ _ => rfl,
    List.append_nil]

end Node
end Json
end LanInference
