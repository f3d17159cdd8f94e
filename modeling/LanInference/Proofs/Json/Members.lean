/-
# What an object says in its members

A type of known shape is read from an object by the names of its members. Their order does not
matter, nor do other members, whose values may be any trees: all that counts is which values stand
under each name of the record. The record is read if every key is a text and no name of the record
comes twice.

A member that may be absent says nothing if it is absent or null, and otherwise what its value is
accepted as; the relations here give these readings without a reader.

Key definitions: `Node.TextKeys`, `Node.named`, `Node.valuesOf`, `Optionally`, `Defaulted`,
`Single`, `Node.IsText`, `Node.IsWord`.
Key theorems: `Node.record?_object`, `Node.exists_record?`, `Fields.optional?_eq_some_iff`,
`Fields.default?_eq_some_iff`, `single_iff`.
-/
import LanInference.Proofs.Json.Records
import LanInference.Proofs.Text.Parts

namespace LanInference
namespace Json

/-! ### Members by name -/

namespace Node

/-- Every key of an object is a text. -/
def TextKeys (ms : List (List Piece × Node)) : Prop := ∀ m ∈ ms, ∃ name, text? m.1 = some name

/-- The values of the members with this name, in their order. -/
def named (ms : List (List Piece × Node)) (name : String) : List Node :=
  ms.filterMap fun m => if text? m.1 = some name.toList then some m.2 else none

theorem named_cons (name : String) (m : List Piece × Node) (ms : List (List Piece × Node)) :
    named (m :: ms) name = if text? m.1 = some name.toList then m.2 :: named ms name
      else named ms name := by
  unfold named
  rw [List.filterMap_cons]
  by_cases h : text? m.1 = some name.toList <;> simp [h]

theorem named_perm {ms ms' : List (List Piece × Node)} (h : ms.Perm ms') (name : String) :
    (named ms name).Perm (named ms' name) := h.filterMap _

theorem textKeys_perm {ms ms' : List (List Piece × Node)} (h : ms.Perm ms') :
    TextKeys ms ↔ TextKeys ms' :=
  ⟨fun hm m hmem => hm m (h.mem_iff.mpr hmem), fun hm m hmem => hm m (h.mem_iff.mp hmem)⟩

/-- Names are texts. -/
theorem textKeys_map (ms : List (String × Node)) :
    TextKeys (ms.map fun m => (m.1.toList.map .char, m.2)) := by
  intro m hm
  obtain ⟨n, -, rfl⟩ := List.mem_map.mp hm
  exact ⟨_, text?_map_char _⟩

/-- The values of the members with this name, where the names are given. -/
def valuesOf (ms : List (String × Node)) (name : String) : List Node :=
  ms.filterMap fun m => if m.1 = name then some m.2 else none

theorem named_map (ms : List (String × Node)) (name : String) :
    named (ms.map fun m => (m.1.toList.map .char, m.2)) name = valuesOf ms name := by
  simp [named, valuesOf, List.filterMap_map, text?_map_char, String.toList_inj]

/-- Characters are those of a name if the name is made of them. -/
theorem eq_toList_iff {k : List Char} {name : String} :
    k = name.toList ↔ String.ofList k = name := by
  constructor
  · rintro rfl
    exact String.ofList_toList
  · rintro rfl
    exact String.toList_ofList.symm

variable {names : List String} {depth : Nat} {name : String} {fs : Fields}

/-- The members that a record is read from: under each of its names what stood there, and then what
the object has. -/
theorem knownMembers?_eq_some : ∀ {ms : List (List Piece × Node)} {acc : Fields},
    knownMembers? names acc ms = some fs → TextKeys ms ∧
      ∀ name ∈ names, (fs.get? name).toList = (acc.get? name).toList ++ named ms name
  | [], acc, h => by
    obtain rfl : acc = fs := Option.some.inj h
    exact ⟨by simp [TextKeys], fun name _ => by simp [named]⟩
  | (k, x) :: ms, acc, h => by
    rw [knownMembers?] at h
    cases hk : text? k with
    | none => simp [hk] at h
    | some key =>
      simp only [hk] at h
      have hkeys : TextKeys ms → TextKeys ((k, x) :: ms) := fun hms =>
        List.forall_mem_cons.mpr ⟨⟨key, hk⟩, hms⟩
      split at h
      · split at h
        · cases h
        · rename_i hfree
          obtain ⟨hms, hget⟩ := knownMembers?_eq_some h
          refine ⟨hkeys hms, fun name hname => ?_⟩
          rw [hget name hname, named_cons, hk, Fields.get?_cons]
          by_cases hsame : String.ofList key = name
          · have hnone : acc.get? name = none := by
              rw [← hsame]
              simpa using hfree
            simp [hsame, eq_toList_iff, hnone]
          · simp [hsame, eq_toList_iff]
      · rename_i hother
        obtain ⟨hms, hget⟩ := knownMembers?_eq_some h
        refine ⟨hkeys hms, fun name hname => ?_⟩
        have hne : String.ofList key ≠ name := fun hsame => by
          rw [hsame] at hother
          exact hother (by simpa using hname)
        rw [hget name hname, named_cons, hk]
        simp [hne, eq_toList_iff]

/-- Nothing else is asked of an object: its keys are texts, and no name of the record comes
twice. -/
theorem exists_knownMembers? : ∀ {ms : List (List Piece × Node)} {acc : Fields}, TextKeys ms →
    (∀ name ∈ names, ((acc.get? name).toList ++ named ms name).length ≤ 1) →
    ∃ fs, knownMembers? names acc ms = some fs
  | [], acc, _, _ => ⟨acc, rfl⟩
  | (k, x) :: ms, acc, hkeys, hone => by
    obtain ⟨⟨key, hk⟩, hms⟩ := List.forall_mem_cons.mp hkeys
    rw [knownMembers?]
    simp only [hk]
    simp only [named_cons, hk] at hone
    split
    · rename_i hknown
      have hname : String.ofList key ∈ names := by simpa using hknown
      have hnone : acc.get? (String.ofList key) = none := by
        have hlength := hone _ hname
        cases hget : acc.get? (String.ofList key) with
        | none => rfl
        | some y => simp [hget] at hlength
      rw [if_neg (by simp [hnone])]
      refine exists_knownMembers? hms fun name hmem => ?_
      have hlength := hone name hmem
      rw [Fields.get?_cons]
      by_cases hsame : String.ofList key = name
      · subst hsame
        simpa [hnone] using hlength
      · simpa [hsame, eq_toList_iff] using hlength
    · refine exists_knownMembers? hms fun name hmem => ?_
      have hlength := hone name hmem
      by_cases hsame : key = name.toList
      · simp only [hsame, if_true, List.length_append, List.length_cons] at hlength ⊢
        omega
      · simpa [hsame] using hlength

variable {ms : List (List Piece × Node)}

theorem record?_object (h : (Node.object ms).record? names depth = some fs) :
    TextKeys ms ∧ ∀ name ∈ names, (fs.get? name).toList = named ms name := by
  rw [record?] at h
  split at h
  · exact knownMembers?_eq_some h
  · cases h

theorem exists_record? (hd : depth < depthLimit) (hkeys : TextKeys ms)
    (hone : ∀ name ∈ names, (named ms name).length ≤ 1) :
    ∃ fs, (Node.object ms).record? names depth = some fs := by
  rw [record?, if_pos hd]
  exact exists_knownMembers? hkeys hone

end Node

/-! ### What a member says -/

section

variable {α : Type}

/-- What a member says that may be absent or null, from the values under its name. -/
inductive Optionally (Accepts : Node → α → Prop) : List Node → Option α → Prop
  | absent : Optionally Accepts [] none
  | null : Optionally Accepts [.null] none
  | given {x : Node} {a : α} : x ≠ .null → Accepts x a → Optionally Accepts [x] (some a)

/-- What a member says that may be absent, but not null. -/
inductive Defaulted (value : α) (Accepts : Node → α → Prop) : List Node → α → Prop
  | absent : Defaulted value Accepts [] value
  | given {x : Node} {a : α} : Accepts x a → Defaulted value Accepts [x] a

/-- What a record of one member says, which is written as an object or as an array. -/
inductive Single (name : String) (Accepts : Node → α → Prop) : Node → Option α → Prop
  | object {ms : List (List Piece × Node)} {o : Option α} : Node.TextKeys ms →
      Optionally Accepts (Node.named ms name) o → Single name Accepts (.object ms) o
  | array {x : Node} {o : Option α} : Optionally Accepts [x] o →
      Single name Accepts (.array [x]) o

variable {Accepts : Node → α → Prop} {value : α} {xs : List Node} {o : Option α} {a : α}

/-- At most one value has no other order. -/
theorem perm_eq_of_length_le {ys : List Node} (h : xs.length ≤ 1) (hp : xs.Perm ys) : xs = ys := by
  match xs, h with
  | [], _ => exact hp.nil_eq
  | [x], _ => exact hp.singleton_eq

theorem Optionally.length_le (h : Optionally Accepts xs o) : xs.length ≤ 1 := by
  cases h <;> simp

theorem Defaulted.length_le (h : Defaulted value Accepts xs a) : xs.length ≤ 1 := by
  cases h <;> simp

/-- A member that may be absent or null says something if it comes at most once, and then with null
or a value that is accepted. -/
theorem exists_optionally_iff : (∃ o, Optionally Accepts xs o) ↔
    xs = [] ∨ ∃ x, xs = [x] ∧ (x = .null ∨ ∃ a, Accepts x a) := by
  constructor
  · rintro ⟨o, h⟩
    cases h with
    | absent => exact .inl rfl
    | null => exact .inr ⟨_, rfl, .inl rfl⟩
    | given _ ha => exact .inr ⟨_, rfl, .inr ⟨_, ha⟩⟩
  · rintro (rfl | ⟨x, rfl, rfl | ⟨a, ha⟩⟩)
    · exact ⟨none, .absent⟩
    · exact ⟨none, .null⟩
    · by_cases hx : x = .null
      · rw [hx]
        exact ⟨none, .null⟩
      · exact ⟨some a, .given hx ha⟩

theorem exists_defaulted_iff : (∃ a, Defaulted value Accepts xs a) ↔
    xs = [] ∨ ∃ x, xs = [x] ∧ ∃ a, Accepts x a := by
  constructor
  · rintro ⟨a, h⟩
    cases h with
    | absent => exact .inl rfl
    | given ha => exact .inr ⟨_, rfl, _, ha⟩
  · rintro (rfl | ⟨x, rfl, a, ha⟩)
    · exact ⟨value, .absent⟩
    · exact ⟨a, .given ha⟩

namespace Fields

variable {fs : Fields} {name : String} {read : Node → Option α}

theorem optional?_eq_some_iff (hread : ∀ x a, read x = some a ↔ Accepts x a) :
    fs.optional? name read = some o ↔ Optionally Accepts (fs.get? name).toList o := by
  unfold optional?
  split
  · rename_i hget
    rw [hget]
    constructor
    · intro h
      obtain rfl := Option.some.inj h
      exact .absent
    · rintro ⟨⟩
      rfl
  · rename_i hget
    rw [hget]
    constructor
    · intro h
      obtain rfl := Option.some.inj h
      exact .null
    · intro h
      cases h with
      | null => rfl
      | given hne _ => exact absurd rfl hne
  · rename_i x hne hget
    rw [hget]
    constructor
    · intro h
      obtain ⟨a, ha, rfl⟩ := Option.map_eq_some_iff.mp h
      exact .given hne ((hread x a).mp ha)
    · intro h
      cases h with
      | null => exact absurd rfl hne
      | given _ ha => rw [(hread _ _).mpr ha, Option.map_some]

theorem default?_eq_some_iff (hread : ∀ x a, read x = some a ↔ Accepts x a) :
    fs.default? name value read = some a ↔ Defaulted value Accepts (fs.get? name).toList a := by
  unfold default?
  split
  · rename_i hget
    rw [hget]
    constructor
    · intro h
      obtain rfl := Option.some.inj h
      exact .absent
    · rintro ⟨⟩
      rfl
  · rename_i x hget
    rw [hget, hread]
    constructor
    · exact .given
    · rintro ⟨⟩
      assumption

end Fields

theorem single_ofMembers {name : String} {ms : List (String × Node)}
    (h : Optionally Accepts (Node.valuesOf ms name) o) : Single name Accepts (.ofMembers ms) o :=
  .object (Node.textKeys_map ms) (Node.named_map ms name ▸ h)

theorem single_iff {name : String} {read : Node → Option α} {depth : Nat} {x : Node}
    (hread : ∀ x a, read x = some a ↔ Accepts x a) (hd : depth < depthLimit) :
    ((x.record? [name] depth).bind fun fs => fs.optional? name read) = some o ↔
      Single name Accepts x o := by
  constructor
  · intro h
    obtain ⟨fs, hfs, ho⟩ := Option.bind_eq_some_iff.mp h
    rw [Fields.optional?_eq_some_iff hread] at ho
    cases x with
    | object ms =>
      obtain ⟨hkeys, hget⟩ := Node.record?_object hfs
      rw [hget name List.mem_cons_self] at ho
      exact .object hkeys ho
    | array xs =>
      rw [Node.record?] at hfs
      split at hfs
      · rename_i hlength
        obtain ⟨y, rfl⟩ := List.length_eq_one_iff.mp hlength.2
        obtain rfl := Option.some.inj hfs
        rw [List.zip_cons_cons, Fields.get?_cons, if_pos rfl] at ho
        exact .array ho
      · cases hfs
    | _ => cases hfs
  · intro h
    cases h with
    | @object ms _ hkeys ho =>
      have hone : ∀ n ∈ [name], (Node.named ms n).length ≤ 1 := fun n hn => by
        rw [List.mem_singleton.mp hn]
        exact ho.length_le
      obtain ⟨fs, hfs⟩ := Node.exists_record? hd hkeys hone
      rw [hfs, Option.bind_some, Fields.optional?_eq_some_iff hread,
        (Node.record?_object hfs).2 name List.mem_cons_self]
      exact ho
    | @array y _ ho =>
      have hrecord : (Node.array [y]).record? [name] depth = some [(name, y)] := by
        rw [Node.record?, if_pos ⟨hd, rfl⟩]
        rfl
      rw [hrecord, Option.bind_some, Fields.optional?_eq_some_iff hread, Fields.get?_cons,
        if_pos rfl]
      exact ho

end

/-! ### Simple values -/

namespace Node

/-- The tree of a text, however it is spelled. -/
def IsText (x : Node) (s : String) : Prop := ∃ ps, x = .string ps ∧ text? ps = some s.toList

/-- The tree of an integer of 64 bits without sign: digits alone. -/
def IsWord (x : Node) (n : UInt64) : Prop :=
  ∃ ds, x = .number ⟨false, ds, none, none⟩ ∧ Text.decimalValue ds = n.toNat

theorem isText_ofString (s : String) : (ofString s).IsText s := ⟨_, rfl, text?_map_char s.toList⟩

theorem isWord_ofNat (n : UInt64) : (ofNat n.toNat).IsWord n :=
  ⟨_, rfl, Text.decimalValue_decimal n.toNat⟩

theorem bool?_eq_some_iff (x : Node) (b : Bool) : x.bool? = some b ↔ x = .bool b := by
  cases x <;> simp [bool?]

theorem string?_eq_some_iff (x : Node) (s : String) : x.string? = some s ↔ x.IsText s := by
  cases x with
  | string ps =>
    simp only [string?, IsText, Option.map_eq_some_iff, string.injEq, exists_eq_left']
    constructor
    · rintro ⟨cs, hcs, rfl⟩
      rw [hcs, String.toList_ofList]
    · intro h
      exact ⟨s.toList, h, String.ofList_toList⟩
  | _ => simp [string?, IsText]

theorem uint64?_eq_some_iff (x : Node) (n : UInt64) : x.uint64? = some n ↔ x.IsWord n := by
  cases x with
  | number l =>
    obtain ⟨negative, whole, fraction, exponent⟩ := l
    have hvalue : ∀ i : Nat, i < wordBound → (UInt64.ofNat i = n ↔ i = n.toNat) := fun i hi => by
      rw [← UInt64.toNat_inj, UInt64.toNat_ofNat_of_lt' hi]
    have hbound : n.toNat < wordBound := n.toNat_lt
    simp only [uint64?, natural?, Literal.natural?, Literal.isWhole, IsWord, number.injEq,
      Literal.mk.injEq, Option.map_eq_some_iff, Option.ite_none_right_eq_some, Option.some.injEq,
      Bool.and_eq_true, Option.isNone_iff_eq_none, Bool.not_eq_true]
    constructor
    · rintro ⟨i, ⟨⟨⟨hf, he⟩, hneg, hlt⟩, rfl⟩, hn⟩
      exact ⟨whole, ⟨hneg, rfl, hf, he⟩, (hvalue _ hlt).mp hn⟩
    · rintro ⟨ds, ⟨hneg, rfl, hf, he⟩, hn⟩
      exact ⟨_, ⟨⟨⟨hf, he⟩, hneg, hn ▸ hbound⟩, rfl⟩, (hvalue _ (hn ▸ hbound)).mpr hn⟩
  | _ => simp [uint64?, natural?, IsWord]

end Node
end Json
end LanInference
