/-
# Which trees have a value

A program that does not know the members beforehand takes a tree if its strings and keys are texts,
its numbers are in range and its containers are not nested too deep. Nothing else is asked: keys may
come twice, and members in any order. The value of an object has the object's names.

Key definitions: `Node.Readable`.
Key theorems: `Node.exists_value?_iff`, `Node.exists_value?_object_iff`.
-/
import LanInference.Proofs.Json.Members

namespace LanInference
namespace Json
namespace Node

/-- A tree that is taken where containers may be nested `room` deep. -/
inductive Readable : (room : Nat) → Node → Prop
  | null {room : Nat} : Readable room .null
  | bool {room : Nat} (b : Bool) : Readable room (.bool b)
  | number {room : Nat} {n : Literal} {v : Number} : n.number? = some v → Readable room (.number n)
  | string {room : Nat} {ps : List Piece} {cs : List Char} : text? ps = some cs →
      Readable room (.string ps)
  | array {room : Nat} {xs : List Node} : (∀ x ∈ xs, Readable room x) →
      Readable (room + 1) (.array xs)
  | object {room : Nat} {ms : List (List Piece × Node)} : TextKeys ms →
      (∀ m ∈ ms, Readable room m.2) → Readable (room + 1) (.object ms)

/-! ### From a value -/

mutual

theorem readable_of_value? : ∀ (x : Node) {depth : Nat} {v : Value}, x.value? depth = some v →
    x.Readable (depthLimit - depth)
  | .null, _, _, _ => .null
  | .bool b, _, _, _ => .bool b
  | .number _, _, _, h => by
    obtain ⟨v, hv, -⟩ := Option.map_eq_some_iff.mp h
    exact .number hv
  | .string _, _, _, h => by
    obtain ⟨cs, hcs, -⟩ := Option.map_eq_some_iff.mp h
    exact .string hcs
  | .array xs, depth, _, h => by
    rw [value?] at h
    split at h
    · obtain ⟨vs, hvs, -⟩ := Option.map_eq_some_iff.mp h
      have hroom : depthLimit - depth = depthLimit - (depth + 1) + 1 := by omega
      rw [hroom]
      exact .array (readable_of_itemValues? xs hvs)
    · cases h
  | .object ms, depth, _, h => by
    rw [value?] at h
    split at h
    · obtain ⟨vs, hvs, -⟩ := Option.map_eq_some_iff.mp h
      have hroom : depthLimit - depth = depthLimit - (depth + 1) + 1 := by omega
      obtain ⟨hkeys, hms⟩ := readable_of_memberValues? ms hvs
      rw [hroom]
      exact .object hkeys hms
    · cases h

theorem readable_of_itemValues? : ∀ (xs : List Node) {depth : Nat} {acc vs : List Value},
    itemValues? depth acc xs = some vs → ∀ x ∈ xs, x.Readable (depthLimit - depth)
  | [], _, _, _, _ => by simp
  | x :: xs, depth, acc, vs, h => by
    rw [itemValues?] at h
    split at h
    · rename_i v hv
      exact List.forall_mem_cons.mpr ⟨readable_of_value? x hv, readable_of_itemValues? xs h⟩
    · cases h

theorem readable_of_memberValues? : ∀ (ms : List (List Piece × Node)) {depth : Nat}
    {acc vs : List (String × Value)}, memberValues? depth acc ms = some vs →
    TextKeys ms ∧ ∀ m ∈ ms, m.2.Readable (depthLimit - depth)
  | [], _, _, _, _ => by simp [TextKeys]
  | (k, x) :: ms, depth, acc, vs, h => by
    rw [memberValues?] at h
    split at h
    · rename_i key v hkey hv
      obtain ⟨hkeys, hms⟩ := readable_of_memberValues? ms h
      exact ⟨List.forall_mem_cons.mpr ⟨⟨key, hkey⟩, hkeys⟩,
        List.forall_mem_cons.mpr ⟨readable_of_value? x hv, hms⟩⟩
    · cases h

end

/-! ### To a value -/

theorem exists_itemValues? {depth : Nat} : ∀ {xs : List Node} (acc : List Value),
    (∀ x ∈ xs, ∃ v, x.value? depth = some v) → ∃ vs, itemValues? depth acc xs = some vs
  | [], acc, _ => ⟨_, rfl⟩
  | x :: xs, acc, h => by
    obtain ⟨⟨v, hv⟩, hxs⟩ := List.forall_mem_cons.mp h
    obtain ⟨vs, hvs⟩ := exists_itemValues? (v :: acc) hxs
    exact ⟨vs, by simp only [itemValues?, hv, hvs]⟩

theorem exists_memberValues? {depth : Nat} : ∀ {ms : List (List Piece × Node)}
    (acc : List (String × Value)), TextKeys ms → (∀ m ∈ ms, ∃ v, m.2.value? depth = some v) →
    ∃ vs, memberValues? depth acc ms = some vs
  | [], acc, _, _ => ⟨_, rfl⟩
  | (k, x) :: ms, acc, hkeys, h => by
    obtain ⟨⟨key, hkey⟩, hkeys⟩ := List.forall_mem_cons.mp hkeys
    obtain ⟨⟨v, hv⟩, hms⟩ := List.forall_mem_cons.mp h
    obtain ⟨vs, hvs⟩ := exists_memberValues? ((String.ofList key, v) :: acc) hkeys hms
    exact ⟨vs, by simp only [memberValues?, hkey, hv, hvs]⟩

theorem Readable.exists_value? {room : Nat} {x : Node} (h : x.Readable room) :
    ∀ depth : Nat, depthLimit - depth = room → ∃ v, x.value? depth = some v := by
  induction h with
  | null => exact fun _ _ => ⟨_, rfl⟩
  | bool b => exact fun _ _ => ⟨_, rfl⟩
  | number hv => exact fun _ _ => ⟨_, by rw [value?, hv, Option.map_some]⟩
  | string hcs => exact fun _ _ => ⟨_, by rw [value?, hcs, Option.map_some]⟩
  | array _ ih =>
    intro depth hroom
    have hdepth : depth < depthLimit := by omega
    obtain ⟨vs, hvs⟩ := exists_itemValues? [] fun x hx => ih x hx (depth + 1) (by omega)
    exact ⟨_, by rw [value?, if_pos hdepth, hvs, Option.map_some]⟩
  | object hkeys _ ih =>
    intro depth hroom
    have hdepth : depth < depthLimit := by omega
    obtain ⟨vs, hvs⟩ := exists_memberValues? [] hkeys
      fun m hm => ih m hm (depth + 1) (by omega)
    exact ⟨_, by rw [value?, if_pos hdepth, hvs, Option.map_some]⟩

/-- **A tree has a value exactly if it is readable.** -/
theorem exists_value?_iff {x : Node} {depth : Nat} :
    (∃ v, x.value? depth = some v) ↔ x.Readable (depthLimit - depth) :=
  ⟨fun ⟨_, hv⟩ => readable_of_value? x hv, fun h => h.exists_value? depth rfl⟩

/-! ### Names -/

/-- The names of the values are those of the members, after those that were there. -/
theorem memberValues?_names {depth : Nat} : ∀ {ms : List (List Piece × Node)}
    {acc vs : List (String × Value)}, memberValues? depth acc ms = some vs → ∀ name : String,
    (∃ v ∈ vs, v.1 = name) ↔ (∃ v ∈ acc, v.1 = name) ∨ ∃ m ∈ ms, text? m.1 = some name.toList
  | [], acc, vs, h, name => by
    obtain rfl := Option.some.inj h
    simp
  | (k, x) :: ms, acc, vs, h, name => by
    rw [memberValues?] at h
    split at h
    · rename_i key v hkey hv
      rw [memberValues?_names h name]
      simp only [List.exists_mem_cons_iff, hkey, Option.some.injEq, eq_toList_iff]
      rw [or_assoc, or_left_comm]
    · cases h

/-- **An object has a value exactly if it is readable, and the value has the object's names.** -/
theorem exists_value?_object_iff {ms : List (List Piece × Node)} {name : String} :
    (∃ vs, (Node.object ms).value? 0 = some (.object vs) ∧ ∃ v ∈ vs, v.1 = name) ↔
      (Node.object ms).Readable depthLimit ∧ ∃ m ∈ ms, text? m.1 = some name.toList := by
  have hvalue : (Node.object ms).value? 0 = (memberValues? 1 [] ms).map .object := by
    rw [value?, if_pos (by decide)]
  constructor
  · rintro ⟨vs, hvs, hname⟩
    refine ⟨exists_value?_iff.mp ⟨_, hvs⟩, ?_⟩
    rw [hvalue] at hvs
    obtain ⟨us, hus, heq⟩ := Option.map_eq_some_iff.mp hvs
    obtain rfl := Value.object.inj heq
    simpa using (memberValues?_names hus name).mp hname
  · rintro ⟨hreadable, hname⟩
    obtain ⟨v, hv⟩ : ∃ v, (Node.object ms).value? 0 = some v := exists_value?_iff.mpr hreadable
    rw [hvalue] at hv
    obtain ⟨vs, hvs, -⟩ := Option.map_eq_some_iff.mp hv
    refine ⟨vs, by rw [hvalue, hvs, Option.map_some], ?_⟩
    exact (memberValues?_names hvs name).mpr (.inr hname)

end Node
end Json
end LanInference
