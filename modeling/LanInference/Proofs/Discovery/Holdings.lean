/-
# What a set of endpoints holds

A set of endpoints is a finite map from keys: after any calls it shows the values of the map in the
order of the bytes of their keys, and each call says exactly whether what is shown has changed. The
map is a function here, and what a call makes of it is said in one line each (`Holding.after`).

The set stores each endpoint under the endpoint's own key (`EndpointSet.Keyed`), so what it shows
determines what it holds (`EndpointSet.Keyed.snapshot_inj`). This is what makes the flags exact: a
call that changes what a key holds changes what is shown.

Key definitions: `SetCall`, `Holding.after`, `EndpointSet.run`, `EndpointSet.Keyed`,
`EndpointSet.Shows`.
Key theorems: `EndpointSet.Keyed.mem_snapshot_iff`, `EndpointSet.Keyed.snapshot_inj`,
`EndpointSet.Keyed.changed_insert_iff`, `EndpointSet.shows_holding`.
-/
import Mathlib.Logic.Function.Basic
import LanInference.Discovery.Endpoint
import LanInference.Proofs.Text.Order

namespace LanInference

/-- A call that may change a set of endpoints. -/
inductive SetCall where
  | insert (e : Endpoint)
  | remove (k : EndpointKey)
  | clear

/-- What each key holds. -/
abbrev Holding := EndpointKey → Option Endpoint

namespace Holding

def nothing : Holding := fun _ => none

/-- What the keys hold after a call. -/
def after (m : Holding) : SetCall → Holding
  | .insert e => Function.update m e.key (some e)
  | .remove k => Function.update m k none
  | .clear => nothing

/-- What the keys hold after all of these calls on nothing. -/
def ofCalls (calls : List SetCall) : Holding := calls.foldl after nothing

end Holding

/-- The bytes of the key of an endpoint. -/
def Endpoint.keyBytes (e : Endpoint) : List UInt8 := Utf8.encode e.key.text.toList

namespace EndpointSet

variable {s t : EndpointSet} {m : Holding}

/-- The set after a call. -/
def after (s : EndpointSet) : SetCall → EndpointSet
  | .insert e => (s.insert e).1
  | .remove k => (s.remove k).1
  | .clear => s.clear.1

/-- The set after all of these calls. -/
def run (s : EndpointSet) (calls : List SetCall) : EndpointSet := calls.foldl after s

/-! ### Calls and what is held -/

/-- A call does to the set what it does to the map. -/
theorem find?_after (h : ∀ k, s.find? k = m k) (c : SetCall) (k : EndpointKey) :
    (s.after c).find? k = m.after c k := by
  cases c with
  | insert e =>
    show (s.insert e).1.find? k = Function.update m e.key (some e) k
    rw [find?_insert, Function.update_apply, h]
  | remove j =>
    show (s.remove j).1.find? k = Function.update m j none k
    rw [find?_remove, Function.update_apply, h]
  | clear => rfl

theorem find?_foldl : ∀ (calls : List SetCall) {s : EndpointSet} {m : Holding},
    (∀ k, s.find? k = m k) → ∀ k, (s.run calls).find? k = calls.foldl Holding.after m k
  | [], _, _, h => h
  | c :: calls, _, _, h => find?_foldl calls (find?_after h c)

/-- **After any calls the set holds what the map holds.** -/
theorem find?_run (calls : List SetCall) (k : EndpointKey) :
    (empty.run calls).find? k = Holding.ofCalls calls k :=
  find?_foldl calls (fun _ => rfl) k

/-! ### Every endpoint under its own key -/

/-- Each endpoint is stored under its own key. -/
def Keyed (s : EndpointSet) : Prop := ∀ x ∈ s.byKey.entries, x.1 = x.2.key.text

theorem keyed_empty : empty.Keyed := fun _ hx => absurd hx List.not_mem_nil

namespace Keyed

theorem insert (hs : s.Keyed) (e : Endpoint) : (s.insert e).1.Keyed := by
  intro x hx
  rcases mem_entries_insert hx with rfl | hx
  · rfl
  · exact hs x hx

theorem remove (hs : s.Keyed) (k : EndpointKey) : (s.remove k).1.Keyed :=
  fun x hx => hs x (mem_entries_remove hx)

theorem after (hs : s.Keyed) (c : SetCall) : (s.after c).Keyed := by
  cases c with
  | insert e => exact hs.insert e
  | remove k => exact hs.remove k
  | clear => exact keyed_empty

theorem run : ∀ (calls : List SetCall) {s : EndpointSet}, s.Keyed → (s.run calls).Keyed
  | [], _, hs => hs
  | c :: calls, _, hs => run calls (hs.after c)

/-- What is shown is what the keys hold. -/
theorem mem_snapshot_iff (hs : s.Keyed) (e : Endpoint) :
    e ∈ s.snapshot ↔ s.find? e.key = some e := by
  rw [find?, OrderedMap.get?_eq_some_iff]
  constructor
  · intro he
    obtain ⟨x, hx, rfl⟩ := List.mem_map.mp he
    rw [← hs x hx]
    exact hx
  · intro he
    exact List.mem_map.mpr ⟨_, he, rfl⟩

theorem key_eq (hs : s.Keyed) {k : EndpointKey} {e : Endpoint} (h : s.find? k = some e) :
    e.key = k :=
  (EndpointKey.text_inj.mp (hs _ (OrderedMap.mem_of_get? h))).symm

/-- **What is shown determines what is held.** -/
theorem snapshot_inj (hs : s.Keyed) (ht : t.Keyed) : s.snapshot = t.snapshot ↔ s = t := by
  refine ⟨fun h => ext_find? fun k => ?_, fun h => congrArg snapshot h⟩
  -- an endpoint that a key holds in one set is shown by both, and so held by that key in the other
  have hheld : ∀ {a b : EndpointSet}, a.Keyed → b.Keyed → a.snapshot = b.snapshot →
      ∀ e, a.find? k = some e → b.find? k = some e := by
    intro a b ha hb hab e he
    have hkey : e.key = k := ha.key_eq he
    rw [← hkey, ← ha.mem_snapshot_iff, hab, hb.mem_snapshot_iff] at he
    rwa [hkey] at he
  exact Option.ext fun e => ⟨hheld hs ht h e, hheld ht hs h.symm e⟩

/-- The endpoints are shown in the order of the bytes of their keys, no key twice. -/
theorem ascending (hs : s.Keyed) :
    s.snapshot.Pairwise fun x y => x.keyBytes < y.keyBytes := by
  refine List.pairwise_map.mpr (s.byKey.ascending.imp_of_mem fun {x y} hx hy hlt => ?_)
  rw [hs x hx, hs y hy] at hlt
  exact Utf8.encode_lt_encode hlt

/-! ### What a call says -/

/-- An insertion that says so, and no other, changes what is shown. -/
theorem changed_insert_iff (hs : s.Keyed) (e : Endpoint) :
    (s.insert e).2 = true ↔ (s.insert e).1.snapshot ≠ s.snapshot := by
  rw [ne_eq, (hs.insert e).snapshot_inj hs]
  by_cases hsame : s.find? e.key = some e
  · rw [EndpointSet.insert, if_pos hsame]
    simp
  · have hdiffers : (s.insert e).1 ≠ s := by
      intro h
      have hheld : (s.insert e).1.find? e.key = some e := by rw [find?_insert, if_pos rfl]
      exact hsame (h ▸ hheld)
    rw [EndpointSet.insert, if_neg hsame] at hdiffers ⊢
    simp [hdiffers]

theorem changed_remove_iff (hs : s.Keyed) (k : EndpointKey) :
    (s.remove k).2.isSome = true ↔ (s.remove k).1.snapshot ≠ s.snapshot := by
  rw [ne_eq, (hs.remove k).snapshot_inj hs, isSome_remove]
  constructor
  · intro hheld h
    have hgone : (s.remove k).1.contains k = false := by simp [contains_remove]
    rw [h, hheld] at hgone
    cases hgone
  · intro h
    by_contra hfree
    exact h (remove_of_free (by simpa using hfree))

end Keyed

theorem answer_remove (s : EndpointSet) (k : EndpointKey) : (s.remove k).2 = s.find? k := by
  unfold remove
  split
  · rename_i e he
    exact he.symm
  · rename_i hnone
    exact hnone.symm

theorem isEmpty_snapshot (s : EndpointSet) : s.snapshot.isEmpty = s.isEmpty := by
  rw [snapshot, isEmpty, OrderedMap.values, List.isEmpty_map, OrderedMap.isEmpty]

/-- An endpoint that is put in and taken out again leaves no trace. -/
theorem remove_insert_of_free {e : Endpoint} (h : s.find? e.key = none) :
    (s.insert e).1.remove e.key = (s, some e) := by
  refine Prod.ext (ext_find? fun k => ?_) ?_
  · rw [find?_remove, find?_insert]
    by_cases hk : k = e.key
    · rw [if_pos hk, hk, h]
    · rw [if_neg hk, if_neg hk]
  · rw [answer_remove, find?_insert, if_pos rfl]

/-! ### All together -/

/-- The set shows what the map holds, and calls on it say what they change. -/
structure Shows (s : EndpointSet) (m : Holding) : Prop where
  ascending : s.snapshot.Pairwise fun x y => x.keyBytes < y.keyBytes
  shown : ∀ e, e ∈ s.snapshot ↔ ∃ k, m k = some e
  contains : ∀ k, s.contains k = (m k).isSome ∧ (s.contains k = true ↔ ∃ e ∈ s.snapshot, e.key = k)
  size : s.size = s.snapshot.length
  isEmpty : s.isEmpty = s.snapshot.isEmpty
  insert : ∀ e, (s.insert e).2 = true ↔ (s.insert e).1.snapshot ≠ s.snapshot
  remove : ∀ k, (s.remove k).2 = m k ∧
    ((s.remove k).2 ≠ none ↔ (s.remove k).1.snapshot ≠ s.snapshot)
  clear : (s.clear.2 = true ↔ s.snapshot ≠ []) ∧
    (s.clear.2 = true ↔ s.clear.1.snapshot ≠ s.snapshot)
  restored : ∀ e, m e.key = none → ((s.insert e).1.remove e.key).1.snapshot = s.snapshot

/-- **A set of endpoints is a finite map that reports its changes exactly,** after any calls. -/
theorem shows_holding (calls : List SetCall) :
    (empty.run calls).Shows (Holding.ofCalls calls) := by
  have hs : (empty.run calls).Keyed := keyed_empty.run calls
  have hm : ∀ k, (empty.run calls).find? k = Holding.ofCalls calls k := find?_run calls
  generalize empty.run calls = s at hs hm
  generalize Holding.ofCalls calls = m at hm
  have hshown : ∀ e, e ∈ s.snapshot ↔ ∃ k, m k = some e := by
    intro e
    rw [hs.mem_snapshot_iff]
    constructor
    · intro h
      exact ⟨e.key, hm e.key ▸ h⟩
    · rintro ⟨k, hk⟩
      rw [← hm] at hk
      rwa [hs.key_eq hk]
  have hempty : s.clear.2 = true ↔ s.snapshot ≠ [] := by
    show (!s.isEmpty) = true ↔ _
    rw [← isEmpty_snapshot, Bool.not_eq_true', ne_eq, ← List.isEmpty_iff, Bool.not_eq_true]
  exact {
    ascending := hs.ascending
    shown := hshown
    contains := fun k => by
      have hfound : s.contains k = (s.find? k).isSome := rfl
      refine ⟨by rw [hfound, hm], ?_⟩
      rw [hfound, Option.isSome_iff_exists]
      constructor
      · rintro ⟨e, he⟩
        have hkey := hs.key_eq he
        exact ⟨e, (hs.mem_snapshot_iff e).mpr (hkey.symm ▸ he), hkey⟩
      · rintro ⟨e, he, rfl⟩
        exact ⟨e, (hs.mem_snapshot_iff e).mp he⟩
    size := s.length_snapshot.symm
    isEmpty := s.isEmpty_snapshot.symm
    insert := hs.changed_insert_iff
    remove := fun k => by
      refine ⟨by rw [answer_remove, hm], ?_⟩
      rw [← hs.changed_remove_iff, Option.isSome_iff_ne_none]
    clear := ⟨hempty, hempty.trans ne_comm⟩
    restored := fun e he => by
      rw [remove_insert_of_free (by rw [hm, he])] }

end EndpointSet
end LanInference
