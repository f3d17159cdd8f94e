/-
# Services and endpoints

A service is what a browser reports; an endpoint is a service that passed validation. Both are
identified by a key of host and port in which trailing dots and letter case do not count and an IPv6
host stands in brackets. The endpoints held are a set with one entry for each key.

Key definitions: `EndpointKey.ofHostPort`, `Service`, `Endpoint`, `EndpointSet`,
`EndpointSet.insert`, `EndpointSet.remove`, `EndpointSet.snapshot`.
Key theorems: `EndpointSet.contains_insert`, `EndpointSet.contains_remove`,
`EndpointSet.size_insert`, `EndpointSet.size_remove`.
-/
import LanInference.Net.Address
import LanInference.OrderedMap
import LanInference.Text.Trim

namespace LanInference

/-- The identity of an endpoint: `host:port`. -/
structure EndpointKey where
  text : String
  deriving Repr, DecidableEq

/-- A host or a domain name without trailing dots and in lower case (of the ASCII letters). -/
def normalName (name : String) : String := (Text.stripTrailing '.' name).map Char.toLower

namespace EndpointKey

theorem text_inj {a b : EndpointKey} : a.text = b.text ↔ a = b := by
  rw [EndpointKey.mk.injEq]

def ofHostPort (host : String) (port : UInt16) : EndpointKey :=
  let host := normalName host
  let host := if host.toList.contains ':' ∧ host.toList.head? ≠ some '[' then "[" ++ host ++ "]"
    else host
  ⟨host ++ ":" ++ Nat.repr port.toNat⟩

/-- The URL of the endpoint's server. -/
def baseUrl (k : EndpointKey) : String := "http://" ++ k.text

end EndpointKey

/-- A service as a browser reports it: the name of its instance, its host and its port. -/
structure Service where
  name : String
  host : String
  port : UInt16
  deriving Repr, DecidableEq

namespace Service

def ofAddress (name : String) (address : Address) (port : UInt16) : Service :=
  ⟨name, address.text, port⟩

def key (s : Service) : EndpointKey := .ofHostPort s.host s.port

def baseUrl (s : Service) : String := s.key.baseUrl

end Service

structure Endpoint where
  key : EndpointKey
  name : String
  host : String
  port : UInt16
  validated : Bool
  deriving Repr, DecidableEq

namespace Endpoint

/-- The endpoint of a service that passed validation. -/
def ofService (s : Service) : Endpoint := ⟨s.key, s.name, s.host, s.port, true⟩

def baseUrl (e : Endpoint) : String := e.key.baseUrl

end Endpoint

/-- The endpoints held, at most one for each key. -/
structure EndpointSet where
  byKey : OrderedMap Endpoint
  deriving DecidableEq, Repr

namespace EndpointSet

def empty : EndpointSet := ⟨.empty⟩

def find? (s : EndpointSet) (k : EndpointKey) : Option Endpoint := s.byKey.get? k.text

def contains (s : EndpointSet) (k : EndpointKey) : Bool := s.byKey.contains k.text

/-- Puts an endpoint in the place of the one with its key, and says whether that changed the set. -/
def insert (s : EndpointSet) (e : Endpoint) : EndpointSet × Bool :=
  if s.find? e.key = some e then (s, false) else (⟨s.byKey.insert e.key.text e⟩, true)

/-- Takes the endpoint of a key out, and gives it if there was one. -/
def remove (s : EndpointSet) (k : EndpointKey) : EndpointSet × Option Endpoint :=
  match s.find? k with
  | some e => (⟨s.byKey.erase k.text⟩, some e)
  | none => (s, none)

/-- Takes all endpoints out, and says whether there were any. -/
def clear (s : EndpointSet) : EndpointSet × Bool := (empty, !s.byKey.isEmpty)

def size (s : EndpointSet) : Nat := s.byKey.size

def isEmpty (s : EndpointSet) : Bool := s.byKey.isEmpty

/-- The endpoints in the order of their keys. -/
def snapshot (s : EndpointSet) : List Endpoint := s.byKey.values

/-! ### The keys held -/

@[simp] theorem contains_empty (k : EndpointKey) : empty.contains k = false := rfl

/-- After an insertion the set holds the endpoint's key and the keys it held. -/
theorem contains_insert (s : EndpointSet) (e : Endpoint) (k : EndpointKey) :
    (s.insert e).1.contains k = (decide (k.text = e.key.text) || s.contains k) := by
  unfold insert contains
  split
  · rename_i hsame
    by_cases hk : k.text = e.key.text
    · have hheld : s.byKey.contains e.key.text = true := by
        rw [OrderedMap.contains, Option.isSome_iff_exists]
        exact ⟨e, hsame⟩
      simp [hk, hheld]
    · simp [hk]
  · exact OrderedMap.contains_insert s.byKey e.key.text e k.text

/-- After a removal the set holds the keys it held but that one. -/
theorem contains_remove (s : EndpointSet) (k j : EndpointKey) :
    (s.remove k).1.contains j = (decide (j.text ≠ k.text) && s.contains j) := by
  unfold remove contains
  split
  · exact OrderedMap.contains_erase s.byKey k.text j.text
  · rename_i hnone
    by_cases hj : j.text = k.text
    · have hnone : s.byKey.contains k.text = false := by
        rw [OrderedMap.contains, ← find?, hnone]
        rfl
      simp [hj, hnone]
    · simp [hj]

theorem mem_entries_insert {s : EndpointSet} {e : Endpoint} {x : String × Endpoint}
    (h : x ∈ (s.insert e).1.byKey.entries) : x = (e.key.text, e) ∨ x ∈ s.byKey.entries := by
  unfold insert at h
  split at h
  · exact .inr h
  · exact OrderedMap.mem_insertEntry h

theorem mem_entries_remove {s : EndpointSet} {k : EndpointKey} {x : String × Endpoint}
    (h : x ∈ (s.remove k).1.byKey.entries) : x ∈ s.byKey.entries := by
  unfold remove at h
  split at h
  · exact (List.mem_filter.mp h).1
  · exact h

/-- An endpoint whose key is not held changes the set. -/
theorem insert_changes {s : EndpointSet} {e : Endpoint} (h : s.contains e.key = false) :
    (s.insert e).2 = true := by
  unfold insert
  split
  · rename_i hsame
    rw [contains, OrderedMap.contains, ← find?, hsame] at h
    cases h
  · rfl

/-- A removal gives an endpoint exactly if the key is held. -/
theorem isSome_remove (s : EndpointSet) (k : EndpointKey) :
    (s.remove k).2.isSome = s.contains k := by
  unfold remove contains OrderedMap.contains
  rw [← find?]
  split <;> simp_all

theorem remove_of_free {s : EndpointSet} {k : EndpointKey} (h : s.contains k = false) :
    (s.remove k).1 = s := by
  unfold remove
  split
  · rename_i hheld
    rw [contains, OrderedMap.contains, ← find?, hheld] at h
    cases h
  · rfl

/-! ### What a key holds -/

/-- After an insertion the endpoint's key holds it, and other keys hold what they held. -/
theorem find?_insert (s : EndpointSet) (e : Endpoint) (k : EndpointKey) :
    (s.insert e).1.find? k = if k = e.key then some e else s.find? k := by
  unfold insert
  split
  · rename_i hsame
    by_cases hk : k = e.key
    · rw [if_pos hk, hk, hsame]
    · rw [if_neg hk]
  · rw [find?, OrderedMap.get?_insert]
    simp only [EndpointKey.text_inj]
    rfl

/-- After a removal its key holds nothing, and other keys hold what they held. -/
theorem find?_remove (s : EndpointSet) (k j : EndpointKey) :
    (s.remove k).1.find? j = if j = k then none else s.find? j := by
  unfold remove
  split
  · rw [find?, OrderedMap.get?_erase]
    simp only [EndpointKey.text_inj]
    rfl
  · rename_i hnone
    by_cases hj : j = k
    · rw [if_pos hj, hj, hnone]
    · rw [if_neg hj]

/-- Sets whose keys hold the same are equal. -/
theorem ext_find? {s t : EndpointSet} (h : ∀ k, s.find? k = t.find? k) : s = t := by
  have hsame : s.byKey = t.byKey := OrderedMap.ext_get? fun k => h ⟨k⟩
  cases s
  cases t
  exact congrArg EndpointSet.mk hsame

/-! ### How many are held -/

@[simp] theorem length_snapshot (s : EndpointSet) : s.snapshot.length = s.size :=
  List.length_map _

theorem size_insert (s : EndpointSet) (e : Endpoint) :
    (s.insert e).1.size = if s.contains e.key then s.size else s.size + 1 := by
  unfold insert
  split
  · rename_i hsame
    have hheld : s.contains e.key = true := by
      rw [contains, OrderedMap.contains, ← find?, hsame]
      rfl
    rw [if_pos hheld]
  · exact OrderedMap.size_insert s.byKey e.key.text e

theorem size_remove (s : EndpointSet) (k : EndpointKey) :
    (s.remove k).1.size = if s.contains k then s.size - 1 else s.size := by
  unfold remove
  split
  · exact OrderedMap.size_erase s.byKey k.text
  · rename_i hnone
    have hfree : s.contains k = false := by
      rw [contains, OrderedMap.contains, ← find?, hnone]
      rfl
    rw [hfree]
    rfl

end EndpointSet
end LanInference
