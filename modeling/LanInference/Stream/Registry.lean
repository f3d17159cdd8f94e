/-
# The registry of running sessions

Each session is opened with a serial number of its own. The registry holds the latest session of
each id until it has finished; a session that was replaced cannot remove the entry of the one that
replaced it, because the serials differ.

Key definitions: `Registry`, `Registry.serial?`, `Registry.insert`, `Registry.finish`.
Key theorems: `Registry.serial?_insert`, `Registry.serial?_finish`.
-/
import LanInference.SessionId

namespace LanInference

structure Registry where
  /-- Sessions opened so far; the next one has this serial. -/
  opened : Nat := 0
  /-- The running sessions by id, at most one for each. -/
  running : List (SessionId × Nat) := []
  deriving Repr, DecidableEq

namespace Registry

/-- The serial of the session that runs under an id. -/
def serial? (r : Registry) (id : SessionId) : Option Nat :=
  (r.running.find? (·.1 = id)).map (·.2)

/-- A new session under an id, in the place of the one that was there. -/
def insert (r : Registry) (id : SessionId) : Registry :=
  ⟨r.opened + 1, (id, r.opened) :: r.running.filter (·.1 ≠ id)⟩

/-- A session has finished. The entry of its id goes, if it is still this session's. -/
def finish (r : Registry) (id : SessionId) (serial : Nat) : Registry :=
  if r.serial? id = some serial then { r with running := r.running.filter (·.1 ≠ id) } else r

/-- Among the entries of other ids, an id is found as among all. -/
theorem find?_filter_ne {id other : SessionId} (h : other ≠ id) (es : List (SessionId × Nat)) :
    (es.filter (·.1 ≠ id)).find? (·.1 = other) = es.find? (·.1 = other) := by
  rw [List.find?_filter]
  congr 1
  funext e
  by_cases he : e.1 = other <;> simp [he, h]

theorem serial?_insert (r : Registry) (id other : SessionId) :
    (r.insert id).serial? other = if other = id then some r.opened else r.serial? other := by
  by_cases h : other = id
  · simp [serial?, insert, h]
  · have h' : ¬ id = other := fun e => h e.symm
    simp only [serial?, insert, List.find?_cons, h', h, if_false, decide_false]
    rw [find?_filter_ne h]

/-- Only the session that has the entry of its id takes it away. -/
theorem serial?_finish (r : Registry) (id other : SessionId) (serial : Nat) :
    (r.finish id serial).serial? other =
      if other = id ∧ r.serial? id = some serial then none else r.serial? other := by
  unfold finish
  by_cases hs : r.serial? id = some serial
  · rw [if_pos hs]
    by_cases h : other = id
    · have hn : ((r.running.filter (·.1 ≠ id)).find? (·.1 = id)) = none := by
        rw [List.find?_eq_none]
        intro e he
        simpa using (List.mem_filter.mp he).2
      rw [if_pos ⟨h, hs⟩, h]
      simp only [serial?, hn, Option.map_none]
    · rw [if_neg (fun e => h e.1)]
      simp only [serial?]
      rw [find?_filter_ne h]
  · rw [if_neg hs, if_neg (fun e => hs e.2)]

end Registry
end LanInference
