/-
# Stores whose operations succeed

A store is reliable on the states in `good` if there each operation under a session id succeeds,
leads to such a state again, and changes the text of that id alone: a put is read back, a removal
leaves nothing. It is framed if what it answers under any other id stays, be it the id of a session
or not. The store in memory is both in every state.

Key definitions: `storedText`, `Reliable`, `Framed`, `StoreOp.entryAfter`.
Key theorems: `Reliable.apply`, `Framed.apply`, `reliable_memoryStore`, `framed_memoryStore`.
-/
import LanInference.Recovery.Store
import LanInference.SessionId

namespace LanInference

variable {σ : Type} [RecoveryStore σ]

/-- The text that a store gives for an id, if it gives one. -/
def storedText (store : σ) (id : String) : Option String :=
  match RecoveryStore.get store id with
  | .ok text => text
  | .error _ => none

theorem storedText_of_get {store : σ} {id : String} {text : Option String}
    (h : RecoveryStore.get store id = .ok text) : storedText store id = text := by
  rw [storedText, h]

theorem storedText_congr {s t : σ} {id : String}
    (h : RecoveryStore.get s id = RecoveryStore.get t id) : storedText s id = storedText t id := by
  rw [storedText, storedText, h]

/-- The operations succeed and do what they are for, under session ids. -/
structure Reliable (good : σ → Prop) : Prop where
  get_ok : ∀ {s : σ}, good s → ∀ id : SessionId,
    RecoveryStore.get s id.text = .ok (storedText s id.text)
  put_ok : ∀ {s : σ}, good s → ∀ (id : SessionId) (text : String),
    ∃ s', RecoveryStore.put s id.text text = (s', .ok ()) ∧ good s' ∧ ∀ other : SessionId,
      storedText s' other.text =
        if other.text = id.text then some text else storedText s other.text
  remove_ok : ∀ {s : σ}, good s → ∀ id : SessionId,
    ∃ s', RecoveryStore.remove s id.text = (s', .ok ()) ∧ good s' ∧ ∀ other : SessionId,
      storedText s' other.text =
        if other.text = id.text then none else storedText s other.text

/-- The operations under a session id leave what the store answers under every other id. -/
structure Framed (good : σ → Prop) : Prop where
  put_frame : ∀ {s : σ}, good s → ∀ (id : SessionId) (text : String) {other : String},
    other ≠ id.text →
      RecoveryStore.get (RecoveryStore.put s id.text text).1 other = RecoveryStore.get s other
  remove_frame : ∀ {s : σ}, good s → ∀ (id : SessionId) {other : String}, other ≠ id.text →
    RecoveryStore.get (RecoveryStore.remove s id.text).1 other = RecoveryStore.get s other

/-- The entry under a write's id once the write is done. -/
def StoreOp.entryAfter : StoreOp → Option String
  | put _ text => some text
  | remove _ => none

theorem hasEntry_eq (store : σ) (id : String) :
    hasEntry store id = (storedText store id).isSome := by
  unfold hasEntry storedText
  cases RecoveryStore.get store id with
  | error e => rfl
  | ok text => cases text <;> rfl

/-- A write succeeds, and changes the entry under its own id alone. -/
theorem Reliable.apply {good : σ → Prop} (h : Reliable good) {s : σ} (hs : good s) {op : StoreOp}
    (id : SessionId) (hid : op.id = id.text) :
    ∃ s', op.apply s = (s', .ok ()) ∧ good s' ∧ ∀ other : SessionId,
      storedText s' other.text =
        if other.text = id.text then op.entryAfter else storedText s other.text := by
  cases op with
  | put key text =>
    have hkey : key = id.text := hid
    rw [hkey]
    exact h.put_ok hs id text
  | remove key =>
    have hkey : key = id.text := hid
    rw [hkey]
    exact h.remove_ok hs id

theorem Framed.apply {good : σ → Prop} (h : Framed good) {s : σ} (hs : good s) {op : StoreOp}
    {id : SessionId} (hid : op.id = id.text) {other : String} (hother : other ≠ id.text) :
    RecoveryStore.get (op.apply s).1 other = RecoveryStore.get s other := by
  cases op with
  | put key text =>
    have hkey : key = id.text := hid
    rw [hkey]
    exact h.put_frame hs id text hother
  | remove key =>
    have hkey : key = id.text := hid
    rw [hkey]
    exact h.remove_frame hs id hother

/-- The store in memory never fails. -/
theorem reliable_memoryStore : Reliable fun _ : MemoryStore => True where
  get_ok _ _ := rfl
  put_ok {s} _ id text := by
    refine ⟨⟨s.texts.insert id.text text⟩, rfl, trivial, fun other => ?_⟩
    exact s.texts.get?_insert id.text text other.text
  remove_ok {s} _ id := by
    refine ⟨⟨s.texts.erase id.text⟩, rfl, trivial, fun other => ?_⟩
    exact s.texts.get?_erase id.text other.text

theorem framed_memoryStore : Framed fun _ : MemoryStore => True where
  put_frame {s} _ id text other hother := by
    show Except.ok ((s.texts.insert id.text text).get? other) = Except.ok (s.texts.get? other)
    rw [s.texts.get?_insert, if_neg hother]
  remove_frame {s} _ id other hother := by
    show Except.ok ((s.texts.erase id.text).get? other) = Except.ok (s.texts.get? other)
    rw [s.texts.get?_erase, if_neg hother]

end LanInference
