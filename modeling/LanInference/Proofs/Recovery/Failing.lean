/-
# Stores whose operations may fail

Under session ids a store keeps its texts if whatever it answers is what it has, an operation that
succeeds does what it is for, and one that fails changes nothing. When an operation fails is left
open. A reliable store keeps its texts, the file store does so whatever is in its directory, and
faults take this from no store.

Key definitions: `Keeps`.
Key theorems: `Keeps.apply`, `Reliable.keeps`, `Keeps.faulty`, `keeps_fileStore`.
-/
import LanInference.Proofs.Recovery.Reliable
import LanInference.Proofs.Recovery.Sessions

namespace LanInference

variable {σ : Type} [RecoveryStore σ] {good : σ → Prop} {texts : σ → String → Option String}

/-- `texts` is what the store has, on the states in `good`. -/
structure Keeps (good : σ → Prop) (texts : σ → String → Option String) : Prop where
  get_eq : ∀ {s : σ}, good s → ∀ (id : SessionId) {text : Option String},
    RecoveryStore.get s id.text = .ok text → text = texts s id.text
  put_keeps : ∀ {s : σ}, good s → ∀ (id : SessionId) (text : String),
    good (RecoveryStore.put s id.text text).1 ∧ ∀ other : SessionId,
      texts (RecoveryStore.put s id.text text).1 other.text =
        if other.text = id.text ∧ (RecoveryStore.put s id.text text).2.isOk = true then some text
        else texts s other.text
  remove_keeps : ∀ {s : σ}, good s → ∀ id : SessionId,
    good (RecoveryStore.remove s id.text).1 ∧ ∀ other : SessionId,
      texts (RecoveryStore.remove s id.text).1 other.text =
        if other.text = id.text ∧ (RecoveryStore.remove s id.text).2.isOk = true then none
        else texts s other.text

/-- A write changes the entry under its own id alone, and only if it succeeds. -/
theorem Keeps.apply (h : Keeps good texts) {s : σ} (hs : good s) {op : StoreOp} (id : SessionId)
    (hid : op.id = id.text) : good (op.apply s).1 ∧ ∀ other : SessionId,
      texts (op.apply s).1 other.text =
        if other.text = id.text ∧ (op.apply s).2.isOk = true then op.entryAfter
        else texts s other.text := by
  cases op with
  | put key text =>
    have hkey : key = id.text := hid
    rw [hkey]
    exact h.put_keeps hs id text
  | remove key =>
    have hkey : key = id.text := hid
    rw [hkey]
    exact h.remove_keeps hs id

/-- An entry that is there and not found was asked for in vain. -/
theorem Keeps.get_failed (h : Keeps good texts) {s : σ} (hs : good s) {id : SessionId}
    {text : String} (htext : texts s id.text = some text) (hfound : hasEntry s id.text = false) :
    ∃ e, RecoveryStore.get s id.text = .error e := by
  cases hget : RecoveryStore.get s id.text with
  | error e => exact ⟨e, rfl⟩
  | ok answer =>
    have hanswer : answer = some text := (h.get_eq hs id hget).trans htext
    simp [hasEntry, hget, hanswer] at hfound

/-- A store whose operations succeed keeps its texts. -/
theorem Reliable.keeps (h : Reliable good) : Keeps good storedText where
  get_eq _ _ _ hget := (storedText_of_get hget).symm
  put_keeps hs id text := by
    obtain ⟨s', hput, hgood, htexts⟩ := h.put_ok hs id text
    rw [hput]
    refine ⟨hgood, fun other => ?_⟩
    simp only [htexts other, Except.isOk, Except.toBool, and_true]
  remove_keeps hs id := by
    obtain ⟨s', hremove, hgood, htexts⟩ := h.remove_ok hs id
    rw [hremove]
    refine ⟨hgood, fun other => ?_⟩
    simp only [htexts other, Except.isOk, Except.toBool, and_true]

/-- **Faults take no text.** -/
theorem Keeps.faulty (h : Keeps good texts) :
    Keeps (fun s : FaultyStore σ => good s.store) fun s => texts s.store where
  get_eq {s} hs id text hget := by
    simp only [RecoveryStore.get] at hget
    by_cases hf : s.faults.get = true
    · simp [hf] at hget
    · rw [if_neg hf] at hget
      exact h.get_eq hs id hget
  put_keeps {s} hs id text := by
    simp only [RecoveryStore.put]
    by_cases hf : s.faults.put = true
    · rw [if_pos hf]
      exact ⟨hs, fun other => by simp [Except.isOk, Except.toBool]⟩
    · rw [if_neg hf]
      exact h.put_keeps hs id text
  remove_keeps {s} hs id := by
    simp only [RecoveryStore.remove]
    by_cases hf : s.faults.remove = true
    · rw [if_pos hf]
      exact ⟨hs, fun other => by simp [Except.isOk, Except.toBool]⟩
    · rw [if_neg hf]
      exact h.remove_keeps hs id

/-! ### The file store -/

namespace FileStore

/-- A write of a text succeeds and leaves it, or fails and leaves what was there. -/
theorem put_keeps (s : FileStore) (id : SessionId) (text : String) (other : String) :
    storedText (s.put id.text text).1 other =
      if other = id.text ∧ (s.put id.text text).2.isOk = true then some text
      else storedText s other := by
  have hid := isValidId_text id
  by_cases hw : s.directory.Writable id.text
  · obtain ⟨d', hput, halike⟩ := put_of_writable hid hw text
    have hreplaces : Replaces s ⟨d'⟩ id.text text := replaces_of_alike hid hw.there halike
    rw [hput]
    simp only [hreplaces.storedText_eq other, Except.isOk, Except.toBool, and_true]
  · obtain ⟨d', hput, halike⟩ := put_of_not_writable hid hw text
    rw [hput]
    simp only [Except.isOk, Except.toBool, Bool.false_eq_true, and_false, if_false]
    exact storedText_congr (halike.get_eq other)

theorem remove_keeps (s : FileStore) (id other : SessionId) :
    storedText (s.remove id.text).1 other.text =
      if other.text = id.text ∧ (s.remove id.text).2.isOk = true then none
      else storedText s other.text := by
  have hid := isValidId_text id
  by_cases hfree : s.directory.refusal? (dataName id.text) = none
  · obtain ⟨hok, hfind⟩ := remove_unbinds hid hfree
    have hother := hfind (dataName other.text)
    simp only [hok, Except.isOk, Except.toBool, and_true]
    split
    · rename_i hsame
      rw [if_pos (congrArg dataName hsame)] at hother
      exact storedText_of_not_shown (by simp [Shown, hother])
    · rename_i hne
      rw [if_neg (fun heq => hne (dataName_inj.mp heq))] at hother
      exact storedText_congr (get_congr hother)
  · rw [remove_of_refused hid hfree]
    simp [Except.isOk, Except.toBool]

end FileStore

/-- **The file store keeps its texts,** whatever else is in its directory. -/
theorem keeps_fileStore : Keeps (fun _ : FileStore => True) storedText where
  get_eq _ _ _ hget := (storedText_of_get hget).symm
  put_keeps {s} _ id text := ⟨trivial, fun other => s.put_keeps id text other.text⟩
  remove_keeps {s} _ id := ⟨trivial, s.remove_keeps id⟩

end LanInference
