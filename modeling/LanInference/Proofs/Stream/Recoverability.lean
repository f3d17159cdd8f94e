/-
# What was read can be recovered

A reader that stops a stream in the middle finds its text in the recovery store: as long as the
session has not recorded `done`, the entry starts with all the deltas that were read, and no turn of
the task or of the store after that takes them away. Recording `done` clears the entry, and it does
so before the reader gets `done`: a stream that is cancelled between the two has no entry left.

Key definitions: `StreamAction.Cancels`, `StreamSystem.deltaRun`.
Key theorems: `Lane.Kept.recoverable`, `StreamSystem.recoverable_after_cancel`,
`StreamSystem.not_recoverable_after_done`.
-/
import LanInference.Proofs.Stream.Mirror
import LanInference.Proofs.Wire.RoundTrip

namespace LanInference

namespace Lane

variable {prior : Option String} {l : Lane}

theorem persisted_le (l : Lane) : l.persisted <+: l.task.recorded := by
  rw [persisted]
  split
  · exact List.prefix_refl _
  · exact List.dropLast_prefix _

/-- The entry mirrors events that start with those that were read. -/
theorem Kept.exists_read (hk : l.Kept prior) :
    ∃ more, l.task.yielded ++ more <+: l.task.recorded ∧
      l.entry = mirrored (l.base prior) (l.task.yielded ++ more) := by
  have hread : l.task.yielded <+: l.persisted :=
    (List.prefix_append _ l.task.channel).trans hk.handed_le
  obtain ⟨more, hmore⟩ := hread
  exact ⟨more, hmore ▸ l.persisted_le, hmore ▸ hk.entry_eq⟩

/-- The entry starts with the text that was read, or `done` is recorded and there is none. -/
theorem Kept.recoverable (hk : l.Kept prior) (hd : l.task.yielded.any Event.isDelta = true) :
    (∃ rest, l.entry = some (deltaText l.task.yielded ++ rest)) ∨
      (l.entry = none ∧ .done ∈ l.task.recorded) := by
  obtain ⟨more, hpre, hentry⟩ := hk.exists_read
  by_cases hdone : Event.done ∈ l.task.yielded ++ more
  · rw [mirrored, if_pos hdone] at hentry
    exact .inr ⟨hentry, hpre.subset hdone⟩
  · have hdelta : (l.task.yielded ++ more).any Event.isDelta = true := by
      rw [List.any_append, hd, Bool.true_or]
    rw [mirrored, if_neg hdone, if_pos hdelta, deltaText_append] at hentry
    exact .inl ⟨deltaText more, hentry⟩

end Lane

/-- Whether an action cancels a stream: its reader cancels or goes, or its id is cancelled. -/
def StreamAction.Cancels {σ : Type} (s : StreamSystem σ) (n : Nat) : StreamAction → Prop
  | .cancel m => m = n
  | .drop m => m = n
  | .cancelId id => s.registry.serial? id = some n
  | _ => False

namespace StreamSystem

variable {σ : Type} [RecoveryStore σ]

omit [RecoveryStore σ] in
theorem task_of_move {s s' : StreamSystem σ} {n : Nat} {f : StreamTask → StreamTask}
    {t : StreamTask} (h : s.move n (fun t => some (f t)) = some s') (ht : s.tasks[n]? = some t) :
    s'.tasks[n]? = some (f t) := by
  have hlen := (List.getElem?_eq_some_iff.mp ht).1
  simp only [move, ht] at h
  cases h
  simp [setTask, hlen]

theorem cancelled_of_cancels {s s' : StreamSystem σ} {n : Nat} {a : StreamAction}
    {t : StreamTask} (ha : a.Cancels s n) (h : s.step a = some s') (ht : s.tasks[n]? = some t) :
    ∃ t', s'.tasks[n]? = some t' ∧ t'.cancelled = true ∧ t'.yielded = t.yielded := by
  cases a with
  | cancel m =>
    have hm : m = n := ha
    subst hm
    exact ⟨t.cancel, task_of_move h ht, rfl, rfl⟩
  | drop m =>
    have hm : m = n := ha
    subst hm
    exact ⟨t.drop, task_of_move h ht, rfl, rfl⟩
  | cancelId id =>
    have hid : s.registry.serial? id = some n := ha
    simp only [step, hid] at h
    exact ⟨t.cancel, task_of_move h ht, rfl, rfl⟩
  | _ => exact ha.elim

/-! ### A stream whose body comes at once -/

/-- A request for a pull. -/
def pullRequest : StreamRequest := { id := ⟨1⟩, kind := .pull "m", apiBase := "http://h/api" }

/-- A body with one delta, and its last line. -/
def shortBody : List UInt8 :=
  bodyBytes [((Ndjson.messageTree "a").write, .newline), (WireFormat.ndjson.doneLine, .newline)]

/-- The stream up to the moment at which its reader has got the delta. -/
def deltaRun : List StreamAction :=
  [.start pullRequest, .respond 0 (.status 200), .lookUp 0, .mark 0, .write 0,
    .receive 0 (.chunk shortBody), .record 0, .write 0, .send 0, .read 0]

omit [RecoveryStore σ] in
theorem owns_of_single {s : StreamSystem σ} {t : StreamTask} {id : SessionId}
    (h : s.tasks = [t]) (hid : t.session.key = id.text) : s.Owns 0 id := by
  intro m u hu
  rw [h] at hu
  obtain ⟨hm, rfl⟩ := List.getElem?_eq_some_iff.mp hu
  have hz : m = 0 := by simpa using hm
  subst hz
  simp [hid]

/-- **What was read can be recovered.** A stream that is cancelled after its reader has got a delta
yields nothing more, and at every later moment its entry starts with all the deltas that were read,
unless the session has recorded `done` by then. In that case the entry may be gone. -/
theorem recoverable_after_cancel {good : σ → Prop} (hrel : Reliable good) {store : σ}
    (hstore : good store) {as later : List StreamAction} {a : StreamAction}
    {s s₁ s₂ : StreamSystem σ} {n : Nat} {id : SessionId} {t : StreamTask}
    (hrun : ({ store } : StreamSystem σ).run as = some s) (ht : s.tasks[n]? = some t)
    (hdelta : t.yielded.any Event.isDelta = true) (ha : a.Cancels s n)
    (hstep : s.step a = some s₁) (hlater : s₁.run later = some s₂) (howns : s₂.Owns n id) :
    ∃ t₂, s₂.tasks[n]? = some t₂ ∧ t₂.cancelled = true ∧ t₂.yielded = t.yielded ∧
      ((∃ rest, RecoveryStore.get s₂.store id.text = .ok (some (deltaText t.yielded ++ rest))) ∨
        (RecoveryStore.get s₂.store id.text = .ok none ∧ .done ∈ t₂.recorded)) := by
  obtain ⟨t₁, ht₁, hc₁, hy₁⟩ := cancelled_of_cancels ha hstep ht
  obtain ⟨t₂, ht₂, hc₂, hy₂⟩ := run_cancelled later hlater ht₁ hc₁
  have hall : ({ store } : StreamSystem σ).run (as ++ [a] ++ later) = some s₂ := by
    rw [run_append, run_concat, hrun, Option.bind_some, hstep, Option.bind_some, hlater]
  have hgood := (sound_run hrel hstore _ hall).store_good
  obtain ⟨r, l, hl, hlt, hlane⟩ := run_lane hrel hstore hall howns ht₂
  have hyielded : l.task.yielded = t.yielded := by rw [hlt, hy₂, hy₁]
  refine ⟨t₂, ht₂, hc₂, hy₂.trans hy₁, ?_⟩
  rw [hl.get_eq hrel hgood howns, ← hlt, ← hyielded]
  rcases hlane.kept.recoverable (hyielded ▸ hdelta) with ⟨rest, h⟩ | ⟨h, hdone⟩
  · exact .inl ⟨rest, by rw [h]⟩
  · exact .inr ⟨by rw [h], hdone⟩

/-- Cancelled before the task records `done`, the stream keeps the delta. -/
theorem recoverable_after_deltaRun :
    ∃ s s₁ s₂ : StreamSystem MemoryStore, ∃ t : StreamTask,
      ({ store := {} } : StreamSystem MemoryStore).run deltaRun = some s ∧
      s.tasks[0]? = some t ∧ t.yielded.any Event.isDelta = true ∧
      StreamAction.Cancels s 0 (.cancel 0) ∧ s.step (.cancel 0) = some s₁ ∧
      s₁.run [.stop 0, .finish 0] = some s₂ ∧ s₂.Owns 0 pullRequest.id ∧
      ∃ t₂, s₂.tasks[0]? = some t₂ ∧ t₂.cancelled = true ∧ t₂.yielded = t.yielded ∧
        ((∃ rest, RecoveryStore.get s₂.store pullRequest.id.text =
            .ok (some (deltaText t.yielded ++ rest))) ∨
          (RecoveryStore.get s₂.store pullRequest.id.text = .ok none ∧ .done ∈ t₂.recorded)) := by
  have hex : ∃ s s₁ s₂ : StreamSystem MemoryStore, ∃ t : StreamTask,
      ({ store := {} } : StreamSystem MemoryStore).run deltaRun = some s ∧
      s.tasks[0]? = some t ∧ t.yielded.any Event.isDelta = true ∧
      StreamAction.Cancels s 0 (.cancel 0) ∧ s.step (.cancel 0) = some s₁ ∧
      s₁.run [.stop 0, .finish 0] = some s₂ ∧ s₂.Owns 0 pullRequest.id :=
    ⟨_, _, _, _, rfl, rfl, rfl, rfl, rfl, rfl, owns_of_single rfl rfl⟩
  obtain ⟨s, s₁, s₂, t, hrun, ht, hdelta, ha, hstep, hlater, howns⟩ := hex
  exact ⟨s, s₁, s₂, t, hrun, ht, hdelta, ha, hstep, hlater, howns,
    recoverable_after_cancel reliable_memoryStore trivial hrun ht hdelta ha hstep hlater howns⟩

/-- While the reader has the delta and no terminal event, the task records `done` and the store does
its write. The reader cancels, and the store has no entry. -/
theorem not_recoverable_after_done :
    ∃ s s₁ : StreamSystem MemoryStore, ∃ t : StreamTask,
      ({ store := {} } : StreamSystem MemoryStore).run (deltaRun ++ [.record 0, .write 0]) =
        some s ∧
      s.tasks[0]? = some t ∧ t.yielded = [.delta "a"] ∧
      s.step (.cancel 0) = some s₁ ∧
      RecoveryStore.get s₁.store pullRequest.id.text = .ok none := by
  refine ⟨_, _, _, rfl, rfl, rfl, rfl, rfl⟩

end StreamSystem
end LanInference
