/-
# Sessions that share an id

Several sessions may be opened under one id, one after the other or over a running one, and then
they write to one entry. A session still goes through a run of its own lane: nothing but its look-up
depends on the store, and once it has looked, its lane is one over what it was told, an empty text
for any entry that was found. This holds over every store, whatever fails.

Key definitions: `Lane.withEntry`, `StreamSystem.Signed`, `StreamSystem.Tracked`,
`StreamSystem.LookedUp`.
Key theorems: `StreamTask.Turn.found_or_free`, `Lane.Run.withEntry`, `Lane.Run.move_told`,
`StreamSystem.lookUp_of_marking`, `StreamSystem.Tracked.step`, `StreamSystem.Tracked.run`,
`StreamSystem.Reachable.tracked`.
-/
import LanInference.Proofs.Stream.Mirror

namespace LanInference

/-! ### What depends on the store -/

/-- A turn is the answer of the look-up, or it is one whatever the store tells. -/
theorem StreamTask.Turn.found_or_free {b : Bool} {signal : Option Signal} {t t' : StreamTask}
    {op : Option StoreOp} (h : Turn b signal t t' op) :
    (t.stage = .lookingUp ∧ t'.stage = .marking b) ∨ ∀ b', Turn b' signal t t' op := by
  cases h with
  | found h => exact .inl ⟨h, rfl⟩
  | unsent reason h => exact .inr fun _ => .unsent reason h
  | refused code h hc => exact .inr fun _ => .refused code h hc
  | accepted code h hc => exact .inr fun _ => .accepted code h hc
  | mark h => exact .inr fun _ => .mark h
  | marked h => exact .inr fun _ => .marked h
  | chunk bytes h => exact .inr fun _ => .chunk bytes h
  | ends h => exact .inr fun _ => .ends h
  | breaks reason h => exact .inr fun _ => .breaks reason h
  | record h => exact .inr fun _ => .record h
  | send h hd hc => exact .inr fun _ => .send h hd hc
  | leave h hd => exact .inr fun _ => .leave h hd
  | stop hc h h' => exact .inr fun _ => .stop hc h h'
  | finish h => exact .inr fun _ => .finish h
  | take hc h => exact .inr fun _ => .take hc h
  | wait => exact .inr fun _ => .wait t
  | cancel => exact .inr fun _ => .cancel t
  | drop => exact .inr fun _ => .drop t

/-- Where a task stands that has not looked for an entry. -/
def Stage.early : Stage → Bool
  | .requesting | .lookingUp => true
  | _ => false

theorem Stage.early_giving (es : List Event) (last : Bool) : (giving es last).early = false := by
  cases es with
  | nil => cases last <;> rfl
  | cons e rest => rfl

namespace StreamTask

theorem early_of_written {t : StreamTask} (h : t.written.stage.early = true) :
    t.stage.early = true := by
  unfold written at h
  cases hs : t.stage <;> simp [hs, Stage.early] at h ⊢

/-- No turn leads back to before the look-up. -/
theorem Turn.early {b : Bool} {signal : Option Signal} {t t' : StreamTask} {op : Option StoreOp}
    (h : Turn b signal t t' op) (ht : t'.stage.early = true) : t.stage.early = true := by
  cases h with
  | accepted _ h => rw [h]; rfl
  | take | wait | cancel | drop => exact ht
  | chunk | ends => simp [Stage.early_giving] at ht
  | @record _ e rest last =>
    unfold afterRecord at ht
    dsimp only at ht
    split at ht <;> cases ht
  | @send _ e rest last =>
    unfold afterSend at ht
    dsimp only at ht
    split at ht
    · cases ht
    · simp [Stage.early_giving] at ht
  | unsent | refused | found | mark | marked | breaks | leave | stop | finish => cases ht

end StreamTask

namespace Lane

variable {r : StreamRequest} {prior : Option String} {heard : List Signal}
  {signal : Option Signal} {l l' : Lane}

/-- The lane with this entry. -/
def withEntry (l : Lane) (e : Option String) : Lane := { l with entry := e }

/-- Before the look-up nothing is recorded or written. -/
theorem Kept.blank (hk : l.Kept prior) (h : l.task.stage.early = true) : l.Blank := by
  have hstage := hk.stage_kept
  cases hs : l.task.stage with
  | requesting | lookingUp =>
    rw [hs] at hstage
    exact hstage
  | _ => simp [hs, Stage.early] at h

/-- Before the look-up a lane runs alike over any entry. -/
theorem Run.withEntry (h : Run r prior heard l) (hl : l.task.stage.early = true)
    (e : Option String) : Run r e heard (l.withEntry e) := by
  induction h with
  | start => exact .start
  | @move heard signal l l' hrun hm ih =>
    cases hm with
    | turn hturn =>
      have hearly := hturn.early hl
      rcases hturn.found_or_free with ⟨-, hfound⟩ | hfree
      · simp [turned, hfound, Stage.early] at hl
      · exact (ih hearly).move (.turn (hfree _))
    | written howed =>
      have hblank := hrun.kept.blank (StreamTask.early_of_written hl)
      simp [hblank.owed_eq] at howed
    | pause => exact (ih hl).move (.pause _)

/-- A move over an entry that need not be the lane's: the look-up starts the lane afresh over that
entry, and no other move depends on it. -/
theorem Run.move_told (h : Run r prior heard l) {e : Option String}
    (hm : Move signal (l.withEntry e) l') :
    ∃ prior' l'', Run r prior' (heard ++ signal.toList) l'' ∧ l' = l''.withEntry l'.entry ∧
      (prior' = prior ∨ (l.task.stage = .lookingUp ∧ l'.task.stage = .marking e.isSome ∧
        prior' = e)) := by
  cases hm with
  | @turn _ _ t op hturn =>
    rcases hturn.found_or_free with ⟨hlooking, hfound⟩ | hfree
    · have hearly : l.task.stage.early = true := congrArg Stage.early hlooking
      exact ⟨e, (l.withEntry e).turned t op, (h.withEntry hearly e).move (.turn hturn), rfl,
        .inr ⟨hlooking, hfound, rfl⟩⟩
    · exact ⟨prior, l.turned t op, h.move (.turn (hfree _)), rfl, .inl rfl⟩
  | @written _ op owed howed =>
    exact ⟨prior, l.wrote op owed, h.move (.written howed), rfl, .inl rfl⟩
  | pause => exact ⟨prior, l, h.move (.pause l), rfl, .inl rfl⟩

/-- A session that has written is marked. -/
theorem Run.done_of_unmarked (h : Run r prior heard l) (hm : l.marked = false) : l.done = [] := by
  induction h with
  | start => rfl
  | @move heard signal l l' hrun hmove ih =>
    cases hmove with
    | turn => exact ih (by simpa [turned] using (Bool.or_eq_false_iff.mp hm).1)
    | written => cases hm
    | pause => exact ih hm

/-- The latest write has left the entry. -/
theorem Run.entry_of_done (h : Run r prior heard l) {op : StoreOp} {ops : List StoreOp}
    (hdone : l.done = op :: ops) : l.entry = op.entryAfter := by
  induction h with
  | start => cases hdone
  | @move heard signal l l' hrun hmove ih =>
    rcases hmove.entry_cases with ⟨hsame, hentry⟩ | ⟨op', hnew, hentry⟩
    · exact hentry.trans (ih (hsame.symm.trans hdone))
    · rw [hentry, (List.cons.inj (hnew.symm.trans hdone)).1]

theorem Run.key_eq (h : Run r prior heard l) : l.task.session.key = r.id.text := by
  induction h with
  | start => rfl
  | move hrun hm ih =>
    cases hm with
    | turn hturn => exact (congrArg SessionId.text hturn.session_eq.1).trans ih
    | written | pause => exact ih

end Lane

namespace StreamSystem

variable {σ : Type} [RecoveryStore σ] {s s' : StreamSystem σ} {a : StreamAction} {n : Nat}
  {as : List StreamAction}

/-! ### Whose writes they are -/

/-- Each write, owed or done, is one of a session under its key. -/
structure Signed (s : StreamSystem σ) : Prop where
  owed_own : ∀ w ∈ s.inFlight, ∃ t, s.tasks[w.1]? = some t ∧ w.2.id = t.session.key
  done_own : ∀ w ∈ s.applied, ∃ t, s.tasks[w.1]? = some t ∧ w.2.1.id = t.session.key

theorem Signed.change (hs : s.Signed) (h : Change s a s') : s'.Signed := by
  have hold : ∀ w ∈ s.applied, ∃ t, s'.tasks[w.1]? = some t ∧ w.2.1.id = t.session.key := by
    intro w hw
    obtain ⟨t, ht, hid⟩ := hs.done_own w hw
    obtain ⟨t', ht', hk⟩ := h.key_eq ht
    exact ⟨t', ht', hid.trans hk.symm⟩
  refine ⟨h.owed_own hs.owed_own, ?_⟩
  rcases h.store_cases with ⟨-, happlied⟩ | ⟨w, hw, -, happlied⟩
  · rw [happlied]
    exact hold
  · rw [happlied]
    intro v hv
    rcases List.mem_cons.mp hv with rfl | hv
    · obtain ⟨t, ht, hid⟩ := hs.owed_own w hw
      obtain ⟨t', ht', hk⟩ := h.key_eq ht
      exact ⟨t', ht', hid.trans hk.symm⟩
    · exact hold v hv

theorem Signed.run (hs : s.Signed) (h : s.run as = some s') : s'.Signed :=
  run_keeps (fun hs hstep => Signed.change hs (change_of_step hstep)) hs h

theorem Reachable.signed {store : σ} (h : Reachable store s) : s.Signed := by
  obtain ⟨as, has⟩ := h
  exact Signed.run ⟨by simp, by simp⟩ has

/-- What is done is never undone. -/
theorem applied_run (h : s.run as = some s') : ∃ recent, s'.applied = recent ++ s.applied := by
  refine run_keeps (P := fun u => ∃ recent, u.applied = recent ++ s.applied) ?_ ⟨[], rfl⟩ h
  rintro _ _ _ ⟨recent, hrecent⟩ hstep
  rcases (change_of_step hstep).store_cases with ⟨-, happlied⟩ | ⟨w, -, -, happlied⟩
  · exact ⟨recent, happlied.trans hrecent⟩
  · exact ⟨_ :: recent, by rw [happlied, hrecent, List.cons_append]⟩

/-! ### The look-up -/

section LookUp

omit [RecoveryStore σ]

variable {b : Bool} {m : Nat} {t t' : StreamTask}

/-- A task is told of an entry by nothing but a move of its own that tells it. -/
theorem stage_of_move {f : StreamTask → Option StreamTask} (h : s.move m f = some s')
    (hf : ∀ u u', f u = some u' → u.stage = .lookingUp → u'.stage ≠ .marking b)
    (ht : s.tasks[n]? = some t) (hs : t.stage = .lookingUp) (ht' : s'.tasks[n]? = some t') :
    t'.stage ≠ .marking b := by
  obtain ⟨u, u', hu, hfu, rfl⟩ := move_inv h
  by_cases hm : m = n
  · subst hm
    have hlen := (List.getElem?_eq_some_iff.mp ht).1
    have hut : u = t := Option.some.inj (hu.symm.trans ht)
    have hut' : u' = t' := by simpa [setTask, hlen] using ht'
    exact hut' ▸ hf u u' hfu (hut ▸ hs)
  · have htt' : t = t' := by simpa [setTask, hm, ht] using ht'
    simp [← htt', hs]

theorem stage_of_moveWriting {f : StreamTask → Option (StreamTask × Option StoreOp)}
    (h : s.moveWriting m f = some s') (hf : ∀ u, u.stage = .lookingUp → f u = none)
    (ht : s.tasks[n]? = some t) (hs : t.stage = .lookingUp) (ht' : s'.tasks[n]? = some t') :
    t'.stage ≠ .marking b := by
  obtain ⟨u, u', op, hu, hfu, rfl⟩ := moveWriting_inv h
  by_cases hm : m = n
  · subst hm
    rw [hf u (Option.some.inj (hu.symm.trans ht) ▸ hs)] at hfu
    cases hfu
  · have htt' : t = t' := by simpa [turned, setTask, hm, ht] using ht'
    simp [← htt', hs]

end LookUp

/-- **Nothing but its look-up tells a task whether there is an entry.** -/
theorem lookUp_of_marking {b : Bool} {t t' : StreamTask} (h : s.step a = some s')
    (ht : s.tasks[n]? = some t) (hs : t.stage = .lookingUp) (ht' : s'.tasks[n]? = some t')
    (hs' : t'.stage = .marking b) : a = .lookUp n := by
  have hmove : ∀ {m : Nat} {f : StreamTask → Option StreamTask}, s.move m f = some s' →
      (∀ u u', f u = some u' → u.stage = .lookingUp → u'.stage ≠ .marking b) → a = .lookUp n :=
    fun h hf => absurd hs' (stage_of_move h hf ht hs ht')
  have hwriting : ∀ {m : Nat} {f : StreamTask → Option (StreamTask × Option StoreOp)},
      s.moveWriting m f = some s' → (∀ u, u.stage = .lookingUp → f u = none) → a = .lookUp n :=
    fun h hf => absurd hs' (stage_of_moveWriting h hf ht hs ht')
  have hcancel : ∀ {m : Nat}, s.move m (fun t => some t.cancel) = some s' → a = .lookUp n :=
    fun h => hmove h fun u u' hu hl => by
      cases hu
      simp [StreamTask.cancel, hl]
  cases a with
  | lookUp m =>
    by_cases hm : m = n
    · rw [hm]
    · obtain ⟨u, u', hu, -, rfl⟩ := move_inv h
      have htt' : t = t' := by simpa [setTask, hm, ht] using ht'
      simp [← htt', hs] at hs'
  | start r =>
    cases h
    rcases tasks_start r ht with h | h
    · simp [← Option.some.inj (h.symm.trans ht'), hs] at hs'
    · simp [← Option.some.inj (h.symm.trans ht'), hs, StreamTask.cancel] at hs'
  | write m =>
    simp only [step, write, Option.map_eq_some_iff] at h
    obtain ⟨w, -, rfl⟩ := h
    by_cases hm : m = n
    · have htt' : t.written = t' := by simpa [hm, ht] using ht'
      simp [← htt', StreamTask.written, hs] at hs'
    · have htt' : t = t' := by simpa [hm, ht] using ht'
      simp [← htt', hs] at hs'
  | respond m reply => exact hmove h fun u u' hu hl => by simp [StreamTask.respond, hl] at hu
  | receive m b => exact hmove h fun u u' hu hl => by simp [StreamTask.receive, hl] at hu
  | send m => exact hmove h fun u u' hu hl => by simp [StreamTask.send, hl] at hu
  | mark m => exact hwriting h fun u hl => by simp [StreamTask.mark, hl]
  | record m => exact hwriting h fun u hl => by simp [StreamTask.record, hl]
  | stop m =>
    refine hmove h fun u u' hu hl => ?_
    simp only [StreamTask.stop, Option.ite_none_right_eq_some] at hu
    simp [← Option.some.inj hu.2]
  | finish m =>
    obtain ⟨u, u', hu, hfinish, rfl⟩ := finish_inv h
    by_cases hm : m = n
    · subst hm
      have hul : u.stage = .lookingUp := Option.some.inj (hu.symm.trans ht) ▸ hs
      simp [StreamTask.finish, hul] at hfinish
    · have htt' : t = t' := by simpa [turned, setTask, hm, ht] using ht'
      simp [← htt', hs] at hs'
  | read m =>
    refine hmove h fun u u' hu hl => ?_
    cases hu
    unfold StreamTask.read
    cases u.poll <;> simp [hl]
  | cancel m => exact hcancel h
  | drop m =>
    refine hmove h fun u u' hu hl => ?_
    cases hu
    simp [StreamTask.drop, hl]
  | cancelId id =>
    simp only [step] at h
    split at h
    · exact hcancel h
    · cases h
      simp [← Option.some.inj (ht.symm.trans ht'), hs] at hs'

/-- On this run the task has looked for its entry, and this is what it was told. -/
def LookedUp (s : StreamSystem σ) (as : List StreamAction) (n : Nat) (key : String)
    (found : Bool) : Prop :=
  ∃ earlier rest mid t, as = earlier ++ .lookUp n :: rest ∧ s.run earlier = some mid ∧
    mid.tasks[n]? = some t ∧ t.stage = .lookingUp ∧ hasEntry mid.store key = found

/-! ### Runs among others -/

/-- A stream has come to where it stands by a run of its lane over this entry. -/
def Tracked (s : StreamSystem σ) (n : Nat) (r : StreamRequest) (prior : Option String) : Prop :=
  ∃ heard l, s.Tracks n l ∧ Lane.Run r prior heard l

/-- The entry over which a lane goes on once it has looked. -/
def toldEntry (found : Bool) : Option String := if found then some "" else none

variable {r : StreamRequest} {prior : Option String}

omit [RecoveryStore σ] in
theorem tracked_start (hs : s.Signed) (r : StreamRequest) (prior : Option String) :
    (s.start r).Tracked s.tasks.length r prior := by
  have hdone : ∀ w ∈ s.applied, w.1 < s.tasks.length := by
    intro w hw
    obtain ⟨t, ht, -⟩ := hs.done_own w hw
    exact (List.getElem?_eq_some_iff.mp ht).1
  exact ⟨[], .start r prior, tracks_start (lt_of_own hs.owed_own) hdone r prior, .start⟩

/-- **Every action keeps a stream on a run of its lane.** It is over another entry only once the
stream has looked for one. -/
theorem Tracked.step (h : s.Tracked n r prior) (hstep : s.step a = some s') :
    ∃ prior', s'.Tracked n r prior' ∧ (prior' = prior ∨
      (∃ t, a = .lookUp n ∧ s.tasks[n]? = some t ∧ t.stage = .lookingUp) ∧
        prior' = toldEntry (hasEntry s.store r.id.text)) := by
  obtain ⟨heard, l, hl, hrun⟩ := h
  have hkey := hrun.key_eq
  have hover : s.Tracks n (l.withEntry (toldEntry (hasEntry s.store r.id.text))) :=
    ⟨hl.task_eq, hl.owed_eq, hl.done_eq⟩
  have hentry : hasEntry s.store l.task.session.key =
      (toldEntry (hasEntry s.store r.id.text)).isSome := by
    rw [hkey]
    cases hasEntry s.store r.id.text <;> rfl
  obtain ⟨l', hl', hm⟩ := hover.change hentry (change_of_step hstep)
  obtain ⟨prior', l'', hrun', hsame, htold⟩ := hrun.move_told hm
  rw [hsame] at hl'
  refine ⟨prior', ⟨_, l'', ⟨hl'.task_eq, hl'.owed_eq, hl'.done_eq⟩, hrun'⟩, ?_⟩
  refine htold.imp_right fun ⟨hlooking, hfound, hprior⟩ =>
    ⟨⟨l.task, ?_, hl.task_eq, hlooking⟩, hprior⟩
  rw [hsame] at hfound
  exact lookUp_of_marking hstep hl.task_eq hlooking hl'.task_eq hfound

/-- **So does every run.** -/
theorem Tracked.run (h : s.Tracked n r prior) (hrun : s.run as = some s') :
    ∃ prior', s'.Tracked n r prior' ∧ (prior' = prior ∨
      ∃ found, s.LookedUp as n r.id.text found ∧ prior' = toldEntry found) := by
  induction as using List.reverseRecOn generalizing s' with
  | nil =>
    cases hrun
    exact ⟨prior, h, .inl rfl⟩
  | append_singleton as a ih =>
    obtain ⟨between, hbetween, hstep⟩ := run_concat_inv hrun
    obtain ⟨prior₁, h₁, hprior₁⟩ := ih hbetween
    obtain ⟨prior₂, h₂, rfl | ⟨⟨t, rfl, ht, hs⟩, hprior₂⟩⟩ := h₁.step hstep
    · refine ⟨_, h₂, hprior₁.imp_right fun ⟨found, ⟨earlier, rest, mid, t, heq, hlooked⟩, hp⟩ => ?_⟩
      exact ⟨found, ⟨earlier, rest ++ [a], mid, t, by simp [heq], hlooked⟩, hp⟩
    · exact ⟨prior₂, h₂, .inr ⟨_, ⟨as, [], between, t, rfl, hbetween, ht, hs, rfl⟩, hprior₂⟩⟩

/-- Each stream of a run is on a run of its lane, over no entry or an empty one. -/
theorem Reachable.tracked {store : σ} (h : Reachable store s) {t : StreamTask}
    (ht : s.tasks[n]? = some t) : ∃ r prior, s.Tracked n r prior ∧ prior.getD "" = "" := by
  obtain ⟨as, has⟩ := h
  induction as using List.reverseRecOn generalizing s t with
  | nil =>
    cases has
    cases ht
  | append_singleton as a ih =>
    obtain ⟨before, hbefore, hstep⟩ := run_concat_inv has
    by_cases hn : n < before.tasks.length
    · obtain ⟨r, prior, htracked, hprior⟩ := ih (List.getElem?_eq_getElem hn) hbefore
      obtain ⟨prior', htracked', rfl | ⟨-, rfl⟩⟩ := htracked.step hstep
      · exact ⟨r, _, htracked', hprior⟩
      · refine ⟨r, _, htracked', ?_⟩
        cases hasEntry before.store r.id.text <;> rfl
    · -- Only the opening of this stream adds its task.
      have hlen := (List.getElem?_eq_some_iff.mp ht).1
      by_cases hstart : ∃ r, a = .start r
      · obtain ⟨r, rfl⟩ := hstart
        cases hstep
        have hnew := (tasks_start_new before r).2
        obtain rfl : n = before.tasks.length := by omega
        exact ⟨r, none, tracked_start (Reachable.signed ⟨as, hbefore⟩) r none, rfl⟩
      · have hsame := (change_of_step hstep).length_eq (not_exists.mp hstart)
        omega

end StreamSystem
end LanInference
