/-
# The text that a session finds

A session that is opened over an entry leaves the text there until its first delta is recorded or
its `done` has removed it, whatever writes the store refuses. There is one exception: a look-up that
fails is taken for the answer that there is no entry, and then the mark of a session without text
is written over the text that is there. A short failure to read loses what the store is to keep.

Key definitions: `Session.Writes`, `StreamSystem.LookUpFailed`.
Key theorems: `Lane.Run.writes`, `StreamSystem.run_texts`, `StreamSystem.text_kept`,
`StreamSystem.text_lost_of_failedRun`.
-/
import LanInference.Proofs.Recovery.Failing
import LanInference.Proofs.Stream.Recoverability
import LanInference.Proofs.Stream.Shared

namespace LanInference

/-! ### What a session writes -/

/-- What a session with these events recorded may have written: the mark, if it was told of no
entry, the text so far with each delta, and the removal with `done`. -/
inductive Session.Writes (prior : Option String) (key : String) (recorded : List Event) :
    StoreOp → Prop
  | mark (h : prior = none) : Writes prior key recorded (.put key "")
  | delta {es : List Event} {t : String} (h : es ++ [.delta t] <+: recorded) :
      Writes prior key recorded (.put key (deltaText (es ++ [.delta t])))
  | removal (h : .done ∈ recorded) : Writes prior key recorded (.remove key)

theorem Session.Writes.mono {prior : Option String} {key : String} {es es' : List Event}
    {op : StoreOp} (h : Writes prior key es op) (hle : es <+: es') : Writes prior key es' op := by
  cases h with
  | mark h => exact .mark h
  | delta h => exact .delta (h.trans hle)
  | removal h => exact .removal (hle.subset h)

theorem StreamTask.Turn.recorded_le {b : Bool} {signal : Option Signal} {t t' : StreamTask}
    {op : Option StoreOp} (h : Turn b signal t t' op) : t.recorded <+: t'.recorded := by
  cases h
  case record e _ _ _ => exact List.prefix_append _ [e]
  all_goals exact List.prefix_refl _

namespace Lane

variable {r : StreamRequest} {prior : Option String} {heard : List Signal} {l : Lane}

/-- The write of an event that is recorded. -/
theorem Kept.writes_record (hk : l.Kept prior) (e : Event) :
    ∀ w ∈ (l.task.session.record e).2,
      Session.Writes prior l.task.session.key (l.task.recorded ++ [e]) w := by
  intro w hw
  unfold Session.record at hw
  split at hw
  · cases hw
  · cases e with
    | delta t =>
      have htext : l.task.session.text ++ t = deltaText (l.task.recorded ++ [.delta t]) := by
        rw [hk.text_eq, deltaText_concat]
        rfl
      obtain rfl : StoreOp.put l.task.session.key (l.task.session.text ++ t) = w := by
        simpa [Session.save, Session.key] using hw
      rw [htext]
      exact .delta (List.prefix_refl _)
    | done =>
      obtain rfl : StoreOp.remove l.task.session.key = w := by simpa using hw
      exact .removal (by simp)
    | progress | error => cases hw

theorem Kept.writes_turn (hk : l.Kept prior) {b : Bool} {signal : Option Signal} {t : StreamTask}
    {op : Option StoreOp} (h : StreamTask.Turn b signal l.task t op) :
    ∀ w ∈ op, Session.Writes prior l.task.session.key t.recorded w := by
  cases h
  case mark hs =>
    have hstage := hk.stage_kept
    rw [hs] at hstage
    obtain ⟨hblank, hfound⟩ := hstage
    have hnone : prior = none := by simpa using hfound.symm
    have htext : l.task.session.text = "" := by rw [hk.text_eq, hblank.recorded_eq]; rfl
    intro w hw
    obtain rfl : StoreOp.put l.task.session.key "" = w := by simpa [Session.save, htext] using hw
    exact .mark hnone
  case record e _ _ _ => exact hk.writes_record e
  all_goals
    intro w hw
    cases hw

/-- **All that a session ever writes,** done or owed, is its mark, a text or the removal. -/
theorem Run.writes (h : Run r prior heard l) :
    ∀ op ∈ l.done ++ l.owed, Session.Writes prior r.id.text l.task.recorded op := by
  induction h with
  | start =>
    intro op hop
    cases hop
  | @move heard signal l l' hrun hm ih =>
    cases hm with
    | @turn _ _ t op hturn =>
      intro w hw
      have hsplit : w ∈ l.done ++ l.owed ∨ w ∈ op := by simpa [turned, or_assoc] using hw
      rcases hsplit with hold | hnew
      · exact (ih w hold).mono hturn.recorded_le
      · rw [← hrun.key_eq]
        exact hrun.kept.writes_turn hturn w hnew
    | @written _ op owed howed =>
      intro w hw
      refine ih w ?_
      simp only [wrote, List.mem_append, List.mem_cons] at hw
      simp only [howed, List.mem_append, List.mem_cons]
      rcases hw with (rfl | hw) | hw
      · exact .inr (.inl rfl)
      · exact .inl hw
      · exact .inr (.inr hw)
    | pause => exact ih

end Lane

namespace StreamSystem

variable {σ : Type} [RecoveryStore σ] {good : σ → Prop} {texts : σ → String → Option String}
  {store : σ} {s s' before : StreamSystem σ} {a : StreamAction} {as later : List StreamAction}
  {n : Nat} {r : StreamRequest}

/-! ### What becomes of an entry -/

/-- The latest write under an id that succeeds leaves its entry, and while there is none the entry
stays. -/
theorem run_texts (hk : Keeps good texts) (hs : s.Signed) (hgood : good s.store)
    (h : s.run as = some s') : good s'.store ∧
      ∃ recent, s'.applied = recent ++ s.applied ∧ ∀ id : SessionId,
        (texts s'.store id.text = texts s.store id.text ∧
            ∀ w ∈ recent, w.2.1.id = id.text → w.2.2 = false) ∨
          ∃ w ∈ recent, w.2.1.id = id.text ∧ w.2.2 = true ∧
            texts s'.store id.text = w.2.1.entryAfter := by
  induction as using List.reverseRecOn generalizing s' with
  | nil =>
    cases h
    exact ⟨hgood, [], rfl, fun _ => .inl ⟨rfl, by simp⟩⟩
  | append_singleton as a ih =>
    obtain ⟨between, hbetween, hstep⟩ := run_concat_inv h
    obtain ⟨hgood', recent, hrecent, hentry⟩ := ih hbetween
    rcases (change_of_step hstep).store_cases with ⟨hstore, happlied⟩ | ⟨w, hw, hstore, happlied⟩
    · exact ⟨hstore ▸ hgood', recent, happlied.trans hrecent, hstore ▸ hentry⟩
    · obtain ⟨t, ht, hid⟩ := (hs.run hbetween).owed_own w hw
      obtain ⟨hgood'', hafter⟩ := hk.apply hgood' t.session.id hid
      have hid' : w.2.id = t.session.id.text := hid
      refine ⟨hstore ▸ hgood'', _ :: recent, by rw [happlied, hrecent, List.cons_append],
        fun id => ?_⟩
      rw [hstore, hafter id]
      by_cases hdone : id.text = t.session.id.text ∧ (w.2.apply between.store).2.isOk = true
      · rw [if_pos hdone]
        exact .inr ⟨_, List.mem_cons_self, hid'.trans hdone.1.symm, hdone.2, rfl⟩
      · rw [if_neg hdone]
        refine (hentry id).imp (fun ⟨hsame, hnone⟩ => ⟨hsame, fun v hv hvid => ?_⟩)
          fun ⟨v, hv, hrest⟩ => ⟨v, List.mem_cons_of_mem _ hv, hrest⟩
        rcases List.mem_cons.mp hv with rfl | hv
        · have hsame : id.text = t.session.id.text := hvid.symm.trans hid'
          simpa [hsame] using hdone
        · exact hnone v hv hvid

theorem good_of_reachable (hk : Keeps good texts) (hstore : good store) (h : Reachable store s) :
    good s.store := by
  obtain ⟨as, has⟩ := h
  exact (run_texts hk ⟨by simp, by simp⟩ hstore has).1

/-- On this run the task has asked for its entry, and the store has failed to answer. -/
def LookUpFailed (s : StreamSystem σ) (as : List StreamAction) (n : Nat) (key : String) : Prop :=
  ∃ earlier rest mid e, as = earlier ++ .lookUp n :: rest ∧ s.run earlier = some mid ∧
    RecoveryStore.get mid.store key = .error e

section Streams

omit [RecoveryStore σ]

variable {prior : Option String} {t : StreamTask}

theorem Tracks.mem_done {l : Lane} (hl : s.Tracks n l) {w : Nat × StoreOp × Bool}
    (hw : w ∈ s.applied) (hwn : w.1 = n) : w.2.1 ∈ l.done := by
  rw [← hl.done_eq]
  exact List.mem_map_of_mem (List.mem_filter.mpr ⟨hw, by simpa using hwn⟩)

/-- A stream that has not looked for its entry has done no write. -/
theorem Tracked.unwritten (h : s.Tracked n r prior) (ht : s.tasks[n]? = some t)
    (hs : t.stage.early = true) : ∀ w ∈ s.applied, w.1 ≠ n := by
  obtain ⟨heard, l, hl, hrun⟩ := h
  obtain rfl : l.task = t := Option.some.inj (hl.task_eq.symm.trans ht)
  have hnone : l.done = [] := hrun.done_of_unmarked (hrun.kept.blank hs).marked_eq
  intro w hw hwn
  have hmem := hl.mem_done hw hwn
  simp [hnone] at hmem

/-- Until a stream has recorded a delta or removed its entry, it can have written its mark alone,
and that only if it was told of no entry. -/
theorem Tracked.mark_of_done (h : s.Tracked n r prior) (ht : s.tasks[n]? = some t)
    (hdelta : t.recorded.any Event.isDelta = false)
    (hdone : (n, .remove r.id.text, true) ∉ s.applied) {op : StoreOp}
    (hop : (n, op, true) ∈ s.applied) : op = .put r.id.text "" ∧ prior = none := by
  obtain ⟨heard, l, hl, hrun⟩ := h
  obtain rfl : l.task = t := Option.some.inj (hl.task_eq.symm.trans ht)
  have hmem : op ∈ l.done ++ l.owed := List.mem_append_left _ (hl.mem_done hop rfl)
  cases hrun.writes op hmem with
  | mark hnone => exact ⟨rfl, hnone⟩
  | removal => exact absurd hop hdone
  | @delta es text hle =>
    have hin : Event.delta text ∈ l.task.recorded := hle.subset (by simp)
    exact absurd rfl (List.any_eq_false.mp hdelta _ hin)

end Streams

/-- A stream that was told of no entry, where nobody else has written since it was opened over one,
has asked in vain. -/
theorem lookUpFailed_of_lookedUp (hk : Keeps good texts) (hs : before.Signed)
    (hgood : good before.store) (hrun : (before.start r).run later = some s) {old : String}
    (hold : texts before.store r.id.text = some old) {recent : List (Nat × StoreOp × Bool)}
    (happlied : s.applied = recent ++ before.applied)
    (hothers : ∀ w ∈ recent, w.2.1.id = r.id.text → w.2.2 = true → w.1 = before.tasks.length)
    (h : (before.start r).LookedUp later before.tasks.length r.id.text false) :
    (before.start r).LookUpFailed later before.tasks.length r.id.text := by
  obtain ⟨earlier, rest, mid, t, rfl, hmid, ht, hlooking, hfound⟩ := h
  have hs' : (before.start r).Signed := hs.change (.start r)
  rw [run_append, hmid, Option.bind_some] at hrun
  obtain ⟨more, hmore⟩ := applied_run hrun
  obtain ⟨hgood', recent', hrecent', hentry⟩ := run_texts hk hs' hgood hmid
  have hsplit : recent = more ++ recent' := by
    rw [hmore, hrecent', ← List.append_assoc] at happlied
    exact (List.append_cancel_right happlied).symm
  obtain ⟨prior, htracked, -⟩ := (tracked_start hs r none).run hmid
  have hunwritten := htracked.unwritten ht (congrArg Stage.early hlooking)
  have hsame : texts mid.store r.id.text = some old := by
    rcases hentry r.id with ⟨hsame, -⟩ | ⟨w, hw, hid, hok, -⟩
    · exact hsame.trans hold
    · have hwn := hothers w (hsplit ▸ List.mem_append_right more hw) hid hok
      exact absurd hwn (hunwritten w (hrecent' ▸ List.mem_append_left _ hw))
  obtain ⟨e, he⟩ := hk.get_failed hgood' hsame hfound
  exact ⟨earlier, rest, mid, e, rfl, hmid, he⟩

/-- **A session keeps the text that it finds.** Whatever the store refuses and in whatever order
things happen, until the session has recorded a delta or its removal is done, and as long as no
write of another session under the id succeeds, the entry is the one over which the session was
opened, unless the session has marked itself as one without text; and that it does only if its
look-up failed. -/
theorem text_kept (hk : Keeps good texts) (hstore : good store) (hbefore : Reachable store before)
    (hrun : (before.start r).run later = some s) {old : String}
    (hold : texts before.store r.id.text = some old) {t : StreamTask}
    (ht : s.tasks[before.tasks.length]? = some t) (hdelta : t.recorded.any Event.isDelta = false)
    (hdone : (before.tasks.length, .remove r.id.text, true) ∉ s.applied)
    {recent : List (Nat × StoreOp × Bool)} (happlied : s.applied = recent ++ before.applied)
    (hothers : ∀ w ∈ recent, w.2.1.id = r.id.text → w.2.2 = true → w.1 = before.tasks.length) :
    texts s.store r.id.text =
        some (if (before.tasks.length, .put r.id.text "", true) ∈ s.applied then "" else old) ∧
      ((before.tasks.length, .put r.id.text "", true) ∈ s.applied →
        (before.start r).LookUpFailed later before.tasks.length r.id.text) := by
  have hs := hbefore.signed
  have hgood := good_of_reachable hk hstore hbefore
  obtain ⟨prior, htracked, hprior⟩ := (tracked_start hs r (some "")).run hrun
  have hmine : ∀ w ∈ recent, w.2.1.id = r.id.text → w.2.2 = true →
      w = (before.tasks.length, .put r.id.text "", true) ∧ prior = none := by
    rintro ⟨n, op, ok⟩ hw hid hok
    obtain rfl : n = before.tasks.length := hothers _ hw hid hok
    obtain rfl : ok = true := hok
    obtain ⟨rfl, hnone⟩ := htracked.mark_of_done ht hdelta hdone
      (happlied ▸ List.mem_append_left _ hw)
    exact ⟨rfl, hnone⟩
  have hmark : (before.tasks.length, .put r.id.text "", true) ∈ s.applied →
      (before.tasks.length, .put r.id.text "", true) ∈ recent := by
    intro hmem
    rw [happlied] at hmem
    refine (List.mem_append.mp hmem).resolve_right fun hold => ?_
    obtain ⟨t, ht, -⟩ := hs.done_own _ hold
    exact absurd (List.getElem?_eq_some_iff.mp ht).1 (Nat.lt_irrefl _)
  obtain ⟨-, recent', hrecent', hentry⟩ := run_texts hk (hs.change (.start r)) hgood hrun
  obtain rfl : recent' = recent := List.append_cancel_right (hrecent'.symm.trans happlied)
  constructor
  · rcases hentry r.id with ⟨hsame, hnone⟩ | ⟨w, hw, hid, hok, hleft⟩
    · rw [if_neg fun hmem => absurd (hnone _ (hmark hmem) rfl) (by simp)]
      exact hsame.trans hold
    · obtain ⟨rfl, -⟩ := hmine w hw hid hok
      rw [if_pos (happlied ▸ List.mem_append_left _ hw)]
      exact hleft
  · intro hmem
    obtain ⟨-, hnone⟩ := hmine _ (hmark hmem) rfl rfl
    rw [hnone] at hprior
    obtain ⟨found, hlooked, htold⟩ := hprior.resolve_left (by simp)
    have hfound : found = false := by
      cases found with
      | true => cases htold
      | false => rfl
    exact lookUpFailed_of_lookedUp hk hs hgood hrun hold happlied hothers (hfound ▸ hlooked)

/-! ### Over a store with a text -/

/-- A store that has a text, and whose operations fail where `faults` says so. -/
def faultyOldStore (faults : Faults) : FaultyStore MemoryStore := ⟨oldStore, faults⟩

/-- The stream ends at once, and the removal of its entry is due. -/
def emptyRun : List StreamAction :=
  [.respond 0 (.status 200), .lookUp 0, .mark 0,
    .receive 0 (.chunk (bodyBytes [(WireFormat.ndjson.doneLine, .newline)])), .record 0, .write 0]

/-- The removal fails, and the text is still there. -/
theorem text_kept_of_emptyRun : ∃ s : StreamSystem (FaultyStore MemoryStore), ∃ t : StreamTask,
    (({ store := faultyOldStore { put := true, remove := true } } : StreamSystem _).start
      pullRequest).run emptyRun = some s ∧
    s.tasks[0]? = some t ∧ t.recorded = [.done] ∧
    s.applied = [(0, .remove pullRequest.id.text, false)] ∧
    storedText s.store.store pullRequest.id.text = some "old" := by
  have hex : ∃ s : StreamSystem (FaultyStore MemoryStore), ∃ t : StreamTask,
      (({ store := faultyOldStore { put := true, remove := true } } : StreamSystem _).start
        pullRequest).run emptyRun = some s ∧
      s.tasks[0]? = some t ∧ t.recorded = [.done] ∧
      s.applied = [(0, .remove pullRequest.id.text, false)] :=
    ⟨_, _, rfl, rfl, rfl, rfl⟩
  obtain ⟨s, t, hrun, ht, hrecorded, happlied⟩ := hex
  refine ⟨s, t, hrun, ht, hrecorded, happlied, ?_⟩
  have hdelta : t.recorded.any Event.isDelta = false := by simp [hrecorded, Event.isDelta]
  obtain ⟨hkept, -⟩ := text_kept reliable_memoryStore.keeps.faulty trivial ⟨[], rfl⟩ hrun rfl ht
    hdelta (by simp [happlied]) (happlied.trans (List.append_nil _).symm) (by simp)
  rw [hkept, if_neg (by simp [happlied])]

/-- The look-up of a session fails, and its mark is done. -/
def failedRun : List StreamAction := [.respond 0 (.status 200), .lookUp 0, .mark 0, .write 0]

/-- Nothing is recorded, and the text that was there is gone. -/
theorem text_lost_of_failedRun : ∃ s : StreamSystem (FaultyStore MemoryStore), ∃ t : StreamTask,
    (({ store := faultyOldStore { get := true } } : StreamSystem _).start pullRequest).run
      failedRun = some s ∧
    s.tasks[0]? = some t ∧ t.recorded = [] ∧ s.inFlight = [] ∧
    storedText (faultyOldStore { get := true }).store pullRequest.id.text = some "old" ∧
    storedText s.store.store pullRequest.id.text = some "" :=
  ⟨_, _, rfl, rfl, rfl, rfl, rfl, rfl⟩

end StreamSystem
end LanInference
