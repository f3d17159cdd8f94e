/-
# The store mirrors what is recorded

At every moment the entry of a stream is what the events recorded so far leave, except that the
write of the latest one may still be owed; and what the reader has got, or can still get from the
channel, are events whose writes are done. This holds along every run of a lane, whether it is
cancelled or not.

Key definitions: `mirrored`, `Lane.base`, `Lane.persisted`, `Lane.StageKept`, `Lane.Kept`.
Key theorems: `Session.record_kept`, `Lane.Kept.turn`, `Lane.Kept.wrote`, `Lane.Run.kept`.
-/
import LanInference.Proofs.Events
import LanInference.Proofs.Stream.Lane

namespace LanInference

/-- The entry that events leave over one that was there: none after `done`, otherwise the text of
the deltas, and what was there as long as there is no delta. -/
def mirrored (base : Option String) (es : List Event) : Option String :=
  if .done ∈ es then none
  else if es.any Event.isDelta then some (deltaText es)
  else base

theorem mirrored_nil (base : Option String) : mirrored base [] = base := rfl

/-- An event whose write is none leaves the entry as it is. -/
theorem mirrored_concat_of_quiet (base : Option String) (es : List Event) {e : Event}
    (hd : e ≠ .done) (ht : e.isDelta = false) : mirrored base (es ++ [e]) = mirrored base es := by
  have htext : e.text = "" := by
    cases e with
    | delta t => cases ht
    | _ => rfl
  have hmem : Event.done ∈ es ++ [e] ↔ Event.done ∈ es := by
    simp [Ne.symm hd]
  simp [mirrored, hmem, ht, deltaText_concat, htext]

/-- The writes of an event leave the entry that mirrors it. -/
theorem Session.record_kept {s : Session} {es : List Event} (e : Event) (base : Option String)
    (ht : s.terminal = false) (htext : s.text = deltaText es)
    (hes : es.any Event.isTerminal = false) :
    (s.record e).1.text = deltaText (es ++ [e]) ∧ (s.record e).1.terminal = e.isTerminal ∧
      match (s.record e).2 with
      | some op => op.entryAfter = mirrored base (es ++ [e]) ∧ ∀ err, e ≠ .error err
      | none => e ≠ .done ∧ e.isDelta = false := by
  have hdone : Event.done ∉ es := fun h => by
    have := List.any_eq_false.mp hes _ h
    exact this rfl
  cases e with
  | delta t =>
    simp [record, ht, htext, deltaText_concat, Event.text, save, StoreOp.entryAfter, mirrored,
      hdone, Event.isDelta, Event.isTerminal]
  | progress p =>
    simp [record, ht, htext, deltaText_concat, Event.text, Event.isDelta, Event.isTerminal]
  | done =>
    simp [record, ht, htext, deltaText_concat, Event.text, StoreOp.entryAfter, mirrored,
      Event.isTerminal]
  | error err =>
    simp [record, ht, htext, deltaText_concat, Event.text, Event.isDelta, Event.isTerminal]

namespace Lane

/-- The entry before the first delta: what was there, or the mark of a session without text. -/
def base (prior : Option String) (l : Lane) : Option String :=
  if l.marked then some (prior.getD "") else prior

/-- The events whose writes are done. -/
def persisted (l : Lane) : List Event :=
  if l.owed = [] then l.task.recorded else l.task.recorded.dropLast

/-- The events that have left the task: those that were read, then those in the channel. -/
def handed (l : Lane) : List Event := l.task.yielded ++ l.task.channel

/-- These events have left the task, as long as its reader has not gone with some of them. -/
def Sent (l : Lane) (es : List Event) : Prop :=
  l.handed <+: es ∧ (l.task.dropped = false → l.handed = es)

/-- Nothing is recorded, and no write is owed or done. -/
structure Blank (l : Lane) : Prop where
  recorded_eq : l.task.recorded = []
  owed_eq : l.owed = []
  marked_eq : l.marked = false
  sent : l.Sent []

/-- No event is terminal yet, and all there are have been written and sent. -/
structure Live (l : Lane) : Prop where
  owed_eq : l.owed = []
  not_terminal : l.task.recorded.any Event.isTerminal = false
  sent : l.Sent l.task.recorded

/-- The latest event is recorded and not sent; those before it are, and none of them is terminal. -/
structure Latest (l : Lane) (e : Event) (init : List Event) : Prop where
  recorded_eq : l.task.recorded = init ++ [e]
  not_terminal : init.any Event.isTerminal = false
  sent : l.Sent init

/-- What holds where a task stands. -/
def StageKept (prior : Option String) (l : Lane) : Stage → Prop
  | .requesting | .lookingUp => l.Blank
  | .marking found => l.Blank ∧ found = prior.isSome
  | .opening => l.task.recorded = [] ∧ l.marked = false ∧ prior = none ∧ l.owed.length = 1 ∧
      l.Sent []
  | .reading => l.Live ∧ l.marked = true
  | .recording e _ _ => l.Live ∧ (l.marked = true ∨ ∃ err, e = .error err)
  | .writing e _ _ => l.owed.length = 1 ∧ l.marked = true ∧ ∃ init, l.Latest e init
  | .sending e _ _ => l.owed = [] ∧ (l.marked = true ∨ ∃ err, e = .error err) ∧
      ∃ init, l.Latest e init
  | .closing | .finished => l.owed.length ≤ 1

/-- What holds of a lane that began over an entry. -/
structure Kept (prior : Option String) (l : Lane) : Prop where
  text_eq : l.task.session.text = deltaText l.task.recorded
  terminal_eq : l.task.session.terminal = l.task.recorded.any Event.isTerminal
  owed_eq : ∀ op ∈ l.owed, op.entryAfter = mirrored (some (prior.getD "")) l.task.recorded
  entry_eq : l.entry = mirrored (l.base prior) l.persisted
  handed_le : l.handed <+: l.persisted
  stage_kept : l.StageKept prior l.task.stage

variable {prior : Option String} {l l' : Lane}

theorem kept_start (r : StreamRequest) (prior : Option String) : (start r prior).Kept prior where
  text_eq := rfl
  terminal_eq := rfl
  owed_eq op h := by cases h
  entry_eq := rfl
  handed_le := List.prefix_refl []
  stage_kept := ⟨rfl, rfl, rfl, List.prefix_refl [], fun _ => rfl⟩

/-! ### Turns that record nothing -/

/-- A lane that differs in what none of this is about. -/
structure Same (l l' : Lane) : Prop where
  recorded_eq : l'.task.recorded = l.task.recorded
  text_eq : l'.task.session.text = l.task.session.text
  terminal_eq : l'.task.session.terminal = l.task.session.terminal
  owed_eq : l'.owed = l.owed
  entry_eq : l'.entry = l.entry
  handed_le : l'.handed <+: l.handed
  handed_eq : l'.task.dropped = false → l.task.dropped = false ∧ l'.handed = l.handed

theorem Sent.same {es : List Event} (h : l.Sent es) (hs : Same l l') : l'.Sent es := by
  refine ⟨hs.handed_le.trans h.1, fun hd => ?_⟩
  obtain ⟨hd', he⟩ := hs.handed_eq hd
  rw [he, h.2 hd']

theorem Blank.same (h : l.Blank) (hs : Same l l') (hm : l'.marked = l.marked) : l'.Blank :=
  ⟨hs.recorded_eq.trans h.recorded_eq, hs.owed_eq.trans h.owed_eq, hm.trans h.marked_eq,
    h.sent.same hs⟩

theorem Live.same (h : l.Live) (hs : Same l l') : l'.Live := by
  refine ⟨hs.owed_eq.trans h.owed_eq, ?_, ?_⟩
  · rw [hs.recorded_eq]
    exact h.not_terminal
  · rw [hs.recorded_eq]
    exact h.sent.same hs

theorem Latest.same {e : Event} {init : List Event} (h : l.Latest e init) (hs : Same l l') :
    l'.Latest e init := ⟨hs.recorded_eq.trans h.recorded_eq, h.not_terminal, h.sent.same hs⟩

theorem Blank.live (h : l.Blank) : l.Live :=
  ⟨h.owed_eq, by simp [h.recorded_eq], h.recorded_eq ▸ h.sent⟩

theorem StageKept.same {s : Stage} (h : l.StageKept prior s) (hs : Same l l')
    (hm : l'.marked = l.marked) : l'.StageKept prior s := by
  cases s with
  | requesting | lookingUp => exact Blank.same h hs hm
  | marking found => exact ⟨h.1.same hs hm, h.2⟩
  | opening =>
    obtain ⟨hr, hm', hp, ho, hsent⟩ := h
    exact ⟨hs.recorded_eq.trans hr, hm.trans hm', hp, hs.owed_eq ▸ ho, hsent.same hs⟩
  | reading => exact ⟨h.1.same hs, hm.trans h.2⟩
  | recording => exact ⟨h.1.same hs, hm ▸ h.2⟩
  | writing e =>
    obtain ⟨ho, hm', init, hl⟩ := h
    exact ⟨hs.owed_eq ▸ ho, hm.trans hm', init, hl.same hs⟩
  | sending e =>
    obtain ⟨ho, hm', init, hl⟩ := h
    exact ⟨hs.owed_eq.trans ho, hm ▸ hm', init, hl.same hs⟩
  | closing | finished =>
    rw [StageKept, hs.owed_eq]
    exact h

theorem Kept.same (hk : l.Kept prior) (hs : Same l l') (hb : l'.base prior = l.base prior)
    (hstage : l'.StageKept prior l'.task.stage) : l'.Kept prior := by
  have hp : l'.persisted = l.persisted := by rw [persisted, persisted, hs.owed_eq, hs.recorded_eq]
  refine ⟨?_, ?_, ?_, ?_, ?_, hstage⟩
  · rw [hs.text_eq, hs.recorded_eq, hk.text_eq]
  · rw [hs.terminal_eq, hs.recorded_eq, hk.terminal_eq]
  · rw [hs.owed_eq, hs.recorded_eq]
    exact hk.owed_eq
  · calc l'.entry = l.entry := hs.entry_eq
      _ = mirrored (l.base prior) l.persisted := hk.entry_eq
      _ = mirrored (l'.base prior) l'.persisted := by rw [hb, hp]
  · rw [hp]
    exact hs.handed_le.trans hk.handed_le

/-- A turn that records nothing and hands nothing over. -/
theorem same_turned {t : StreamTask} (hr : t.recorded = l.task.recorded)
    (hs : t.session = l.task.session) (hd : t.dropped = l.task.dropped)
    (hh : t.yielded ++ t.channel = l.task.yielded ++ l.task.channel) :
    Same l (l.turned t none) where
  recorded_eq := hr
  text_eq := congrArg Session.text hs
  terminal_eq := congrArg Session.terminal hs
  owed_eq := List.append_nil _
  entry_eq := rfl
  handed_le := by rw [handed, handed]; exact hh ▸ List.prefix_refl _
  handed_eq h := ⟨hd ▸ h, hh⟩

theorem same_drop (l : Lane) : Same l (l.turned l.task.drop none) where
  recorded_eq := rfl
  text_eq := rfl
  terminal_eq := rfl
  owed_eq := List.append_nil _
  entry_eq := rfl
  handed_le := by simp [handed, turned, StreamTask.drop]
  handed_eq h := by cases h

theorem base_turned {t : StreamTask} {op : Option StoreOp}
    (h : t.stage = .reading → l.marked = true ∨ prior.isSome = true) :
    (l.turned t op).base prior = l.base prior := by
  unfold base turned
  by_cases hs : t.stage = .reading
  · rcases h hs with hm | hp
    · simp [hm]
    · obtain ⟨text, rfl⟩ := Option.isSome_iff_exists.mp hp
      cases l.marked <;> simp
  · simp [hs]

theorem marked_turned {t : StreamTask} {op : Option StoreOp}
    (hm : t.stage = .reading → l.marked = true) : (l.turned t op).marked = l.marked := by
  by_cases h : t.stage = .reading
  · simp [turned, hm h]
  · simp [turned, h]

/-- A turn to a stage whose conditions hold already. -/
theorem Kept.restage (hk : l.Kept prior) {t : StreamTask} (hs : Same l (l.turned t none))
    (hm : t.stage = .reading → l.marked = true) (hstage : l.StageKept prior t.stage) :
    (l.turned t none).Kept prior :=
  hk.same hs (base_turned fun h => .inl (hm h)) (hstage.same hs (marked_turned hm))

theorem StageKept.giving (h : l.Live) (hm : l.marked = true) (es : List Event) (last : Bool) :
    l.StageKept prior (.giving es last) := by
  cases es with
  | nil =>
    cases last with
    | true => exact Nat.le_succ_of_le (by simp [h.owed_eq])
    | false => exact ⟨h, hm⟩
  | cons e rest => exact ⟨h, .inl hm⟩

theorem StageKept.owed_length_le {s : Stage} (h : l.StageKept prior s) : l.owed.length ≤ 1 := by
  cases s with
  | requesting | lookingUp => simp [h.owed_eq]
  | marking found => simp [h.1.owed_eq]
  | opening => exact Nat.le_of_eq h.2.2.2.1
  | reading | recording => simp [h.1.owed_eq]
  | writing => exact Nat.le_of_eq h.1
  | sending => simp [h.1]
  | closing | finished => exact h

/-- Where a write can be owed. -/
theorem StageKept.owing {s : Stage} (h : l.StageKept prior s) (ho : l.owed ≠ []) :
    s = .opening ∨ (∃ e rest last, s = .writing e rest last) ∨ s = .closing ∨ s = .finished := by
  cases s with
  | requesting | lookingUp => exact absurd h.owed_eq ho
  | marking found => exact absurd h.1.owed_eq ho
  | opening => exact .inl rfl
  | reading | recording => exact absurd h.1.owed_eq ho
  | writing e rest last => exact .inr (.inl ⟨e, rest, last, rfl⟩)
  | sending => exact absurd h.1 ho
  | closing => exact .inr (.inr (.inl rfl))
  | finished => exact .inr (.inr (.inr rfl))

/-! ### Every move -/

theorem owed_turned_none (h : l.owed = []) (t : StreamTask) : (l.turned t none).owed = [] := by
  rw [turned, h]
  rfl

/-- Only an error can come before the session is marked. -/
theorem marked_of_not_terminal {e : Event} (h : l.marked = true ∨ ∃ err, e = .error err)
    (he : e.isTerminal = false) : l.marked = true := by
  apply h.resolve_right
  rintro ⟨err, rfl⟩
  cases he

/-- A live task that records an event has it as the latest. -/
theorem Live.latest (h : l.Live) {e : Event} (hr : l'.task.recorded = l.task.recorded ++ [e])
    (hh : l'.handed = l.handed) (hd : l'.task.dropped = l.task.dropped) :
    l'.Latest e l.task.recorded := by
  refine ⟨hr, h.not_terminal, ?_⟩
  rw [Sent, hh, hd]
  exact h.sent

/-- Once the latest event is handed over, all that is recorded has been. -/
theorem Latest.handed_eq {e : Event} {init : List Event} (h : l.Latest e init)
    (hd : l.task.dropped = false) (hh : l'.handed = l.handed ++ [e]) :
    l'.handed = l.task.recorded := by
  calc l'.handed = l.handed ++ [e] := hh
    _ = init ++ [e] := by rw [h.sent.2 hd]
    _ = l.task.recorded := h.recorded_eq.symm

/-- The mark of a session without text is handed to the store. -/
theorem Kept.mark (hk : l.Kept prior) (h : l.task.stage = .marking false) :
    (l.turned { l.task with stage := .opening } (some l.task.session.save)).Kept prior := by
  have hstage := hk.stage_kept
  rw [h] at hstage
  obtain ⟨hb, hp⟩ := hstage
  have hprior : prior = none := by simpa using hp.symm
  have htext : l.task.session.text = "" := by rw [hk.text_eq, hb.recorded_eq]; rfl
  have howed : (l.turned { l.task with stage := .opening } (some l.task.session.save)).owed =
      [l.task.session.save] := by simp [turned, hb.owed_eq]
  have hbase : (l.turned { l.task with stage := .opening }
      (some l.task.session.save)).base prior = l.base prior := base_turned (by simp)
  have hmarked : (l.turned { l.task with stage := .opening }
      (some l.task.session.save)).marked = false := by simp [turned, hb.marked_eq]
  have hpersisted : (l.turned { l.task with stage := .opening }
      (some l.task.session.save)).persisted = l.persisted := by
    simp [persisted, hb.owed_eq, turned, hb.recorded_eq]
  refine ⟨hk.text_eq, hk.terminal_eq, fun op ho => ?_, ?_, ?_, ?_⟩
  · rw [howed, List.mem_singleton] at ho
    simp [ho, Session.save, StoreOp.entryAfter, htext, turned, hb.recorded_eq, hprior, mirrored_nil]
  · rw [hpersisted, hbase]
    exact hk.entry_eq
  · rw [hpersisted]
    exact hk.handed_le
  · exact ⟨hb.recorded_eq, hmarked, hprior, congrArg List.length howed, hb.sent⟩

/-- An event is recorded, and its write, if it has one, is handed to the store. -/
theorem Kept.record (hk : l.Kept prior) {e : Event} {rest : List Event} {last : Bool}
    (h : l.task.stage = .recording e rest last) :
    (l.turned (l.task.afterRecord e rest last) (l.task.session.record e).2).Kept prior := by
  unfold StreamTask.afterRecord
  have hstage := hk.stage_kept
  rw [h] at hstage
  obtain ⟨hl, hm⟩ := hstage
  have hopen : l.task.session.terminal = false := hk.terminal_eq.trans hl.not_terminal
  obtain ⟨htext, hterminal, hop⟩ :=
    Session.record_kept e (some (prior.getD "")) hopen hk.text_eq hl.not_terminal
  have hany : (l.task.recorded ++ [e]).any Event.isTerminal = e.isTerminal := by
    simp [hl.not_terminal]
  have hentry := hk.entry_eq
  have hhanded := hk.handed_le
  rw [persisted, if_pos hl.owed_eq] at hentry hhanded
  cases hrec : (l.task.session.record e).2 with
  | some op =>
    rw [hrec] at hop
    obtain ⟨hafter, herr⟩ := hop
    have hmarked : l.marked = true := by
      apply hm.resolve_right
      rintro ⟨err, he⟩
      exact herr err he
    refine ⟨htext, hterminal.trans hany.symm, fun o ho => ?_, ?_, ?_, ?_⟩
    · have hoo : o = op := by simpa [turned, hl.owed_eq] using ho
      rw [hoo]
      exact hafter
    · simpa [persisted, turned, hl.owed_eq, base, hmarked] using hentry
    · simpa [persisted, turned, hl.owed_eq, handed] using hhanded
    · exact ⟨by simp [turned, hl.owed_eq], by simp [turned, hmarked], l.task.recorded,
        hl.latest rfl rfl rfl⟩
  | none =>
    rw [hrec] at hop
    obtain ⟨hdone, hdelta⟩ := hop
    have howed := owed_turned_none hl.owed_eq
    have hbase : ∀ {t : StreamTask}, t.stage = .sending e rest last →
        (l.turned t none).base prior = l.base prior := fun ht =>
      base_turned fun hr => by
        rw [ht] at hr
        cases hr
    refine ⟨htext, hterminal.trans hany.symm, fun o ho => ?_, ?_, ?_, ?_⟩
    · rw [howed] at ho
      cases ho
    · rw [hbase rfl, persisted, if_pos (howed _)]
      calc l.entry = mirrored (l.base prior) l.task.recorded := hentry
        _ = mirrored (l.base prior) (l.task.recorded ++ [e]) :=
          (mirrored_concat_of_quiet _ _ hdone hdelta).symm
    · rw [persisted, if_pos (howed _)]
      exact hhanded.trans (List.prefix_append _ _)
    · exact ⟨howed _, by simpa [turned] using hm, l.task.recorded, hl.latest rfl rfl rfl⟩

/-- An event is handed to the reader. -/
theorem Kept.send (hk : l.Kept prior) {e : Event} {rest : List Event} {last : Bool}
    (h : l.task.stage = .sending e rest last) (hd : l.task.dropped = false) :
    (l.turned (l.task.afterSend e rest last) none).Kept prior := by
  unfold StreamTask.afterSend
  have hstage := hk.stage_kept
  rw [h] at hstage
  obtain ⟨ho, hm, init, hl⟩ := hstage
  have howed := owed_turned_none ho
  have hentry := hk.entry_eq
  rw [persisted, if_pos ho] at hentry
  have hmarked := marked_of_not_terminal hm
  have hsent : ∀ {l' : Lane}, l'.handed = l.handed ++ [e] → l'.Sent l.task.recorded := fun hh => by
    rw [Sent, hl.handed_eq hd hh]
    exact ⟨List.prefix_refl _, fun _ => rfl⟩
  refine ⟨hk.text_eq, hk.terminal_eq, fun o hmem => ?_, ?_, ?_, ?_⟩
  · rw [howed] at hmem
    cases hmem
  · rw [persisted, if_pos (howed _), base_turned]
    · exact hentry
    · intro hr
      cases he : e.isTerminal with
      | true => simp [he] at hr
      | false => exact .inl (hmarked he)
  · rw [persisted, if_pos (howed _)]
    exact (hsent (List.append_assoc _ _ _).symm).1
  · cases he : e.isTerminal with
    | true =>
      simp only [turned, if_true]
      exact Nat.le_succ_of_le (Nat.le_of_eq (congrArg List.length (howed _)))
    | false =>
      have hopen : l.task.recorded.any Event.isTerminal = false := by
        simp [hl.recorded_eq, hl.not_terminal, he]
      have hlive : (l.turned { l.task with
          channel := l.task.channel ++ [e]
          stage := .giving rest last } none).Live :=
        ⟨howed _, hopen, hsent (List.append_assoc _ _ _).symm⟩
      exact StageKept.giving hlive (by simp [turned, hmarked he]) rest last

theorem Kept.turn (hk : l.Kept prior) {signal : Option Signal} {t : StreamTask}
    {op : Option StoreOp} (h : StreamTask.Turn l.entry.isSome signal l.task t op) :
    (l.turned t op).Kept prior := by
  have hstage := hk.stage_kept
  have hread : l.task.stage = .reading → l.marked = true := fun h => by
    rw [h] at hstage
    exact hstage.2
  cases h with
  | unsent reason h =>
    rw [h] at hstage
    exact hk.restage (same_turned rfl rfl rfl rfl) (by simp) ⟨Blank.live hstage, .inr ⟨_, rfl⟩⟩
  | refused code h _ =>
    rw [h] at hstage
    exact hk.restage (same_turned rfl rfl rfl rfl) (by simp) ⟨Blank.live hstage, .inr ⟨_, rfl⟩⟩
  | accepted code h _ =>
    rw [h] at hstage
    exact hk.restage (same_turned rfl rfl rfl rfl) (by simp) hstage
  | found h =>
    rw [h] at hstage
    have hentry := hk.entry_eq
    rw [base, hstage.marked_eq, persisted, hstage.recorded_eq, if_pos hstage.owed_eq] at hentry
    have hprior : l.entry = prior := hentry
    exact hk.restage (same_turned rfl rfl rfl rfl) (by simp) ⟨hstage, congrArg Option.isSome hprior⟩
  | mark h => exact hk.mark h
  | marked h =>
    rw [h] at hstage
    obtain ⟨hb, hp⟩ := hstage
    have hsame : Same l (l.turned { l.task with stage := .reading } none) :=
      same_turned rfl rfl rfl rfl
    exact hk.same hsame (base_turned fun _ => .inr hp.symm)
      ⟨hb.live.same hsame, by simp [turned]⟩
  | chunk bytes h =>
    rw [h] at hstage
    exact hk.restage (same_turned rfl rfl rfl rfl) (fun _ => hread h)
      (.giving hstage.1 hstage.2 _ _)
  | ends h =>
    rw [h] at hstage
    exact hk.restage (same_turned rfl rfl rfl rfl) (fun _ => hread h)
      (.giving hstage.1 hstage.2 _ _)
  | breaks reason h =>
    rw [h] at hstage
    exact hk.restage (same_turned rfl rfl rfl rfl) (by simp) ⟨hstage.1, .inl hstage.2⟩
  | record h => exact hk.record h
  | send h hd => exact hk.send h hd
  | leave h | stop _ h | finish h =>
    exact hk.restage (same_turned rfl rfl rfl rfl) (by simp) hstage.owed_length_le
  | take _ h => exact hk.restage (same_turned rfl rfl rfl (by simp [h])) hread hstage
  | wait => exact hk.restage (same_turned rfl rfl rfl rfl) hread hstage
  | cancel => exact hk.restage (same_turned rfl rfl rfl rfl) hread hstage
  | drop => exact hk.restage (same_drop l) hread hstage

/-- A write that was owed is done. -/
theorem Kept.wrote (hk : l.Kept prior) {op : StoreOp} {owed : List StoreOp}
    (h : l.owed = op :: owed) : (l.wrote op owed).Kept prior := by
  have hnil : owed = [] := by
    have hle := hk.stage_kept.owed_length_le
    rw [h, List.length_cons] at hle
    exact List.eq_nil_of_length_eq_zero (by omega)
  subst hnil
  have hafter : op.entryAfter = mirrored (some (prior.getD "")) l.task.recorded :=
    hk.owed_eq op (by simp [h])
  refine ⟨hk.text_eq, hk.terminal_eq, by simp [Lane.wrote], hafter, ?_, ?_⟩
  · have hle : l.persisted <+: l.task.recorded := by
      rw [persisted]
      split
      · exact List.prefix_refl _
      · exact List.dropLast_prefix _
    exact hk.handed_le.trans hle
  · have hstage := hk.stage_kept
    simp only [Lane.wrote, StreamTask.written]
    rcases hstage.owing (by simp [h]) with hs | ⟨e, rest, last, hs⟩ | hs | hs
    · rw [hs] at hstage ⊢
      obtain ⟨hr, _, _, _, hsent⟩ := hstage
      exact ⟨⟨rfl, by simp [hr], by rw [hr]; exact hsent⟩, rfl⟩
    · rw [hs] at hstage ⊢
      obtain ⟨_, _, init, hl⟩ := hstage
      exact ⟨rfl, .inl rfl, init, hl.recorded_eq, hl.not_terminal, hl.sent⟩
    · rw [hs]
      exact Nat.zero_le 1
    · rw [hs]
      exact Nat.zero_le 1

theorem Kept.move (hk : l.Kept prior) {signal : Option Signal} (h : Move signal l l') :
    l'.Kept prior := by
  cases h with
  | turn h => exact hk.turn h
  | written h => exact hk.wrote h
  | pause => exact hk

/-- **Along every run of a lane its entry mirrors what it has recorded.** -/
theorem Run.kept {r : StreamRequest} {heard : List Signal} (h : Run r prior heard l) :
    l.Kept prior := by
  induction h with
  | start => exact kept_start r prior
  | move _ hm ih => exact ih.move hm

end Lane
end LanInference
