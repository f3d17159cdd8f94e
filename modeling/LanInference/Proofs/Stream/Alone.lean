/-
# A stream by itself

The commands open one stream and read it to its end. Whenever one stream is opened over a store and
no other, its reader goes on until it has a terminal event, and nobody cancels, then what the reader
has got and what the store is are just what the answer gives and what its events leave, one write
after the other (`ingest`): however the task, the store and the reader took turns, and whatever the
store is.

Key definitions: `StoreOp.performAll`, `Stage.held`, `StreamSystem.Mirrors`, `StreamSystem.Stands`,
`StreamSystem.Alone`.
Key theorems: `Session.deliver_concat`, `StreamSystem.Stands.turn`, `StreamSystem.Alone.step`,
`StreamSystem.ingest_of_run`.
-/
import LanInference.Proofs.Stream.Outside
import LanInference.Stream.Ingest

namespace LanInference

variable {σ : Type} [RecoveryStore σ]

/-- The store after these writes. -/
def StoreOp.performAll (store : σ) (ops : List StoreOp) : σ :=
  ops.foldl (fun store op => (op.apply store).1) store

theorem StoreOp.perform_eq (store : σ) (op : Option StoreOp) :
    StoreOp.perform store op = StoreOp.performAll store op.toList := by
  cases op <;> rfl

/-- The last event comes to the session that the others have left. -/
theorem Session.deliver_concat : ∀ (es : List Event) (s : Session) (store : σ) (e : Event),
    s.deliver store (es ++ [e]) =
      (((s.deliver store es).1.record e).1,
        StoreOp.perform (s.deliver store es).2 ((s.deliver store es).1.record e).2)
  | [], _, _, _ => rfl
  | x :: es, s, store, e => by
    rw [List.cons_append, deliver, deliver]
    exact deliver_concat es _ _ e

theorem Session.format_deliver : ∀ (es : List Event) (s : Session) (store : σ),
    (s.deliver store es).1.format = s.format
  | [], _, _ => rfl
  | e :: es, s, store => by
    rw [deliver]
    exact (format_deliver es _ _).trans (StreamTask.record_session_eq s e).2.1

/-- The store to which the events of a session come. A success is marked as pending first. -/
def Session.marked (s : Session) (store : σ) (isSuccess : Bool) : σ :=
  if isSuccess then StoreOp.perform store (s.openEntry (hasEntry store s.key)) else store

theorem ingest_eq (store : σ) (s : Session) (answer : Answer) :
    ingest store s ⟨answer.reply, answer.body⟩ =
      (answer.events s.format,
        (s.deliver (s.marked store answer.reply.isSuccess) (answer.events s.format)).2) := by
  have hsuccess : Script.isSuccess ⟨answer.reply, answer.body⟩ = answer.reply.isSuccess := by
    unfold Script.isSuccess Reply.isSuccess
    rfl
  rw [ingest, Answer.script_events_eq, hsuccess, Session.marked]

/-- The events that a task has recorded and not handed over. -/
def Stage.held : Stage → List Event
  | .writing e _ _ | .sending e _ _ => [e]
  | _ => []

theorem Stage.held_giving (es : List Event) (last : Bool) : (giving es last).held = [] := by
  cases es with
  | nil => cases last <;> rfl
  | cons e rest => rfl

namespace StreamTask.Turn

variable {b : Bool} {signal : Option Signal} {t t' : StreamTask} {op : Option StoreOp}

/-- A reader that is there stays, unless the stream is cancelled. -/
theorem dropped_eq (h : Turn b signal t t' op) (hc : t'.cancelled = false)
    (hd : t.dropped = false) : t'.dropped = false := by
  cases h with
  | drop => cases hc
  | _ => exact hd

/-- A task that is past its request has heard something. -/
theorem heard_ne (h : Turn b signal t t' op) (hc : t'.cancelled = false) {heard : List Signal}
    (hh : t.stage = .requesting ∨ heard ≠ []) :
    t'.stage = .requesting ∨ heard ++ signal.toList ≠ [] := by
  have hkept : heard ≠ [] → heard ++ signal.toList ≠ [] := fun hne => by simp [hne]
  cases h with
  | unsent | refused | accepted => exact .inr (by simp)
  | take | wait => exact hh.imp_right hkept
  | cancel | drop => cases hc
  | stop hcancelled =>
    rw [hcancelled] at hc
    cases hc
  | found hs | mark hs | marked hs | chunk _ hs | ends hs | breaks _ hs | record hs | send hs
  | leave hs | finish hs =>
    rw [hs] at hh
    exact .inr (hkept (hh.resolve_left (by simp)))

/-- What is recorded has been handed over or is about to be. -/
theorem handed_eq (h : Turn b signal t t' op) (hc : t'.cancelled = false)
    (hd : t.dropped = false) (hh : t.yielded ++ t.channel ++ t.stage.held = t.recorded) :
    t'.yielded ++ t'.channel ++ t'.stage.held = t'.recorded := by
  cases h with
  | unsent _ hs | refused _ hs | accepted _ hs | found hs | mark hs | marked hs | breaks _ hs
  | finish hs =>
    rw [hs] at hh
    exact hh
  | chunk _ hs | ends hs =>
    rw [hs] at hh
    rw [Stage.held_giving]
    exact hh
  | @record _ e rest last hs =>
    have hheld : (t.afterRecord e rest last).stage.held = [e] := by
      unfold afterRecord
      dsimp only
      split <;> rfl
    have hnone : (Stage.recording e rest last).held = [] := rfl
    rw [hs, hnone, List.append_nil] at hh
    rw [hheld, afterRecord, ← hh]
  | @send _ e rest last hs =>
    have hheld : (t.afterSend e rest last).stage.held = [] := by
      unfold afterSend
      dsimp only
      split
      · rfl
      · exact Stage.held_giving rest last
    rw [hs] at hh
    rw [hheld, afterSend, ← hh, List.append_nil]
    exact (List.append_assoc _ _ _).symm
  | leave _ hdropped =>
    rw [hd] at hdropped
    cases hdropped
  | stop hcancelled =>
    rw [hcancelled] at hc
    cases hc
  | take _ hch =>
    rw [hch] at hh
    rw [← hh]
    simp
  | wait => exact hh
  | cancel | drop => cases hc

end StreamTask.Turn

namespace StreamSystem

variable {store : σ} {r : StreamRequest} {heard : List Signal} {s s' : StreamSystem σ}
  {t t' : StreamTask} {session : Session} {recorded : List Event}

/-- The store that the events recorded come to. -/
def base (store : σ) (r : StreamRequest) : List Signal → σ
  | .reply reply :: _ => r.session.marked store reply.isSuccess
  | _ => store

/-- The session and its store are what the events recorded leave, over the store that they came to,
except that these writes are owed. -/
structure Mirrors (s : StreamSystem σ) (r : StreamRequest) (store : σ) (session : Session)
    (recorded : List Event) (owed : List StoreOp) : Prop where
  inFlight_eq : s.inFlight = owed.map (0, ·)
  deliver_eq : r.session.deliver store recorded = (session, StoreOp.performAll s.store owed)

/-- What a task owes where it stands. -/
def Stands (s : StreamSystem σ) (store : σ) (r : StreamRequest) (heard : List Signal)
    (session : Session) (recorded : List Event) : Stage → Prop
  | .requesting => heard = [] ∧ recorded = [] ∧ s.Mirrors r store session recorded []
  | .lookingUp => (∃ reply, heard = [.reply reply] ∧ reply.isSuccess = true) ∧
      recorded = [] ∧ s.Mirrors r store session recorded []
  | .marking found => (∃ reply, heard = [.reply reply] ∧ reply.isSuccess = true) ∧
      recorded = [] ∧ s.Mirrors r store session recorded [] ∧
      found = hasEntry store r.session.key
  | .opening => recorded = [] ∧ ∃ op, s.Mirrors r (base store r heard) session recorded [op]
  | .writing .. => ∃ op, s.Mirrors r (base store r heard) session recorded [op]
  | _ => s.Mirrors r (base store r heard) session recorded []

/-- The one stream over a store, while nobody cancels it. -/
structure Alone (store : σ) (r : StreamRequest) (heard : List Signal) (s : StreamSystem σ)
    (t : StreamTask) : Prop where
  tasks_eq : s.tasks = [t]
  uncancelled : t.cancelled = false
  dropped_eq : t.dropped = false
  heard_ne : t.stage = .requesting ∨ heard ≠ []
  handed_eq : t.yielded ++ t.channel ++ t.stage.held = t.recorded
  stands : s.Stands store r heard t.session t.recorded t.stage

theorem alone_start (store : σ) (r : StreamRequest) :
    Alone store r [] (({ store } : StreamSystem σ).start r) (.ofRequest r) :=
  ⟨rfl, rfl, rfl, .inl rfl, rfl, rfl, rfl, rfl, rfl⟩

theorem base_body (heard : List Signal) (b : BodyStep) :
    base store r (heard ++ [.body b]) = base store r heard := by
  cases heard with
  | nil => rfl
  | cons signal heard => cases signal <;> rfl

theorem base_of_failure {reply : Reply} (h : reply.isSuccess = false) :
    base store r [.reply reply] = store := by
  simp [base, Session.marked, h]

theorem stands_giving (es : List Event) (last : Bool) :
    s.Stands store r heard session recorded (.giving es last) ↔
      s.Mirrors r (base store r heard) session recorded [] := by
  cases es with
  | nil => cases last <;> rfl
  | cons e rest => rfl

namespace Mirrors

variable {owed : List StoreOp}

/-- A turn that records nothing and hands no write over. -/
theorem turned (h : s.Mirrors r store session recorded owed) (t' : StreamTask)
    (registry : Registry) : (s.turned 0 t' none registry).Mirrors r store session recorded owed :=
  ⟨(List.append_nil _).trans h.inFlight_eq, h.deliver_eq⟩

theorem deliver_nil (h : s.Mirrors r store session recorded []) :
    r.session.deliver store recorded = (session, s.store) := h.deliver_eq

/-- Before anything is recorded the session is new, and the store is as it was. -/
theorem eq_of_nil (h : s.Mirrors r store session recorded []) (hr : recorded = []) :
    session = r.session ∧ s.store = store := by
  have hdeliver := h.deliver_nil
  rw [hr] at hdeliver
  exact ⟨(congrArg Prod.fst hdeliver).symm, (congrArg Prod.snd hdeliver).symm⟩

/-- A turn that hands this write over. -/
theorem owes (h : s.Mirrors r store session recorded []) (t' : StreamTask) (op : Option StoreOp)
    (registry : Registry) :
    (s.turned 0 t' op registry).inFlight = op.toList.map (0, ·) := by
  have hnone : s.inFlight = [] := h.inFlight_eq
  cases op <;> simp [StreamSystem.turned, hnone]

/-- An event is recorded, and the write that it calls for is owed. -/
theorem record (h : s.Mirrors r store session recorded []) (e : Event) (t' : StreamTask)
    (registry : Registry) :
    (s.turned 0 t' (session.record e).2 registry).Mirrors r store (session.record e).1
      (recorded ++ [e]) (session.record e).2.toList := by
  refine ⟨h.owes t' _ registry, ?_⟩
  rw [Session.deliver_concat, h.deliver_nil, StoreOp.perform_eq]
  rfl

end Mirrors

theorem Stands.turned {stage : Stage} (h : s.Stands store r heard session recorded stage)
    (t' : StreamTask) (registry : Registry) :
    (s.turned 0 t' none registry).Stands store r heard session recorded stage := by
  cases stage with
  | requesting => exact ⟨h.1, h.2.1, h.2.2.turned t' registry⟩
  | lookingUp => exact ⟨h.1, h.2.1, h.2.2.turned t' registry⟩
  | marking found => exact ⟨h.1, h.2.1, h.2.2.1.turned t' registry, h.2.2.2⟩
  | opening =>
    obtain ⟨hr, op, hmirrors⟩ := h
    exact ⟨hr, op, hmirrors.turned t' registry⟩
  | writing =>
    obtain ⟨op, hmirrors⟩ := h
    exact ⟨op, hmirrors.turned t' registry⟩
  | reading | recording | sending | closing | finished => exact Mirrors.turned h t' registry

/-- **Each turn keeps the session and its store in step.** -/
theorem Stands.turn (h : s.Stands store r heard t.session t.recorded t.stage)
    {signal : Option Signal} {op : Option StoreOp}
    (hturn : StreamTask.Turn (hasEntry s.store t.session.key) signal t t' op)
    (hc : t'.cancelled = false) (hd : t.dropped = false) (registry : Registry) :
    (s.turned 0 t' op registry).Stands store r (heard ++ signal.toList) t'.session t'.recorded
      t'.stage := by
  have hstands := h
  have hquiet : heard ++ (none : Option Signal).toList = heard := List.append_nil heard
  cases hturn with
  | unsent reason hs =>
    rw [hs] at hstands
    obtain ⟨rfl, -, hmirrors⟩ := hstands
    exact hmirrors.turned _ registry
  | refused code hs hcode =>
    rw [hs] at hstands
    obtain ⟨rfl, -, hmirrors⟩ := hstands
    have hbase : base store r [.reply (.status code)] = store := base_of_failure hcode
    rw [← hbase] at hmirrors
    exact hmirrors.turned _ registry
  | accepted code hs hcode =>
    rw [hs] at hstands
    obtain ⟨rfl, hrecorded, hmirrors⟩ := hstands
    exact ⟨⟨_, rfl, hcode⟩, hrecorded, hmirrors.turned _ registry⟩
  | found hs =>
    rw [hs] at hstands
    obtain ⟨hheard, hrecorded, hmirrors⟩ := hstands
    obtain ⟨hsession, hstore⟩ := hmirrors.eq_of_nil hrecorded
    rw [hquiet]
    exact ⟨hheard, hrecorded, hmirrors.turned _ registry, by rw [hstore, hsession]⟩
  | mark hs =>
    rw [hs] at hstands
    obtain ⟨⟨reply, rfl, hsuccess⟩, hrecorded, hmirrors, hfound⟩ := hstands
    obtain ⟨hsession, hstore⟩ := hmirrors.eq_of_nil hrecorded
    have hbase : base store r [.reply reply] = (t.session.save.apply s.store).1 := by
      simp [base, Session.marked, hsuccess, ← hfound, Session.openEntry, hsession, hstore,
        StoreOp.perform]
    refine ⟨hrecorded, t.session.save, hmirrors.owes _ _ registry, ?_⟩
    rw [hquiet, hbase, hrecorded, hsession]
    rfl
  | marked hs =>
    rw [hs] at hstands
    obtain ⟨⟨reply, rfl, hsuccess⟩, hrecorded, hmirrors, hfound⟩ := hstands
    have hbase : base store r [.reply reply] = store := by
      simp [base, Session.marked, hsuccess, ← hfound, Session.openEntry, StoreOp.perform]
    rw [← hbase] at hmirrors
    exact hmirrors.turned _ registry
  | chunk bytes hs =>
    rw [hs] at hstands
    rw [stands_giving, Option.toList_some, base_body]
    exact Mirrors.turned hstands _ registry
  | ends hs =>
    rw [hs] at hstands
    rw [stands_giving, Option.toList_some, base_body]
    exact Mirrors.turned hstands _ registry
  | breaks reason hs =>
    rw [hs] at hstands
    have hmirrors := Mirrors.turned hstands
      { t with stage := .recording (.error (.transport reason)) [] true } registry
    rw [← base_body heard (.breaks reason)] at hmirrors
    exact hmirrors
  | @record _ e rest last hs =>
    rw [hs] at hstands
    have hmirrors := Mirrors.record hstands e (t.afterRecord e rest last) registry
    rw [hquiet]
    cases hop : (t.session.record e).2 with
    | none =>
      have hstage : (t.afterRecord e rest last).stage = .sending e rest last := by
        simp [StreamTask.afterRecord, hop]
      rw [hop] at hmirrors
      rw [hstage]
      exact hmirrors
    | some op =>
      have hstage : (t.afterRecord e rest last).stage = .writing e rest last := by
        simp [StreamTask.afterRecord, hop]
      rw [hop] at hmirrors
      rw [hstage]
      exact ⟨op, hmirrors⟩
  | @send _ e rest last hs =>
    rw [hs] at hstands
    rw [hquiet]
    unfold StreamTask.afterSend
    dsimp only
    split
    · exact Mirrors.turned hstands _ registry
    · exact (stands_giving rest last).mpr (Mirrors.turned hstands _ registry)
  | leave hs hdropped =>
    rw [hd] at hdropped
    cases hdropped
  | stop hcancelled =>
    rw [hcancelled] at hc
    cases hc
  | finish hs =>
    rw [hs] at hstands
    rw [hquiet]
    exact Mirrors.turned hstands _ registry
  | take | wait =>
    rw [hquiet]
    exact hstands.turned _ registry
  | cancel | drop => cases hc

theorem Alone.turn (h : Alone store r heard s t) {signal : Option Signal} {op : Option StoreOp}
    (hturn : StreamTask.Turn (hasEntry s.store t.session.key) signal t t' op)
    (hc : t'.cancelled = false) (registry : Registry) :
    Alone store r (heard ++ signal.toList) (s.turned 0 t' op registry) t' where
  tasks_eq := by simp [turned, setTask, h.tasks_eq]
  uncancelled := hc
  dropped_eq := hturn.dropped_eq hc h.dropped_eq
  heard_ne := hturn.heard_ne hc h.heard_ne
  handed_eq := hturn.handed_eq hc h.dropped_eq h.handed_eq
  stands := h.stands.turn hturn hc h.dropped_eq registry

/-- A task owes a write only while it waits for one. -/
theorem Stands.waiting {stage : Stage} (h : s.Stands store r heard session recorded stage)
    {w : Nat × StoreOp} (hw : w ∈ s.inFlight) :
    (stage = .opening ∨ ∃ e rest last, stage = .writing e rest last) ∧
      ∃ op, w = (0, op) ∧ s.Mirrors r (base store r heard) session recorded [op] := by
  have hnone : ∀ {base : σ}, ¬ s.Mirrors r base session recorded [] := fun hmirrors => by
    rw [hmirrors.inFlight_eq] at hw
    cases hw
  have hone : ∀ {op : StoreOp}, s.Mirrors r (base store r heard) session recorded [op] →
      w = (0, op) := fun hmirrors => by
    rw [hmirrors.inFlight_eq] at hw
    exact List.mem_singleton.mp hw
  cases stage with
  | requesting => exact absurd h.2.2 hnone
  | lookingUp => exact absurd h.2.2 hnone
  | marking found => exact absurd h.2.2.1 hnone
  | opening =>
    obtain ⟨-, op, hmirrors⟩ := h
    exact ⟨.inl rfl, op, hone hmirrors, hmirrors⟩
  | writing e rest last =>
    obtain ⟨op, hmirrors⟩ := h
    exact ⟨.inr ⟨e, rest, last, rfl⟩, op, hone hmirrors, hmirrors⟩
  | reading | recording | sending | closing | finished => exact absurd h hnone

/-- The store does the write that is owed. -/
theorem Alone.wrote (h : Alone store r heard s t) {n : Nat} {w : Nat × StoreOp}
    (hfind : s.inFlight.find? (·.1 = n) = some w) :
    n = 0 ∧ Alone store r heard
      { s with
        store := (w.2.apply s.store).1
        tasks := s.tasks.modify n StreamTask.written
        inFlight := s.inFlight.erase w
        applied := (n, w.2, (w.2.apply s.store).2.isOk) :: s.applied } t.written := by
  obtain ⟨htasks, hc, hd, hheard, hhanded, hstands⟩ := h
  obtain ⟨hstage, op, rfl, hmirrors⟩ := hstands.waiting (List.mem_of_find?_eq_some hfind)
  have hn : 0 = n := by simpa using List.find?_some hfind
  subst hn
  have hdone : Mirrors
      { s with
        store := (op.apply s.store).1
        tasks := s.tasks.modify 0 StreamTask.written
        inFlight := s.inFlight.erase (0, op)
        applied := (0, op, (op.apply s.store).2.isOk) :: s.applied }
      r (base store r heard) t.session t.recorded [] :=
    ⟨by simp [hmirrors.inFlight_eq], hmirrors.deliver_eq⟩
  -- The next event is read, or the one recorded is sent: either needs that no write is owed.
  obtain ⟨hne, hheld, hnext⟩ : t.stage ≠ .requesting ∧ t.written.stage.held = t.stage.held ∧
      ∀ {done : StreamSystem σ}, done.Mirrors r (base store r heard) t.session t.recorded [] →
        done.Stands store r heard t.session t.recorded t.written.stage := by
    rcases hstage with hs | ⟨e, rest, last, hs⟩
    · rw [StreamTask.written, hs]
      exact ⟨by simp, rfl, fun h => h⟩
    · rw [StreamTask.written, hs]
      exact ⟨by simp, rfl, fun h => h⟩
  refine ⟨rfl, by simp [htasks], hc, hd, .inr (hheard.resolve_left hne), ?_, hnext hdone⟩
  rw [hheld]
  exact hhanded

/-- **Every action keeps one stream in step,** as long as it is alone and not cancelled. -/
theorem Alone.step (h : Alone store r heard s t) {a : StreamAction} (hstep : s.step a = some s')
    (ha : ∀ q, a ≠ .start q) (ht' : s'.tasks[0]? = some t') (hc : t'.cancelled = false) :
    Alone store r (heard ++ (a.signal? 0).toList) s' t' := by
  cases change_of_step hstep with
  | start q => exact absurd rfl (ha q)
  | @turn _ n u u' signal op registry hu hturn hsignal =>
    obtain ⟨hn, rfl⟩ : n = 0 ∧ t = u := by
      rw [h.tasks_eq, List.getElem?_singleton] at hu
      split at hu
      · rename_i hn
        exact ⟨hn, Option.some.inj hu⟩
      · cases hu
    subst hn
    have hnew : u' = t' := by simpa [turned, setTask, h.tasks_eq] using ht'
    subst hnew
    rw [hsignal 0, if_pos rfl]
    exact h.turn hturn hc registry
  | @write n w hfind =>
    obtain ⟨rfl, hwrote⟩ := h.wrote hfind
    have hnew : t.written = t' := by simpa [h.tasks_eq] using ht'
    have hquiet : (StreamAction.write 0).signal? 0 = none := rfl
    rw [← hnew, hquiet, Option.toList_none, List.append_nil]
    exact hwrote
  | idle hsignal =>
    have hnew : t = t' := by simpa [h.tasks_eq] using ht'
    rw [← hnew, hsignal 0, Option.toList_none, List.append_nil]
    exact h

theorem alone_of_run {as : List StreamAction}
    (h : ({ store } : StreamSystem σ).run (.start r :: as) = some s)
    (ha : ∀ a ∈ as, ∀ q, a ≠ .start q) (ht : s.tasks[0]? = some t) (hc : t.cancelled = false) :
    Alone store r (signals 0 as) s t := by
  induction as using List.reverseRecOn generalizing s t with
  | nil =>
    cases h
    have hnew : StreamTask.ofRequest r = t := Option.some.inj ht
    exact hnew ▸ alone_start store r
  | append_singleton as a ih =>
    rw [← List.cons_append, run_concat, Option.bind_eq_some_iff] at h
    obtain ⟨before, hbefore, hstep⟩ := h
    have hstart : ∀ q, a ≠ .start q := ha a (by simp)
    have hchange := change_of_step hstep
    have hlen := hchange.length_eq hstart
    have hthere : 0 < before.tasks.length := by
      rw [← hlen]
      exact (List.getElem?_eq_some_iff.mp ht).1
    -- The stream was not cancelled before, or it would be now.
    have hu := List.getElem?_eq_getElem hthere
    have huncancelled : before.tasks[0].cancelled = false := by
      cases hbc : before.tasks[0].cancelled with
      | false => rfl
      | true =>
        obtain ⟨t', ht', hc', -⟩ := hchange.cancelled hu hbc
        rw [← Option.some.inj (ht.symm.trans ht'), hc] at hc'
        cases hc'
    have hbefore := ih hbefore (fun b hb => ha b (List.mem_append_left _ hb)) hu huncancelled
    rw [signals_concat]
    exact hbefore.step hstep hstart ht hc

/-- Once all that is recorded has been handed over, nothing is owed. -/
theorem Alone.settled (h : Alone store r heard s t) (hrecorded : t.recorded ≠ [])
    (hheld : t.stage.held = []) :
    heard ≠ [] ∧ s.Mirrors r (base store r heard) t.session t.recorded [] := by
  have hstands := h.stands
  have hheard := h.heard_ne
  cases hs : t.stage <;> rw [hs] at hstands hheard hheld
  case requesting | lookingUp | marking => exact absurd hstands.2.1 hrecorded
  case opening => exact absurd hstands.1 hrecorded
  case writing | sending => cases hheld
  all_goals exact ⟨hheard.resolve_left (by simp), hstands⟩

/-- **What one stream by itself comes to.** Once its reader has a terminal event, it has the events
of the answer, and the store is what they leave. -/
theorem ingest_of_run {as : List StreamAction} {answer : Answer}
    (h : ({ store } : StreamSystem σ).run (.start r :: as) = some s)
    (ha : ∀ a ∈ as, ∀ q, a ≠ .start q) (ht : s.tasks[0]? = some t) (hc : t.cancelled = false)
    (hheard : signals 0 as <+: answer.signals)
    (hread : t.yielded.any Event.isTerminal = true) :
    ingest store r.session ⟨answer.reply, answer.body⟩ = (t.yielded, s.store) := by
  have halone := alone_of_run h ha ht hc
  have howns : s.Owns 0 t.session.id := owns_of_single halone.tasks_eq rfl
  have hserved : Served (.start r :: as) s 0 answer t := served_of_run h howns ht hheard
  -- What was read, what is recorded and what the answer gives are the same events.
  have hend := answer.finished_events t.session.format
  have hyielded : t.yielded = answer.events t.session.format :=
    hend.eq_of_prefix (hserved.yielded_le.trans hserved.recorded_le) hread
  have hrecorded : t.recorded = answer.events t.session.format := by
    obtain ⟨rest, hrest⟩ := hserved.yielded_le
    have hany : t.recorded.any Event.isTerminal = true := by simp [← hrest, hread]
    exact hend.eq_of_prefix hserved.recorded_le hany
  have hne : t.recorded ≠ [] := by
    intro hnil
    rw [hyielded, ← hrecorded, hnil] at hread
    cases hread
  have hheld : t.stage.held = [] := by
    have hhanded := halone.handed_eq
    rw [hyielded, ← hrecorded, List.append_assoc] at hhanded
    exact (List.append_eq_nil_iff.mp (List.append_right_eq_self.mp hhanded)).2
  obtain ⟨hsome, hmirrors⟩ := halone.settled hne hheld
  have hbase : base store r (signals 0 as) = r.session.marked store answer.reply.isSuccess := by
    cases hsignals : signals 0 as with
    | nil => exact absurd hsignals hsome
    | cons signal rest =>
      rw [hsignals] at hheard
      rw [(List.cons_prefix_cons.mp hheard).1]
      rfl
  have hdeliver := hmirrors.deliver_nil
  rw [hbase] at hdeliver
  have hformat : t.session.format = r.session.format := by
    have hsession := congrArg (fun p => p.1.format) hdeliver
    exact hsession.symm.trans (Session.format_deliver _ _ _)
  rw [ingest_eq, ← hformat, ← hrecorded, hdeliver, hyielded, hrecorded]

end StreamSystem
end LanInference
