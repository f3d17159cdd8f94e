/-
# The recovery store is not seen outside

Those who open streams, read them and cancel them see nothing of the recovery store: not what it
holds, not which of its operations fail, not how long a write takes. Take the store away, and with
it that a task waits for a write and what it was told about an entry; what is left of a system goes
on by itself (`StreamSystem.stepOutside`), whatever the store. So two systems over any two stores
to which the same has happened, up to the stores' own writes, give their readers the same events,
and what can happen next to one can happen to the other once the writes owed are done.

Key definitions: `Stage.outside`, `StreamSystem.outside`, `StreamSystem.stepOutside`, `unwritten`,
`StreamSystem.Owing`, `StreamSystem.Indistinct`, `StreamSystem.Unaffected`.
Key theorems: `StreamSystem.step_outside`, `StreamSystem.run_outside`,
`StreamSystem.exists_settled`, `StreamSystem.exists_run_of_outside`, `StreamSystem.unaffected`.
-/
import LanInference.Proofs.Stream.Delivery
import LanInference.Proofs.Stream.WriteAhead

namespace LanInference

/-! ### Tasks from outside -/

/-- Where a task stands for those who do not see the store. -/
def Stage.outside : Stage → Stage
  | .marking _ => .marking true
  | .opening => .reading
  | .writing e rest last => .sending e rest last
  | s => s

/-- Whether a write is awaited. -/
def Stage.waits : Stage → Bool
  | .opening | .writing .. => true
  | _ => false

theorem Stage.outside_outside (s : Stage) : s.outside.outside = s.outside := by
  cases s <;> rfl

namespace StreamTask

def outside (t : StreamTask) : StreamTask := { t with stage := t.stage.outside }

theorem outside_outside (t : StreamTask) : t.outside.outside = t.outside := by
  simp [outside, Stage.outside_outside]

theorem outside_ofRequest (r : StreamRequest) : (ofRequest r).outside = ofRequest r := rfl

theorem outside_written (t : StreamTask) : t.written.outside = t.outside := by
  unfold written outside
  cases t.stage <;> rfl

theorem outside_cancel (t : StreamTask) : t.cancel.outside = t.outside.cancel := rfl

theorem poll_outside (t : StreamTask) : t.outside.poll = t.poll := by
  unfold poll outside
  cases t.stage <;> simp [Stage.outside]

theorem same_of_outside {t u : StreamTask} (h : t.outside = u.outside) :
    t.cancelled = u.cancelled ∧ t.yielded = u.yielded ∧ t.recorded = u.recorded ∧
      t.session = u.session ∧ t.poll = u.poll := by
  have hpoll : t.poll = u.poll := by rw [← poll_outside t, h, poll_outside]
  simp only [outside, StreamTask.mk.injEq] at h
  obtain ⟨hsession, -, -, -, hcancelled, -, hrecorded, hyielded⟩ := h
  exact ⟨hcancelled, hyielded, hrecorded, hsession, hpoll⟩

theorem waits_written (t : StreamTask) : t.written.stage.waits = false := by
  unfold written
  cases t.stage <;> rfl

theorem waits_giving (es : List Event) (last : Bool) : (Stage.giving es last).waits = false := by
  cases es with
  | nil => cases last <;> rfl
  | cons e rest => rfl

/-- A task comes to wait for a write as it hands one over. -/
theorem Turn.hands {b : Bool} {signal : Option Signal} {t t' : StreamTask} {op : Option StoreOp}
    (h : Turn b signal t t' op) (hw : t'.stage.waits = true) :
    (∃ w, op = some w) ∨ t.stage.waits = true := by
  cases h with
  | mark => exact .inl ⟨_, rfl⟩
  | @record _ e _ _ _ =>
    cases hop : (t.session.record e).2 with
    | some w => exact .inl ⟨w, rfl⟩
    | none => simp [afterRecord, hop, Stage.waits] at hw
  | chunk | ends => simp [waits_giving] at hw
  | @send _ e _ _ _ _ _ =>
    cases he : e.isTerminal with
    | true => simp [afterSend, he, Stage.waits] at hw
    | false => simp [afterSend, he, waits_giving] at hw
  | take | wait | cancel | drop => exact .inr hw
  | _ => cases hw

/-- The second move does outside what the first does, where the first can be made and where no write
is awaited. -/
def SameOutside (f f' : StreamTask → Option StreamTask) : Prop :=
  ∀ t, (f t).isSome ∨ t.stage.waits = false → (f t).map outside = (f' t.outside).map outside

theorem sameOutside_respond (reply : Reply) :
    SameOutside (·.respond reply) (·.respond reply) := by
  rintro ⟨_, _, stage, _, _, _, _, _⟩ _
  cases stage <;> rfl

/-- What the store says is not seen. -/
theorem sameOutside_found (told told' : StreamTask → Bool) :
    SameOutside (fun t => t.found (told t)) (fun t => t.found (told' t)) := by
  rintro ⟨_, _, stage, _, _, _, _, _⟩ _
  cases stage <;> rfl

theorem sameOutside_mark :
    SameOutside (fun t => t.mark.map (·.1)) (fun t => t.mark.map (·.1)) := by
  rintro ⟨_, _, stage, _, _, _, _, _⟩ _
  cases stage with
  | marking hasEntry => cases hasEntry <;> rfl
  | _ => rfl

theorem sameOutside_receive (b : BodyStep) : SameOutside (·.receive b) (·.receive b) := by
  rintro ⟨_, _, stage, _, _, _, _, _⟩ h
  cases stage with
  | opening => simp [receive, Stage.waits] at h
  | _ => rfl

theorem sameOutside_record :
    SameOutside (fun t => t.record.map (·.1)) (fun t => t.record.map (·.1)) := by
  rintro ⟨_, _, stage, _, _, _, _, _⟩ _
  cases stage <;> rfl

theorem sameOutside_send : SameOutside send send := by
  rintro ⟨_, _, stage, _, _, _, _, _⟩ h
  cases stage with
  | writing => simp [send, Stage.waits] at h
  | _ => rfl

/-- A cancelled task stops also while it waits for a write. -/
theorem sameOutside_stop : SameOutside stop stop := by
  rintro ⟨_, _, stage, _, cancelled, _, _, _⟩ _
  cases stage <;> cases cancelled <;> rfl

theorem sameOutside_finish : SameOutside finish finish := by
  rintro ⟨_, _, stage, _, _, _, _, _⟩ _
  cases stage <;> rfl

theorem sameOutside_read :
    SameOutside (fun t => some t.read) (fun t => some t.read) := by
  intro t _
  have hread : t.read.outside = t.outside.read.outside := by
    unfold read
    rw [poll_outside]
    cases t.poll with
    | event e => simp [outside, Stage.outside_outside]
    | ended | waiting => exact t.outside_outside.symm
  simp [hread]

theorem sameOutside_cancel :
    SameOutside (fun t => some t.cancel) (fun t => some t.cancel) := by
  intro t _
  simp [outside, cancel, Stage.outside_outside]

theorem sameOutside_drop : SameOutside (fun t => some t.drop) (fun t => some t.drop) := by
  intro t _
  simp [outside, drop, Stage.outside_outside]

end StreamTask

/-! ### Actions of the store -/

def StreamAction.isWrite : StreamAction → Bool
  | .write _ => true
  | _ => false

theorem StreamAction.eq_write {a : StreamAction} (h : a.isWrite = true) :
    ∃ n, a = .write n := by
  cases a with
  | write n => exact ⟨n, rfl⟩
  | _ => cases h

/-- The actions that are no writes of the store. -/
def unwritten (as : List StreamAction) : List StreamAction := as.filter (!·.isWrite)

theorem unwritten_append (as bs : List StreamAction) :
    unwritten (as ++ bs) = unwritten as ++ unwritten bs := List.filter_append as bs

theorem unwritten_cons_write {a : StreamAction} (as : List StreamAction) (h : a.isWrite = true) :
    unwritten (a :: as) = unwritten as := List.filter_cons_of_neg (by simp [h])

theorem unwritten_cons {a : StreamAction} (as : List StreamAction) (h : a.isWrite = false) :
    unwritten (a :: as) = a :: unwritten as := List.filter_cons_of_pos (by simp [h])

/-- A write tells no stream anything. -/
theorem signals_unwritten (n : Nat) (as : List StreamAction) :
    signals n (unwritten as) = signals n as := by
  unfold signals unwritten
  rw [List.filterMap_filter]
  congr 1
  funext a
  cases a <;> rfl

/-! ### Systems from outside -/

namespace StreamSystem

variable {σ : Type} [RecoveryStore σ] {s s' : StreamSystem σ} {a : StreamAction} {n : Nat}

section Outside

omit [RecoveryStore σ]

/-- A system without its store, over a blank one. -/
def outside (s : StreamSystem σ) : StreamSystem MemoryStore :=
  { store := {}, registry := s.registry, tasks := s.tasks.map StreamTask.outside }

/-- No task waits for a write. -/
def Settled (s : StreamSystem σ) : Prop := ∀ t ∈ s.tasks, t.stage.waits = false

theorem outside_setTask (s : StreamSystem σ) (n : Nat) (t : StreamTask) :
    (s.setTask n t).outside = (s.outside.setTask n t).outside := by
  simp [outside, setTask, List.map_set, StreamTask.outside_outside, Function.comp_def]

theorem outside_setTask_congr {t t' : StreamTask} (h : t.outside = t'.outside) :
    (s.setTask n t).outside = (s.setTask n t').outside := by
  simp [outside, setTask, List.map_set, h]

theorem move_outside {f f' : StreamTask → Option StreamTask} (hf : StreamTask.SameOutside f f')
    (h : (s.move n f).isSome ∨ s.Settled) :
    (s.move n f).map outside = (s.outside.move n f').map outside := by
  have htasks : s.outside.tasks[n]? = (s.tasks[n]?).map StreamTask.outside := List.getElem?_map
  unfold move at h ⊢
  rw [htasks]
  cases ht : s.tasks[n]? with
  | none => rfl
  | some t =>
    have hdef : (f t).isSome ∨ t.stage.waits = false := by
      rcases h with h | h
      · cases hft : f t with
        | none => simp [ht, hft] at h
        | some t' => exact .inl rfl
      · exact .inr (h t (List.mem_of_getElem? ht))
    have hsame := hf t hdef
    cases hft : f t with
    | none =>
      rw [hft] at hsame
      have hnone : f' t.outside = none := Option.map_eq_none_iff.mp hsame.symm
      simp [hft, hnone]
    | some t' =>
      rw [hft] at hsame
      obtain ⟨u, hu, htu⟩ := Option.map_eq_some_iff.mp hsame.symm
      simp [hft, hu, ← outside_setTask, outside_setTask_congr htu]

/-- A move that hands over a write is, outside, a move. -/
theorem moveWriting_outside (s : StreamSystem σ) (n : Nat)
    (f : StreamTask → Option (StreamTask × Option StoreOp)) :
    (s.moveWriting n f).map outside = (s.move n fun t => (f t).map (·.1)).map outside := by
  unfold moveWriting move
  cases ht : s.tasks[n]? with
  | none => rfl
  | some t => cases hft : f t <;> simp [hft, outside, setTask]

theorem outside_outside (s : StreamSystem σ) : s.outside.outside = s.outside := by
  simp [outside, StreamTask.outside_outside, Function.comp_def]

/-- A change of one task that is seen as the same change of what is seen. -/
theorem map_outside_modify {f f' : StreamTask → StreamTask} (ts : List StreamTask) (n : Nat)
    (hf : ∀ t, (f t).outside = f' t.outside) :
    (ts.modify n f).map StreamTask.outside = (ts.map StreamTask.outside).modify n f' := by
  apply List.ext_getElem?
  intro m
  rw [List.getElem?_map, List.getElem?_modify, List.getElem?_modify, List.getElem?_map]
  cases ts[m]? with
  | none => rfl
  | some t => by_cases h : n = m <;> simp [h, hf]

theorem outside_start (s : StreamSystem σ) (r : StreamRequest) :
    (s.start r).outside = s.outside.start r := by
  unfold start
  cases hr : s.registry.serial? r.id with
  | none => simp [outside, hr, StreamTask.outside_ofRequest]
  | some previous =>
    have hmodify := map_outside_modify s.tasks previous StreamTask.outside_cancel
    simp [outside, hr, hmodify, StreamTask.outside_ofRequest]

end Outside

/-- A write of the store is not seen. -/
theorem outside_write (hw : a.isWrite = true) (h : s.step a = some s') :
    s'.outside = s.outside := by
  obtain ⟨n, rfl⟩ := StreamAction.eq_write hw
  simp only [step, write, Option.map_eq_some_iff] at h
  obtain ⟨w, hw, rfl⟩ := h
  have htasks : (s.tasks.modify n StreamTask.written).map StreamTask.outside =
      (s.tasks.map StreamTask.outside).modify n id :=
    map_outside_modify s.tasks n StreamTask.outside_written
  rw [List.modify_id] at htasks
  simp [outside, htasks]

/-- What an action changes outside. -/
def stepOutside (o : StreamSystem MemoryStore) (a : StreamAction) :
    Option (StreamSystem MemoryStore) := (o.step a).map outside

theorem finish_outside (h : (s.step (.finish n)).isSome ∨ s.Settled) :
    (s.step (.finish n)).map outside = s.outside.stepOutside (.finish n) := by
  have hmove : (s.move n StreamTask.finish).isSome ∨ s.Settled := by
    refine h.imp_left fun h => ?_
    obtain ⟨s', hs'⟩ := Option.isSome_iff_exists.mp h
    obtain ⟨t, t', ht, hfinish, -⟩ := finish_inv hs'
    rw [move_eq ht hfinish]
    rfl
  have hsame := move_outside StreamTask.sameOutside_finish hmove
  have htasks : s.outside.tasks[n]? = (s.tasks[n]?).map StreamTask.outside := List.getElem?_map
  simp only [stepOutside, step, htasks]
  cases ht : s.tasks[n]? with
  | none => rfl
  | some t =>
    cases hm : s.move n StreamTask.finish with
    | none =>
      rw [hm] at hsame
      have hnone := Option.map_eq_none_iff.mp hsame.symm
      simp [hnone]
    | some s' =>
      rw [hm] at hsame
      obtain ⟨o, ho, hso⟩ := Option.map_eq_some_iff.mp hsame.symm
      have hregistry : o.registry = s'.registry := congrArg StreamSystem.registry hso
      have hleft : ∀ registry, ({ s' with registry } : StreamSystem σ).outside =
          ({ o with registry } : StreamSystem MemoryStore).outside :=
        fun registry => congrArg (fun o => { o with registry }) hso.symm
      simp [ho, hregistry, hleft, StreamTask.outside]

/-- **What an action changes outside does not depend on the store**, where the action can happen or
no write is awaited. -/
theorem step_outside (ha : a.isWrite = false) (h : (s.step a).isSome ∨ s.Settled) :
    (s.step a).map outside = s.outside.stepOutside a := by
  have writing : ∀ {n : Nat} {f : StreamTask → Option (StreamTask × Option StoreOp)},
      StreamTask.SameOutside (fun t => (f t).map (·.1)) (fun t => (f t).map (·.1)) →
      (s.moveWriting n f).isSome ∨ s.Settled →
      (s.moveWriting n f).map outside = (s.outside.moveWriting n f).map outside := by
    intro n f hf h
    have hsome := congrArg Option.isSome (moveWriting_outside s n f)
    rw [Option.isSome_map, Option.isSome_map] at hsome
    rw [moveWriting_outside, moveWriting_outside, move_outside hf (hsome ▸ h)]
  cases a with
  | start r =>
    have hstart : (s.outside.start r).outside = (s.start r).outside := by
      rw [← outside_start, outside_outside]
    exact congrArg some hstart.symm
  | respond n reply => exact move_outside (StreamTask.sameOutside_respond reply) h
  | lookUp n => exact move_outside (StreamTask.sameOutside_found _ _) h
  | mark n => exact writing StreamTask.sameOutside_mark h
  | receive n b => exact move_outside (StreamTask.sameOutside_receive b) h
  | record n => exact writing StreamTask.sameOutside_record h
  | write n => cases ha
  | send n => exact move_outside StreamTask.sameOutside_send h
  | stop n => exact move_outside StreamTask.sameOutside_stop h
  | finish n => exact finish_outside h
  | read n => exact move_outside StreamTask.sameOutside_read h
  | cancel n => exact move_outside StreamTask.sameOutside_cancel h
  | drop n => exact move_outside StreamTask.sameOutside_drop h
  | cancelId id =>
    have hregistry : s.outside.registry.serial? id = s.registry.serial? id := rfl
    simp only [step, stepOutside, hregistry] at h ⊢
    cases hid : s.registry.serial? id with
    | none => exact congrArg some s.outside_outside.symm
    | some n =>
      rw [hid] at h
      exact move_outside StreamTask.sameOutside_cancel h

/-! ### Runs from outside -/

variable {as : List StreamAction}

/-- What a list of actions changes outside. -/
def runOutside (o : StreamSystem MemoryStore) (as : List StreamAction) :
    Option (StreamSystem MemoryStore) := as.foldlM stepOutside o

/-- **A run over any store is, outside, a run without one.** -/
theorem run_outside (h : s.run as = some s') :
    s.outside.runOutside (unwritten as) = some s'.outside := by
  induction as generalizing s with
  | nil =>
    cases h
    rfl
  | cons a as ih =>
    obtain ⟨between, hstep, hrun⟩ := Option.bind_eq_some_iff.mp h
    have hrest := ih hrun
    cases hw : a.isWrite with
    | true => rwa [unwritten_cons_write as hw, ← outside_write hw hstep]
    | false =>
      have hout := step_outside hw (.inl (Option.isSome_of_eq_some hstep))
      rw [hstep, Option.map_some] at hout
      rw [unwritten_cons as hw, runOutside, List.foldlM_cons, ← hout]
      exact hrest

/-! ### The writes that are owed -/

/-- A task that waits for a write has handed it to the store. -/
def Owing (s : StreamSystem σ) : Prop :=
  ∀ (n : Nat) (t : StreamTask), s.tasks[n]? = some t → t.stage.waits = true →
    ∃ w ∈ s.inFlight, w.1 = n

omit [RecoveryStore σ] in
theorem Owing.start (hs : s.Owing) (r : StreamRequest) : (s.start r).Owing := by
  intro m t' ht' hw
  obtain ⟨hnew, hlen⟩ := tasks_start_new s r
  by_cases hm : m < s.tasks.length
  · have ht := List.getElem?_eq_getElem hm
    have hstage : t'.stage = s.tasks[m].stage := by
      rcases tasks_start r ht with h | h
      · rw [Option.some.inj (ht'.symm.trans h)]
      · rw [Option.some.inj (ht'.symm.trans h), StreamTask.cancel]
    exact hs m _ ht (hstage ▸ hw)
  · have hlt := (List.getElem?_eq_some_iff.mp ht').1
    have hm' : m = s.tasks.length := by omega
    subst hm'
    rw [Option.some.inj (ht'.symm.trans hnew)] at hw
    cases hw

theorem owing_step (hs : s.Owing) (h : s.step a = some s') : s'.Owing := by
  cases change_of_step h with
  | start r => exact hs.start r
  | @turn _ n t t' _ op registry ht hturn ha =>
    intro m u hu hw
    have hsub : ∀ w ∈ s.inFlight, w ∈ (s.turned n t' op registry).inFlight :=
      fun w hmem => List.mem_append_left _ hmem
    by_cases hm : n = m
    · subst hm
      have hlt := (List.getElem?_eq_some_iff.mp ht).1
      have hut : t' = u := by simpa [turned, setTask, hlt] using hu
      subst hut
      rcases hturn.hands hw with ⟨w, rfl⟩ | hwaits
      · exact ⟨(n, w), by simp [turned], rfl⟩
      · obtain ⟨w, hmem, hwn⟩ := hs n t ht hwaits
        exact ⟨w, hsub w hmem, hwn⟩
    · have hu' : s.tasks[m]? = some u := by simpa [turned, setTask, hm] using hu
      obtain ⟨w, hmem, hwm⟩ := hs m u hu' hw
      exact ⟨w, hsub w hmem, hwm⟩
  | @write n w hfind =>
    intro m u hu hw
    have hwn : w.1 = n := by simpa using List.find?_some hfind
    by_cases hm : n = m
    · subst hm
      obtain ⟨t, -, rfl⟩ : ∃ t, s.tasks[n]? = some t ∧ t.written = u := by simpa using hu
      rw [StreamTask.waits_written] at hw
      cases hw
    · have hu' : s.tasks[m]? = some u := by simpa [hm] using hu
      obtain ⟨w', hmem, hwm⟩ := hs m u hu' hw
      have hne : w' ≠ w := fun h => hm (hwn.symm.trans (h ▸ hwm))
      exact ⟨w', (List.mem_erase_of_ne hne).mpr hmem, hwm⟩
  | idle => exact hs

theorem owing_run (hs : s.Owing) (h : s.run as = some s') : s'.Owing := run_keeps owing_step hs h

/-- The store can do all the writes that are owed. -/
theorem exists_settled (hs : s.Owing) :
    ∃ ws s', s.run ws = some s' ∧ unwritten ws = [] ∧ s'.Settled := by
  generalize hf : s.inFlight = owed
  induction owed generalizing s with
  | nil =>
    refine ⟨[], s, rfl, rfl, fun t ht => ?_⟩
    obtain ⟨n, hn⟩ := List.mem_iff_getElem?.mp ht
    cases hw : t.stage.waits with
    | false => rfl
    | true =>
      obtain ⟨w, hmem, -⟩ := hs n t hn hw
      rw [hf] at hmem
      cases hmem
  | cons w owed ih =>
    have hstep : ∃ s', s.step (.write w.1) = some s' ∧ s'.inFlight = owed := by
      simp [step, write, hf]
    obtain ⟨s', hstep, howed⟩ := hstep
    obtain ⟨ws, s'', hrun, hws, hsettled⟩ := ih (owing_step hs hstep) howed
    refine ⟨.write w.1 :: ws, s'', ?_, hws, hsettled⟩
    rw [run, List.foldlM_cons, hstep]
    exact hrun

/-- **What can happen outside can happen over any store**, once the writes owed are done. -/
theorem exists_run_of_outside {o : StreamSystem MemoryStore} {q : List StreamAction}
    (hs : s.Owing) (hq : ∀ a ∈ q, a.isWrite = false) (h : s.outside.runOutside q = some o) :
    ∃ as s', s.run as = some s' ∧ unwritten as = q := by
  induction q generalizing s with
  | nil => exact ⟨[], s, rfl, rfl⟩
  | cons a q ih =>
    obtain ⟨ha, hq⟩ := List.forall_mem_cons.mp hq
    obtain ⟨between, hstep, hrun⟩ := Option.bind_eq_some_iff.mp h
    obtain ⟨ws, s₁, hws, hquiet, hsettled⟩ := exists_settled hs
    -- What the store has done on the way to `s₁` is not seen.
    have hseen : s.outside = s₁.outside := by
      have hsame := run_outside hws
      rw [hquiet] at hsame
      exact Option.some.inj hsame
    rw [hseen, ← step_outside ha (.inr hsettled)] at hstep
    obtain ⟨s₂, hs₂, rfl⟩ := Option.map_eq_some_iff.mp hstep
    obtain ⟨as, s', has, hsame⟩ := ih (owing_step (owing_run hs hws) hs₂) hq hrun
    refine ⟨ws ++ a :: as, s', ?_, ?_⟩
    · rw [run_append, hws, Option.bind_some, run, List.foldlM_cons, hs₂]
      exact has
    · rw [unwritten_append, hquiet, List.nil_append, unwritten_cons as ha, hsame]

/-! ### Two stores -/

variable {τ : Type} [RecoveryStore τ] {u : StreamSystem τ} {bs : List StreamAction}

section Outside

omit [RecoveryStore σ] [RecoveryStore τ]

/-- Two systems that look the same to those who do not see the store: the same sessions run, each
reader has got the same and finds the same next, and no task differs but in what the store tells
it. -/
structure Indistinct (s : StreamSystem σ) (u : StreamSystem τ) : Prop where
  registry_eq : s.registry = u.registry
  yielded_eq : ∀ n : Nat,
    (s.tasks[n]?).map StreamTask.yielded = (u.tasks[n]?).map StreamTask.yielded
  poll_eq : ∀ n : Nat, (s.tasks[n]?).map StreamTask.poll = (u.tasks[n]?).map StreamTask.poll
  tasks_eq : ∀ n : Nat, (s.tasks[n]?).map StreamTask.outside = (u.tasks[n]?).map StreamTask.outside

theorem indistinct_of_outside (h : s.outside = u.outside) : s.Indistinct u := by
  have htasks : ∀ n : Nat,
      (s.tasks[n]?).map StreamTask.outside = (u.tasks[n]?).map StreamTask.outside := fun n => by
    rw [← List.getElem?_map, ← List.getElem?_map]
    exact congrArg (fun o => o.tasks[n]?) h
  have hseen : ∀ {α : Type} (f : StreamTask → α), (∀ t, f t.outside = f t) → ∀ n : Nat,
      (s.tasks[n]?).map f = (u.tasks[n]?).map f := fun f hf n => by
    have hfun : f = f ∘ StreamTask.outside := funext fun t => (hf t).symm
    rw [hfun, ← Option.map_map, ← Option.map_map, htasks]
  exact ⟨congrArg StreamSystem.registry h, hseen _ fun _ => rfl, hseen _ StreamTask.poll_outside,
    htasks⟩

/-- The task of the other system. -/
theorem exists_task_of_outside (h : s.outside = u.outside) {t : StreamTask}
    (ht : s.tasks[n]? = some t) : ∃ t', u.tasks[n]? = some t' ∧ t'.outside = t.outside := by
  have htasks := (indistinct_of_outside h).tasks_eq n
  rw [ht] at htasks
  exact Option.map_eq_some_iff.mp htasks.symm

theorem owns_of_outside {id : SessionId} (h : s.outside = u.outside) (ho : s.Owns n id) :
    u.Owns n id := by
  intro m t ht
  obtain ⟨t', ht', hsame⟩ := exists_task_of_outside h.symm ht
  obtain ⟨-, -, -, hsession, -⟩ := StreamTask.same_of_outside hsame
  rw [← hsession]
  exact ho m t' ht'

end Outside

/-- What a run over one store says of another one. -/
structure Unaffected (store : σ) (store' : τ) (as : List StreamAction) (s : StreamSystem σ) :
    Prop where
  /-- The same can happen over the other store, but for what it writes. -/
  possible : ∃ bs u, ({ store := store' } : StreamSystem τ).run bs = some u ∧
    unwritten bs = unwritten as
  /-- If the same has happened over the other store, all looks the same, -/
  indistinct : ∀ bs u, ({ store := store' } : StreamSystem τ).run bs = some u →
    unwritten bs = unwritten as → s.Indistinct u
  /-- and what happens there next can happen here. -/
  goes_on : ∀ bs u, ({ store := store' } : StreamSystem τ).run bs = some u →
    unwritten bs = unwritten as → ∀ later u', u.run later = some u' →
      ∃ more s', s.run more = some s' ∧ unwritten more = unwritten later

/-- What the reader of a stream gets over any store: the first of the events recorded, and these are
the first of the answer's; all of them, once it finds the end without a cancellation. It can always
get there. -/
structure Served (as : List StreamAction) (s : StreamSystem σ) (n : Nat) (answer : Answer)
    (t : StreamTask) : Prop where
  yielded_le : t.yielded <+: t.recorded
  recorded_le : t.recorded <+: answer.events t.session.format
  ended : t.cancelled = false → t.poll = .ended → t.yielded = answer.events t.session.format
  can_end : t.cancelled = false → ∃ more s' t', s.run more = some s' ∧ s'.tasks[n]? = some t' ∧
    signals n (as ++ more) <+: answer.signals ∧ t'.cancelled = false ∧ t'.poll = .ended

theorem outside_eq_of_run {store : σ} {store' : τ}
    (h : ({ store } : StreamSystem σ).run as = some s)
    (hb : ({ store := store' } : StreamSystem τ).run bs = some u)
    (hsame : unwritten bs = unwritten as) : s.outside = u.outside := by
  have hs := run_outside h
  have hu := run_outside hb
  rw [hsame] at hu
  exact Option.some.inj (hs.symm.trans hu)

theorem unwritten_quiet {q : List StreamAction} (as : List StreamAction) (h : unwritten as = q) :
    ∀ a ∈ q, a.isWrite = false := by
  intro a ha
  rw [← h] at ha
  simpa using (List.mem_filter.mp ha).2

omit [RecoveryStore σ] in
theorem owing_init (store : σ) : ({ store } : StreamSystem σ).Owing := by
  intro n t ht
  simp at ht

/-- **A run over one store says what happens over another.** -/
theorem unaffected_of_run (store : σ) (store' : τ)
    (h : ({ store } : StreamSystem σ).run as = some s) : Unaffected store store' as s where
  possible := by
    have hout : ({ store := store' } : StreamSystem τ).outside.runOutside (unwritten as) =
        some s.outside := run_outside h
    exact exists_run_of_outside (owing_init store') (unwritten_quiet as rfl) hout
  indistinct bs u hb hsame := indistinct_of_outside (outside_eq_of_run h hb hsame)
  goes_on bs u hb hsame later u' hlater := by
    have hout := run_outside hlater
    rw [← outside_eq_of_run h hb hsame] at hout
    exact exists_run_of_outside (owing_run (owing_init store) h) (unwritten_quiet later rfl) hout

/-- A stream that has an id to itself is served over every store as it is over one that never
fails. -/
theorem served_of_run {store : σ} (h : ({ store } : StreamSystem σ).run as = some s)
    {id : SessionId} {t : StreamTask} {answer : Answer} (ho : s.Owns n id)
    (ht : s.tasks[n]? = some t) (hheard : signals n as <+: answer.signals) :
    Served as s n answer t := by
  have hun := unaffected_of_run store ({} : MemoryStore) h
  obtain ⟨bs, u, hb, hsame⟩ := hun.possible
  have hout := outside_eq_of_run h hb hsame
  obtain ⟨v, hv, hvt⟩ := exists_task_of_outside hout ht
  have ho' := owns_of_outside hout ho
  have hheard' : signals n bs <+: answer.signals := by
    rw [← signals_unwritten, hsame, signals_unwritten]
    exact hheard
  obtain ⟨hcancelled, hyielded, hrecorded, hsession, hpoll⟩ := StreamTask.same_of_outside hvt
  obtain ⟨r, l, -, rfl, hrun⟩ := run_lane reliable_memoryStore trivial hb ho' hv
  refine ⟨?_, ?_, fun hc hend => ?_, fun hc => ?_⟩
  · obtain ⟨more, hread, -⟩ := hrun.kept.exists_read
    rw [← hyielded, ← hrecorded]
    exact (List.prefix_append _ more).trans hread
  · rw [← hrecorded, ← hsession, hrun.session_eq.2]
    exact hrun.recorded_le hheard'
  · rw [← hyielded, ← hsession, hrun.session_eq.2]
    exact (hrun.ended (hcancelled.trans hc) (hpoll.trans hend) hheard').1
  · have hing : Ingesting ({} : MemoryStore) answer n id bs u l.task :=
      ⟨hb, hv, ho', hcancelled.trans hc, hheard'⟩
    obtain ⟨later, u', v', hlater, hend⟩ := hing.exists_end reliable_memoryStore trivial
    have hstep : u.run later = some u' := by
      have hall := hlater.run_eq
      rwa [run_append, hb] at hall
    obtain ⟨more, s', hmore, hagain⟩ := hun.goes_on bs u hb hsame later u' hstep
    have hboth : unwritten (bs ++ later) = unwritten (as ++ more) := by
      rw [unwritten_append, unwritten_append, hsame, hagain]
    have hmore' : ({ store } : StreamSystem σ).run (as ++ more) = some s' := by
      rw [run_append, h]
      exact hmore
    have hout' := outside_eq_of_run hmore' hlater.run_eq hboth
    obtain ⟨t', ht', htv⟩ := exists_task_of_outside hout'.symm hlater.task_eq
    obtain ⟨hcancelled', -, -, -, hpoll'⟩ := StreamTask.same_of_outside htv
    refine ⟨more, s', t', hmore, ht', ?_, hcancelled'.trans hlater.uncancelled,
      hpoll'.trans hend⟩
    rw [← signals_unwritten, ← hboth, signals_unwritten]
    exact hlater.heard

/-- **The recovery store is not seen outside.** Whatever its operations answer and whichever of them
fail, in every run of every number of streams, over every content. -/
theorem store_unseen (store : σ) (store' : τ) (h : ({ store } : StreamSystem σ).run as = some s) :
    Unaffected store store' as s ∧
      ∀ (n : Nat) (id : SessionId) (t : StreamTask) (answer : Answer), s.Owns n id →
        s.tasks[n]? = some t → signals n as <+: answer.signals → Served as s n answer t :=
  ⟨unaffected_of_run store store' h, fun _ _ _ _ ho ht hheard => served_of_run h ho ht hheard⟩

/-- A store with a text of an earlier stream. -/
def oldStore : MemoryStore := ⟨OrderedMap.empty.insert pullRequest.id.text "old"⟩

/-- The same store, when none of its operations succeeds. -/
def brokenStore : FaultyStore MemoryStore :=
  ⟨oldStore, { put := true, get := true, remove := true, list := true }⟩

/-- Over a store that says that the entry is there, no pending mark is written. -/
def unmarkedRun : List StreamAction :=
  [.start pullRequest, .respond 0 (.status 200), .lookUp 0, .mark 0,
    .receive 0 (.chunk shortBody), .record 0, .write 0, .send 0, .read 0,
    .record 0, .write 0, .send 0, .finish 0, .read 0]

/-- The reader gets a delta and `done` over the one store as over the other. The one has cleared the
entry at the end, the other has kept what it had. -/
theorem store_unseen_of_brokenStore :
    ∃ s : StreamSystem (FaultyStore MemoryStore), ∃ u : StreamSystem MemoryStore, ∃ t : StreamTask,
      ({ store := brokenStore } : StreamSystem (FaultyStore MemoryStore)).run wholeRun = some s ∧
      ({ store := oldStore } : StreamSystem MemoryStore).run unmarkedRun = some u ∧
      unwritten unmarkedRun = unwritten wholeRun ∧ s.Owns 0 pullRequest.id ∧
      s.tasks[0]? = some t ∧ t.yielded = [.delta "a", .done] ∧ s.store = brokenStore ∧
      RecoveryStore.get u.store pullRequest.id.text = .ok none ∧
      Unaffected brokenStore oldStore wholeRun s ∧
      Served wholeRun s 0 ⟨.status 200, [shortBody], .ends⟩ t := by
  have hex : ∃ s : StreamSystem (FaultyStore MemoryStore), ∃ u : StreamSystem MemoryStore,
      ∃ t : StreamTask,
      ({ store := brokenStore } : StreamSystem (FaultyStore MemoryStore)).run wholeRun = some s ∧
      ({ store := oldStore } : StreamSystem MemoryStore).run unmarkedRun = some u ∧
      unwritten unmarkedRun = unwritten wholeRun ∧ s.Owns 0 pullRequest.id ∧
      s.tasks[0]? = some t ∧ t.yielded = [.delta "a", .done] ∧ s.store = brokenStore ∧
      RecoveryStore.get u.store pullRequest.id.text = .ok none :=
    ⟨_, _, _, rfl, rfl, rfl, owns_of_single rfl rfl, rfl, rfl, rfl, rfl⟩
  obtain ⟨s, u, t, hs, hu, hsame, howns, ht, hyielded, hstore, hget⟩ := hex
  have hall := store_unseen brokenStore oldStore hs
  have hheard : signals 0 wholeRun <+: Answer.signals ⟨.status 200, [shortBody], .ends⟩ :=
    ⟨[.body .ends], rfl⟩
  exact ⟨s, u, t, hs, hu, hsame, howns, ht, hyielded, hstore, hget, hall.1,
    hall.2 0 pullRequest.id t _ howns ht hheard⟩

end StreamSystem
end LanInference
