/-
# What is announced and what is held

The resolver tells instances apart by name, the engine tells endpoints apart by key, and several
instances may be announced at one address and port. A scan that is left alone holds a key exactly if
the last event about it is that a service has been added (`World.Follows`). So whatever is held is
announced, and what is announced is held unless instances have shared its key: when one of those
leaves, the key goes with it, though another is still announced (`World.lost_of_sharedKey`).

Key definitions: `Engine.knows`, `Action.spares`, `World.Follows`, `World.AtRest`, `World.Mirrored`.
Key theorems: `Engine.knows_onReport`, `World.Follows.step`, `World.comes_to_rest`,
`World.Reachable.mirrored`.
-/
import LanInference.Proofs.Discovery.Instances
import LanInference.Proofs.Discovery.Isolation

namespace LanInference

/-! ### Keys the engine knows -/

/-- In normal power there is no budget. -/
theorem PollingPolicy.unbounded_of_normal {p : PowerState} (h : p.lowPowerMode = false)
    (userInitiated : Bool) (floor confirmed : Nat) :
    (ofState p userInitiated floor).budgetExhausted confirmed = false := by
  have hnone : (ofState p userInitiated floor).validationBudget = none := by
    unfold ofState
    cases p.inBackground <;> cases userInitiated <;> simp [h]
  rw [budgetExhausted, hnone]

/-- The event that a report tells of a pass. -/
def Report.eventOf (generation pass : Nat) : Report → Option BrowseEvent
  | browse g p event => if g = generation ∧ p = pass then some event else none
  | _ => none

theorem Report.eventOf_eq_none {generation pass : Nat} {r : Report}
    (h : r.generation ≠ generation) : r.eventOf generation pass = none := by
  cases r with
  | browse g p event => exact if_neg fun hall => h hall.1
  | passEnded | validated => rfl

namespace Engine

/-- Whether a key is held or pending. -/
def knows (e : Engine) (k : EndpointKey) : Bool :=
  e.endpoints.contains k || e.session.any (·.pending.contains k.text)

variable {now : Nat} {e e' : Engine} {es : List Effect} {s : ScanSession} {k : EndpointKey}

theorem knows_eq (hs : e.session = some s) :
    e.knows k = (e.endpoints.contains k || s.pending.contains k.text) := by
  rw [knows, hs]
  rfl

theorem knows_of_ledger {held : EndpointSet} {generation g : Nat} {pending : OrderedMap Unit}
    (h : e.ledger = ⟨held, generation, some (g, pending)⟩) :
    e.knows k = (held.contains k || pending.contains k.text) := by
  have hheld : e.endpoints = held := congrArg Ledger.held h
  obtain ⟨s, hs, _, hpending⟩ := ledger_session_eq_some_iff.mp (congrArg Ledger.session h)
  rw [knows_eq hs, hheld, hpending]

/-- A service that is added is known from then on. -/
theorem knows_onAdded (hs : e.session = some s) (hlow : e.power.lowPowerMode = false)
    (service : Service) :
    (e.onAdded s service).1.knows k = (decide (service.key = k) || e.knows k) := by
  unfold onAdded policy
  dsimp only
  by_cases hknown : (e.endpoints.contains service.key || s.pending.contains service.key.text) = true
  · rw [if_pos hknown]
    by_cases hkey : service.key = k
    · rw [knows_eq hs, ← hkey, hknown, Bool.or_true]
    · rw [decide_eq_false hkey, Bool.false_or]
  · rw [if_neg hknown, PollingPolicy.unbounded_of_normal hlow, if_neg Bool.false_ne_true,
      knows_eq (s := { s with pending := s.pending.insert service.key.text () }) rfl, knows_eq hs,
      OrderedMap.contains_insert, Bool.or_left_comm]
    simp only [EndpointKey.text_inj, eq_comm]

/-- A service that has gone is not known any more. -/
theorem knows_onRemoved (hs : e.session = some s) (service : Service) :
    (e.onRemoved s service).1.knows k = (decide (service.key ≠ k) && e.knows k) := by
  have hafter : (e.onRemoved s service).1.knows k =
      ((e.endpoints.remove service.key).1.contains k ||
        (s.pending.erase service.key.text).contains k.text) := rfl
  rw [hafter, EndpointSet.contains_remove, OrderedMap.contains_erase, ← Bool.and_or_distrib_left,
    knows_eq hs]
  simp only [ne_eq, EndpointKey.text_inj, eq_comm]

/-- A service that is accepted was known, and stays so. -/
theorem knows_answered (hs : e.session = some s) {service : Service}
    (hpending : s.pending.contains service.key.text = true) :
    (e.answered s service (e.endpoints.insert (.ofService service)).1).knows k = e.knows k := by
  have hafter : (e.answered s service (e.endpoints.insert (.ofService service)).1).knows k =
      ((e.endpoints.insert (.ofService service)).1.contains k ||
        (s.pending.erase service.key.text).contains k.text) := rfl
  have hkey : (Endpoint.ofService service).key = service.key := rfl
  rw [hafter, EndpointSet.contains_insert, OrderedMap.contains_erase, knows_eq hs, hkey]
  by_cases hk : k.text = service.key.text
  · simp [hk, hpending]
  · simp [hk]

/-- **What taking a report does to the keys known**: an event of the current pass tells, and
validations that accept tell nothing. -/
theorem knows_onReport {pass : Nat} (hs : e.session = some s) (hp : s.pass = some pass)
    (hlow : e.power.lowPowerMode = false) (m : Moment) (r : Report)
    (hok : ∀ service ok, r = .validated s.generation service ok → ok = true) :
    (e.onReport m r).1.knows k =
      (r.eventOf s.generation pass).toList.foldl (BrowseEvent.tells k) (e.knows k) := by
  cases r with
  | browse g p event =>
    simp only [onReport, hs, hp, Option.some.injEq, Report.eventOf]
    by_cases h : s.generation = g ∧ pass = p
    · rw [if_pos h, if_pos ⟨h.1.symm, h.2.symm⟩]
      cases event with
      | added service => exact knows_onAdded hs hlow service
      | removed service => exact knows_onRemoved hs service
    · rw [if_neg h, if_neg fun hall => h ⟨hall.1.symm, hall.2.symm⟩]
      rfl
  | passEnded g p error =>
    simp only [onReport, hs, Report.eventOf]
    split
    · cases error with
      | none => exact (knows_eq hs).symm
      | some reason =>
        dsimp only
        split
        · exact (knows_eq hs).symm
        · rfl
    · rfl
  | validated g service ok =>
    simp only [onReport, hs, Report.eventOf]
    by_cases h : s.generation = g ∧ s.pending.contains service.key.text = true
    · rw [if_pos h, hok service ok (by rw [h.1]), if_pos rfl]
      exact knows_answered hs h.2
    · rw [if_neg h]
      rfl

/-- In the foreground and in normal power a start begins a pass. -/
theorem start_runs (e : Engine) (userInitiated : Bool) {m : Moment}
    (hforeground : m.rereading.inBackground = false) (hnormal : m.rereading.lowPowerMode = false) :
    ∃ before timeout, (e.start m userInitiated).1.power = m.rereading ∧
      (e.start m userInitiated).1.current = some (e.generation + 1, e.passes + 1) ∧
      (e.start m userInitiated).2 =
        before ++ [.startPass (e.generation + 1) (e.passes + 1) timeout] := by
  have hpolls := polls_of_tick (e := e.renewed userInitiated m.reading)
    (s := e.freshSession userInitiated) rfl m.again
  rw [start_eq]
  generalize (e.renewed userInitiated m.reading).tick m.again = r at hpolls ⊢
  obtain ⟨e', es⟩ := r
  cases hpolls with
  | pause h =>
    have hbackground : m.rereading.inBackground = true := h.1
    rw [hforeground] at hbackground
    cases hbackground
  | skip _ h =>
    have hlow : m.rereading.lowPowerMode = true := h.1
    rw [hnormal] at hlow
    cases hlow
  | run => exact ⟨_, _, rfl, rfl, rfl⟩

/-- A report that does not fail the current pass leaves it and the reading as they were. -/
theorem Turn.keeps_pass {r : Report} {generation pass : Nat} (h : Turn now (some r) e e' es)
    (hc : e.current = some (generation, pass))
    (hr : ∀ reason, r ≠ .passEnded generation pass (some reason)) :
    e'.current = some (generation, pass) ∧ e'.power = e.power ∧ ∀ x ∈ es, x.isPass = false := by
  cases h with
  | rest => exact ⟨hc, rfl, by simp⟩
  | ask hs => exact ⟨(current_eq hs).symm.trans hc, rfl, by simp [Effect.isPass]⟩
  | drop hs =>
    refine ⟨(current_eq hs).symm.trans hc, rfl, ?_⟩
    unfold onRemoved
    dsimp only
    split <;> simp [Effect.isPass, publish]
  | @fail _ s p reason hs hp =>
    rw [current_eq hs, hp, Option.map_some, Option.some.injEq, Prod.mk.injEq] at hc
    obtain ⟨rfl, rfl⟩ := hc
    exact absurd rfl (hr reason)
  | succeed _ hs => exact ⟨(current_eq hs).symm.trans hc, rfl, by simp⟩
  | refuse hs => exact ⟨(current_eq hs).symm.trans hc, rfl, by simp⟩
  | accept hs =>
    refine ⟨(current_eq hs).symm.trans hc, rfl, ?_⟩
    split <;> simp [Effect.isPass]

end Engine

/-! ### A scan that is left alone -/

/-- Whether an action leaves a scan with that pass alone: no command, timer or shutdown, the pass
does not end, and every validation accepts. -/
def Action.spares (pass : Nat) : Action → Bool
  | command .. | timer _ | shutdown => false
  | passEnds p _ => p ≠ pass
  | validated _ ok => ok
  | _ => true

/-- The event that a pass sees. -/
def Action.seenBy (pass : Nat) : Action → Option BrowseEvent
  | browse p event => if p = pass then some event else none
  | _ => none

/-- Whether a report is of something that a pass has seen. -/
def Report.isBrowse : Report → Bool
  | browse .. => true
  | _ => false

namespace World

variable {w w' : World} {a : Action} {generation pass : Nat} {seen : List BrowseEvent}

/-- The engine with the reports on its way to it knows the keys that were added last. -/
structure Follows (generation pass : Nat) (seen : List BrowseEvent) (w : World) : Prop where
  current : w.engine.current = some (generation, pass)
  normal : w.engine.power.lowPowerMode = false
  running : pass ∈ w.passIds
  generation_eq : ∀ t ∈ w.passes, t.pass = pass → t.generation = generation
  accepted : ∀ service ok, .validated generation service ok ∈ w.mailbox → ok = true
  told : ∀ k, (w.mailbox.filterMap (·.eventOf generation pass)).foldl (BrowseEvent.tells k)
    (w.engine.knows k) = addedLast k seen

/-- A report comes in. -/
theorem Follows.post {r : Report} (h : w.Follows generation pass seen)
    (hengine : w'.engine = w.engine) (hmailbox : w'.mailbox = w.mailbox ++ [r])
    (hrunning : pass ∈ w'.passIds) (hpasses : ∀ t ∈ w'.passes, t ∈ w.passes)
    (hr : ∀ service ok, r = .validated generation service ok → ok = true) :
    w'.Follows generation pass (seen ++ (r.eventOf generation pass).toList) := by
  refine ⟨hengine ▸ h.current, hengine ▸ h.normal, hrunning,
    fun t ht => h.generation_eq t (hpasses t ht), fun service ok hmem => ?_, fun k => ?_⟩
  · rw [hmailbox] at hmem
    rcases List.mem_append.mp hmem with hmem | hmem
    · exact h.accepted service ok hmem
    · exact hr service ok (List.mem_singleton.mp hmem).symm
  · rw [hengine, hmailbox, List.filterMap_append, List.foldl_append, h.told k,
      List.filterMap_eq_flatMap_toList, List.flatMap_singleton, addedLast, addedLast,
      List.foldl_append]

/-- The engine takes a report. -/
theorem Follows.deliver {reading : PowerState} (h : w.Follows generation pass seen)
    (hkept : w.PassesKept) (hstep : w.step (.deliver reading) = some w') :
    w'.Follows generation pass seen := by
  obtain ⟨r, rest, hm, rfl⟩ := report_of_deliver hstep
  obtain ⟨s, hs, rfl, hp⟩ := Engine.current_eq_some_iff.mp h.current
  have hmem : r ∈ w.mailbox := hm ▸ List.mem_cons_self
  -- The pass still runs, so it has not reported its end.
  have hunfailed : ∀ reason, r ≠ .passEnded s.generation pass (some reason) := by
    rintro reason rfl
    exact (hkept.reported _ _ _ hmem).1 h.running
  have hok : ∀ service ok, r = .validated s.generation service ok → ok = true := by
    rintro service ok rfl
    exact h.accepted service ok hmem
  obtain ⟨hcurrent, hpower, hquiet⟩ := (Engine.turn_of_onReport w.engine
    ⟨w.now, reading, reading⟩ r).keeps_pass h.current hunfailed
  have hpasses := passes_after_quiet (w := { w with mailbox := rest })
    (e := (w.engine.onReport ⟨w.now, reading, reading⟩ r).1) hquiet
  refine ⟨?_, ?_, ?_, ?_, ?_, fun k => ?_⟩
  · rw [after_engine]
    exact hcurrent
  · rw [after_engine, hpower]
    exact h.normal
  · rw [passIds, hpasses]
    exact h.running
  · rw [hpasses]
    exact h.generation_eq
  · rw [after_mailbox]
    exact fun service ok hrest => h.accepted service ok (hm ▸ List.mem_cons_of_mem _ hrest)
  · -- What the report tells moves from the mailbox into what the engine knows.
    have htold := h.told k
    rw [hm, List.filterMap_eq_flatMap_toList, List.flatMap_cons, List.foldl_append,
      ← List.filterMap_eq_flatMap_toList] at htold
    rw [after_engine, after_mailbox, Engine.knows_onReport hs hp h.normal _ r hok]
    exact htold

theorem PassesKept.eq_of_pass_eq {t u : PassTask} (h : w.PassesKept) (ht : t ∈ w.passes)
    (hu : u ∈ w.passes) (hpass : t.pass = u.pass) : t = u :=
  List.inj_on_of_nodup_map (h.ascending.imp fun hlt => Nat.ne_of_lt hlt) ht hu hpass

/-- A scan that starts with nothing knows nothing. -/
theorem follows_of_start {floor : Nat} {userInitiated : Bool} {p q : PowerState}
    (h : Reachable floor w) (hstart : w.step (.command (.start userInitiated) p q) = some w')
    (hempty : userInitiated = true ∨ w.engine.endpoints = .empty)
    (hforeground : q.inBackground = false) (hnormal : q.lowPowerMode = false) :
    w'.Follows (w.engine.generation + 1) (w.engine.passes + 1) [] := by
  obtain ⟨before, timeout, hpower, hcurrent, heffects⟩ :=
    w.engine.start_runs (m := ⟨w.now, p, q⟩) userInitiated hforeground hnormal
  have hledger := Engine.ledger_start_of_nothing ⟨w.now, p, q⟩ hempty
  have hw := step_command hstart
  rw [Engine.onCommand] at hw
  have hengine := hw ▸ after_engine w _
  have hmailbox := hw ▸ after_mailbox w _
  have hold : ∀ r ∈ w'.mailbox, r.generation ≤ w.engine.generation :=
    hmailbox ▸ h.dated.reports
  obtain ⟨t, ht, hgeneration, hid⟩ : ∃ t ∈ w'.passes, t.generation = w.engine.generation + 1 ∧
      t.pass = w.engine.passes + 1 := by
    have hlast : w' = (w.after ((w.engine.start ⟨w.now, p, q⟩ userInitiated).1, before)).after
        ((w.engine.start ⟨w.now, p, q⟩ userInitiated).1,
          [.startPass (w.engine.generation + 1) (w.engine.passes + 1) timeout]) := by
      rw [hw, ← after_append, ← heffects]
    rw [hlast]
    exact ⟨_, List.mem_append_right _ (List.mem_singleton_self _), rfl, rfl⟩
  refine ⟨?_, ?_, List.mem_map.mpr ⟨t, ht, hid⟩, fun u hu hpass => ?_, ?_, fun k => ?_⟩
  · rw [hengine]
    exact hcurrent
  · rw [hengine, hpower]
    exact hnormal
  · rw [(h.step hstart).passesKept.eq_of_pass_eq hu ht (hpass.trans hid.symm)]
    exact hgeneration
  · intro service ok hmem
    exact absurd (hold _ hmem) (Nat.not_succ_le_self _)
  · have hnone : w'.mailbox.filterMap
        (·.eventOf (w.engine.generation + 1) (w.engine.passes + 1)) = [] := by
      refine List.filterMap_eq_nil_iff.mpr fun r hr => Report.eventOf_eq_none ?_
      have hle := hold r hr
      omega
    rw [hnone, hengine, Engine.knows_of_ledger hledger]
    rfl

/-- **While a scan is left alone the engine follows what its pass sees.** -/
theorem Follows.step (h : w.Follows generation pass seen) (hkept : w.PassesKept)
    (ha : a.spares pass = true) (hstep : w.step a = some w') :
    w'.Follows generation pass (seen ++ (a.seenBy pass).toList) := by
  have haside : a.isInput = false → a.traffic = .still →
      w'.Follows generation pass (seen ++ []) := by
    intro hinput hstill
    obtain ⟨_, _, rfl⟩ := aside_of_step hstep hinput hstill
    rw [List.append_nil]
    exact ⟨h.current, h.normal, h.running, h.generation_eq, h.accepted, h.told⟩
  cases a with
  | command | timer | shutdown => cases ha
  | elapse | subscribe | unsubscribe | poll => exact haside rfl rfl
  | deliver reading =>
    have hafter := h.deliver hkept hstep
    rwa [← List.append_nil seen] at hafter
  | browse p event =>
    obtain ⟨t, ht, rfl⟩ := Option.map_eq_some_iff.mp hstep
    have hid : t.pass = p := by simpa using List.find?_some ht
    have hmem := List.mem_of_find?_eq_some ht
    have hpost : Follows generation pass
        (seen ++ ((Report.browse t.generation p event).eventOf generation pass).toList)
        { w with mailbox := w.mailbox ++ [.browse t.generation p event] } :=
      h.post rfl rfl h.running (fun _ ht => ht) (by simp)
    have hsame : (Report.browse t.generation p event).eventOf generation pass =
        (Action.browse p event).seenBy pass := by
      show (if t.generation = generation ∧ p = pass then some event else none) =
        if p = pass then some event else none
      by_cases hp : p = pass
      · rw [if_pos ⟨h.generation_eq t hmem (hid.trans hp), hp⟩, if_pos hp]
      · rw [if_neg fun hall => hp hall.2, if_neg hp]
    rwa [hsame] at hpost
  | passEnds p error =>
    obtain ⟨t, ht, rfl⟩ := Option.map_eq_some_iff.mp hstep
    refine h.post (r := .passEnded t.generation p error) rfl rfl ?_
      (fun _ ht => (List.mem_filter.mp ht).1) (by simp)
    obtain ⟨u, hu, hid⟩ := List.mem_map.mp h.running
    refine List.mem_map.mpr ⟨u, List.mem_filter.mpr ⟨hu, ?_⟩, hid⟩
    rw [hid]
    simpa [Action.spares, ne_comm] using ha
  | validated serial ok =>
    obtain ⟨t, ht, rfl⟩ := Option.map_eq_some_iff.mp hstep
    refine h.post (r := .validated t.generation t.service ok) rfl rfl h.running (fun _ ht => ht) ?_
    rintro service result heq
    cases heq
    exact ha

theorem Follows.run {floor : Nat} : ∀ (as : List Action) {seen : List BrowseEvent} {w w' : World},
    Reachable floor w → w.Follows generation pass seen → (∀ a ∈ as, a.spares pass = true) →
    w.run as = some w' → w'.Follows generation pass (seen ++ as.filterMap (·.seenBy pass))
  | [], seen, w, w', _, h, _, hrun => by
    cases hrun
    rwa [List.filterMap_nil, List.append_nil]
  | a :: as, seen, w, w', hreach, h, hspares, hrun => by
    rw [run_cons] at hrun
    obtain ⟨v, hstep, hrun⟩ := Option.bind_eq_some_iff.mp hrun
    have hv := h.step hreach.passesKept (hspares a List.mem_cons_self) hstep
    have hall := Follows.run as (hreach.step hstep) hv
      (fun x hx => hspares x (List.mem_cons_of_mem _ hx)) hrun
    rwa [List.filterMap_eq_flatMap_toList, List.flatMap_cons, ← List.append_assoc,
      ← List.filterMap_eq_flatMap_toList]

/-! ### Coming to rest -/

/-- Nothing of a session is in flight. -/
structure AtRest (generation : Nat) (w : World) : Prop where
  validations : ∀ t ∈ w.validations, t.generation ≠ generation
  mailbox : ∀ r ∈ w.mailbox, r.generation ≠ generation

/-- How much is left to do, at most: each report is taken, a browse event may begin a validation,
and that reports once more. -/
def unrest (w : World) : Nat :=
  w.mailbox.length + 2 * (w.mailbox.countP (·.isBrowse) + w.validations.length)

/-- As long as something is in flight something can be done about it. -/
theorem exists_calming (reading : PowerState) (ho : w.isOpen = true)
    (hbusy : ¬ (w.mailbox = [] ∧ w.validations = [])) : ∃ a w', w.step a = some w' ∧
      (a = .deliver reading ∨ ∃ serial, a = .validated serial true) ∧ w'.isOpen = true ∧
      w'.unrest < w.unrest := by
  cases hm : w.mailbox with
  | cons r rest =>
    refine ⟨.deliver reading, _, step_deliver reading ho hm, .inl rfl, ?_, ?_⟩
    · rwa [after_isOpen]
    · have hdealing := (Engine.turn_of_onReport w.engine ⟨w.now, reading, reading⟩ r).dealing
      rw [unrest, unrest, after_mailbox, hm, List.length_cons, List.countP_cons]
      rcases hdealing.quiet_or_asks with hq | ⟨s, pass, service, probe, _, hr, _, _, hes⟩
      · have hsame := validations_after_quiet (w := { w with mailbox := rest })
          (e := (w.engine.onReport ⟨w.now, reading, reading⟩ r).1) hq
        rw [hsame.1]
        dsimp only
        omega
      · cases hr
        rw [after, hes]
        simp only [List.foldl_cons, List.foldl_nil, perform, List.length_append,
          List.length_singleton, Report.isBrowse, if_true]
        omega
  | nil =>
    cases hv : w.validations with
    | nil => exact absurd ⟨hm, hv⟩ hbusy
    | cons t ts =>
      have hfind : w.findValidation? t.serial = some t := by
        rw [findValidation?, hv]
        exact List.find?_cons_of_pos (by simp)
      have hfewer := List.length_filter_le (·.serial ≠ t.serial) ts
      have hstep : w.step (.validated t.serial true) = some { w with
          validations := w.validations.filter (·.serial ≠ t.serial)
          mailbox := w.mailbox ++ [.validated t.generation t.service true] } := by
        rw [World.step, hfind]
        rfl
      refine ⟨.validated t.serial true, _, hstep, .inr ⟨_, rfl⟩, ho, ?_⟩
      rw [unrest, unrest, hm, hv, List.filter_cons_of_neg (by simp)]
      simp only [List.nil_append, List.length_cons, List.length_nil, List.countP_cons,
        List.countP_nil, Report.isBrowse, Bool.false_eq_true, if_false]
      omega

/-- **Everything comes to rest** when reports are taken and validations accept. -/
theorem comes_to_rest (reading : PowerState) (w : World) (ho : w.isOpen = true) :
    ∃ as w', w.run as = some w' ∧
      (∀ a ∈ as, a = .deliver reading ∨ ∃ serial, a = .validated serial true) ∧
      w'.mailbox = [] ∧ w'.validations = [] := by
  by_cases hbusy : w.mailbox = [] ∧ w.validations = []
  · exact ⟨[], w, rfl, by simp, hbusy.1, hbusy.2⟩
  · obtain ⟨a, w', hstep, ha, ho', hless⟩ := exists_calming reading ho hbusy
    obtain ⟨as, w'', hrun, has, hrest⟩ := comes_to_rest reading w' ho'
    refine ⟨a :: as, w'', ?_, ?_, hrest⟩
    · rw [run_cons, hstep]
      exact hrun
    · intro x hx
      rcases List.mem_cons.mp hx with rfl | hx
      · exact ha
      · exact has x hx
termination_by w.unrest

/-- While a scan is left alone its pass may see whatever comes, and all comes to rest after it. -/
theorem Follows.continues {floor : Nat} (hreach : Reachable floor w)
    (h : w.Follows generation pass seen) (events : List BrowseEvent) : ∃ as w',
      w.run as = some w' ∧ (∀ a ∈ as, a.spares pass = true) ∧
      as.filterMap (·.seenBy pass) = events ∧ w'.AtRest generation := by
  induction events generalizing w seen with
  | nil =>
    have ho : w.isOpen = true := by
      by_contra hclosed
      have hcurrent := h.current
      rw [Engine.current, hreach.settled.2 (by simpa using hclosed)] at hcurrent
      cases hcurrent
    obtain ⟨as, w', hrun, has, hmailbox, hvalidations⟩ := comes_to_rest .nominal w ho
    refine ⟨as, w', hrun, ?_, List.filterMap_eq_nil_iff.mpr ?_, ?_, ?_⟩
    · intro a ha
      rcases has a ha with rfl | ⟨serial, rfl⟩ <;> rfl
    · intro a ha
      rcases has a ha with rfl | ⟨serial, rfl⟩ <;> rfl
    · simp [hvalidations]
    · simp [hmailbox]
  | cons event events ih =>
    obtain ⟨t, ht, hid⟩ := List.mem_map.mp h.running
    obtain ⟨u, hu⟩ := Option.isSome_iff_exists.mp
      (List.find?_isSome (p := (·.pass = pass)).mpr ⟨t, ht, by simpa using hid⟩)
    have hstep : w.step (.browse pass event) = some { w with
        mailbox := w.mailbox ++ [.browse u.generation pass event] } := by
      rw [World.step, findPass?, hu]
      rfl
    have hsees : (Action.browse pass event).seenBy pass = some event := if_pos rfl
    obtain ⟨as, w', hrun, has, hseen, hrest⟩ :=
      ih (hreach.step hstep) (h.step hreach.passesKept rfl hstep)
    refine ⟨.browse pass event :: as, w', ?_, ?_, ?_, hrest⟩
    · rw [run_cons, hstep]
      exact hrun
    · intro a ha
      rcases List.mem_cons.mp ha with rfl | ha
      · rfl
      · exact has a ha
    · rw [List.filterMap_cons, hsees, hseen]

/-- At rest exactly the keys are held that were added last. -/
theorem Follows.contains_eq (h : w.Follows generation pass seen) (hb : w.Bookkept)
    (hrest : w.AtRest generation) (k : EndpointKey) :
    w.engine.endpoints.contains k = addedLast k seen := by
  obtain ⟨s, hs, rfl, _⟩ := Engine.current_eq_some_iff.mp h.current
  have hnone : w.mailbox.filterMap (·.eventOf s.generation pass) = [] :=
    List.filterMap_eq_nil_iff.mpr fun r hr => Report.eventOf_eq_none (hrest.mailbox r hr)
  have hsettled : s.pending.contains k.text = false := by
    by_contra hpending
    rcases hb.awaited _ _ (Engine.ledger_session hs) k (by simpa using hpending) with
      ⟨t, ht, hg, _⟩ | ⟨service, ok, hmem, _⟩
    · exact hrest.validations t ht hg
    · exact hrest.mailbox _ hmem rfl
  have htold := h.told k
  rwa [hnone, List.foldl_nil, Engine.knows_eq hs, hsettled, Bool.or_false] at htold

/-! ### Reachable worlds -/

/-- How a scan that is left alone mirrors what is announced. Its pass may see whatever comes of any
reports, and all comes to rest after each of them. Then it holds a key exactly if the last event
about it is that a service has been added; what it holds is announced; and a key that no two
instances have shared is held exactly if it is announced. -/
structure Mirrored (w : World) (generation pass : Nat) : Prop where
  continues : ∀ as w', w.run as = some w' → (∀ a ∈ as, a.spares pass = true) →
    ∀ events, ∃ bs w'', w'.run bs = some w'' ∧ (∀ b ∈ bs, b.spares pass = true) ∧
      bs.filterMap (·.seenBy pass) = events ∧ w''.AtRest generation
  holds : ∀ as w', w.run as = some w' → (∀ a ∈ as, a.spares pass = true) → w'.AtRest generation →
    ∀ serviceType reports,
      as.filterMap (·.seenBy pass) = ((Instances.ofType serviceType).feed reports).2 →
    ∀ k, (w'.engine.endpoints.contains k =
        addedLast k ((Instances.ofType serviceType).feed reports).2) ∧
      (w'.engine.endpoints.contains k = true →
        ((Instances.ofType serviceType).feed reports).1.Announces k) ∧
      ((∀ before, before <+: reports →
          ((Instances.ofType serviceType).feed before).1.Single k) →
        (w'.engine.endpoints.contains k = true ↔
          ((Instances.ofType serviceType).feed reports).1.Announces k))

/-- **A scan that starts with nothing and is left alone mirrors what is announced.** -/
theorem Reachable.mirrored {floor : Nat} {userInitiated : Bool} {p q : PowerState} {w₁ : World}
    (h : Reachable floor w) (hstart : w.step (.command (.start userInitiated) p q) = some w₁)
    (hempty : userInitiated = true ∨ w.engine.endpoints = .empty)
    (hforeground : q.inBackground = false) (hnormal : q.lowPowerMode = false) :
    ∃ generation pass, w₁.engine.current = some (generation, pass) ∧
      w₁.Mirrored generation pass := by
  have hfollows := follows_of_start h hstart hempty hforeground hnormal
  have hreach := h.step hstart
  refine ⟨_, _, hfollows.current, ?_, ?_⟩
  · intro as w' hrun hspares events
    exact (hfollows.run as hreach hspares hrun).continues (hreach.run hrun) events
  · intro as w' hrun hspares hrest serviceType reports hseen k
    have hcontains := (hfollows.run as hreach hspares hrun).contains_eq (hreach.run hrun).bookkept
      hrest k
    rw [List.nil_append, hseen] at hcontains
    have hnothing : ¬ (Instances.ofType serviceType).Announces k :=
      Instances.not_announces_ofType serviceType k
    refine ⟨hcontains, fun hheld => ?_, fun hsingle => ?_⟩
    · exact Instances.announces_feed reports (by simp) (hcontains ▸ hheld)
    · rw [hcontains]
      exact Instances.announces_feed_iff reports hsingle (by simp [hnothing])

/-- Two instances are announced at one address and port, and one of them leaves. -/
def sharedKeyReports : List ResolverReport :=
  [.resolved "attic._http._tcp.local." [.v4 ⟨10, 0, 0, 5⟩] 8080,
    .resolved "cellar._http._tcp.local." [.v4 ⟨10, 0, 0, 5⟩] 8080,
    .removed "attic._http._tcp.local."]

/-- What comes of it, with the validation done before the next report. -/
def sharedKeyRun : List Action :=
  [.browse 1 (.added ⟨"attic", "10.0.0.5", 8080⟩), .deliver .nominal, .validated 0 true,
    .deliver .nominal, .browse 1 (.added ⟨"cellar", "10.0.0.5", 8080⟩), .deliver .nominal,
    .browse 1 (.removed ⟨"attic", "10.0.0.5", 8080⟩), .deliver .nominal]

theorem seen_of_sharedKeyRun : sharedKeyRun.filterMap (·.seenBy 1) =
    ((Instances.ofType "_http._tcp.local").feed sharedKeyReports).2 := by decide +kernel

theorem spares_of_sharedKeyRun : ∀ a ∈ sharedKeyRun, a.spares 1 = true := by decide

theorem world_of_sharedKeyRun : ∃ w₁ w' : World,
    (initial 10000 .nominal).step (.command (.start true) .nominal .nominal) = some w₁ ∧
      w₁.engine.current = some (1, 1) ∧ w₁.run sharedKeyRun = some w' ∧ w'.AtRest 1 ∧
      w'.engine.endpoints.contains (.ofHostPort "10.0.0.5" 8080) = false := by
  have hall : ((initial 10000 .nominal).step
      (.command (.start true) .nominal .nominal)).bind (fun w₁ =>
        (w₁.run sharedKeyRun).map fun w' => (w₁.engine.current, w'.validations, w'.mailbox,
          w'.engine.endpoints.contains (.ofHostPort "10.0.0.5" 8080))) =
            some (some (1, 1), [], [], false) := by
    decide +kernel
  obtain ⟨w₁, hw₁, hall⟩ := Option.bind_eq_some_iff.mp hall
  obtain ⟨w', hw', hall⟩ := Option.map_eq_some_iff.mp hall
  simp only [Prod.mk.injEq] at hall
  obtain ⟨hcurrent, hvalidations, hmailbox, hlost⟩ := hall
  exact ⟨w₁, w', hw₁, hcurrent, hw', ⟨by simp [hvalidations], by simp [hmailbox]⟩, hlost⟩

theorem mirrored_of_sharedKeyRun : ∃ w₁ w' : World,
    (initial 10000 .nominal).step (.command (.start true) .nominal .nominal) = some w₁ ∧
      w₁.Mirrored 1 1 ∧ w₁.run sharedKeyRun = some w' ∧
      w'.engine.endpoints.contains (.ofHostPort "10.0.0.5" 8080) =
        addedLast (.ofHostPort "10.0.0.5" 8080)
          ((Instances.ofType "_http._tcp.local").feed sharedKeyReports).2 := by
  obtain ⟨w₁, w', hw₁, hcurrent, hw', hrest, _⟩ := world_of_sharedKeyRun
  obtain ⟨generation, pass, hstarted, hmirrored⟩ :=
    @Reachable.mirrored _ 10000 true _ _ w₁ ⟨.nominal, [], rfl⟩ hw₁ (.inl rfl) rfl rfl
  rw [hcurrent, Option.some.injEq, Prod.mk.injEq] at hstarted
  obtain ⟨rfl, rfl⟩ := hstarted
  have hholds := hmirrored.holds sharedKeyRun w' hw' spares_of_sharedKeyRun hrest _ _
    seen_of_sharedKeyRun (.ofHostPort "10.0.0.5" 8080)
  exact ⟨w₁, w', hw₁, hmirrored, hw', hholds.1⟩

/-- **A key goes with the first of its instances that leaves**, though another is announced. -/
theorem lost_of_sharedKey : ∃ w₁ w' : World,
    (initial 10000 .nominal).step (.command (.start true) .nominal .nominal) = some w₁ ∧
      w₁.engine.current = some (1, 1) ∧ w₁.run sharedKeyRun = some w' ∧
      (∀ a ∈ sharedKeyRun, a.spares 1 = true) ∧ w'.AtRest 1 ∧
      sharedKeyRun.filterMap (·.seenBy 1) =
        ((Instances.ofType "_http._tcp.local").feed sharedKeyReports).2 ∧
      ((Instances.ofType "_http._tcp.local").feed sharedKeyReports).1.Announces
        (.ofHostPort "10.0.0.5" 8080) ∧
      w'.engine.endpoints.contains (.ofHostPort "10.0.0.5" 8080) = false := by
  obtain ⟨w₁, w', hw₁, hcurrent, hw', hrest, hlost⟩ := world_of_sharedKeyRun
  have hannounced : ((Instances.ofType "_http._tcp.local").feed sharedKeyReports).1.isAt
      "cellar._http._tcp.local" (.ofHostPort "10.0.0.5" 8080) = true := by decide +kernel
  have hshared : ((Instances.ofType "_http._tcp.local").feed sharedKeyReports).1.Announces
      (.ofHostPort "10.0.0.5" 8080) := Exists.intro _ hannounced
  exact ⟨w₁, w', hw₁, hcurrent, hw', spares_of_sharedKeyRun, hrest, seen_of_sharedKeyRun, hshared,
    hlost⟩

end World
end LanInference
