/-
# Stopped and superseded scans

Passes and validations go on when their session is gone, and what they report comes late. A report
counts only for the session it belongs to (`Engine.counts`), and one that does not count changes
nothing (`Engine.Turn.unchanged`). All that runs or is on its way when a scan starts belongs to an
earlier session (`World.Dated`), and sessions are never numbered twice; so after a start nothing of
an earlier session is heeded, and what a scan that the user asked for comes to hold was added and
validated since (`World.Backed`). From a stop to the next start nothing counts at all.

Key definitions: `Report.generation`, `Engine.counts`, `World.Dated`, `World.counted`,
`World.Earned`, `World.Isolated`.
Key theorems: `Engine.Turn.unchanged`, `World.Dated.change`, `World.Stopped.step`,
`World.Backed.step`, `World.Reachable.isolated`.
-/
import LanInference.Proofs.Discovery.Lifecycle
import LanInference.Proofs.Discovery.Subscriptions

namespace LanInference

/-- The session that a report belongs to. -/
def Report.generation : Report → Nat
  | browse generation .. | passEnded generation .. | validated generation .. => generation

/-! ### Reports that count -/

/-- Whether a report counts for a session: it belongs to it, a browse event comes from the current
pass, and the result of a validation is waited for. -/
def ScanSession.counts (s : ScanSession) (r : Report) : Bool :=
  s.generation = r.generation && match r with
    | .browse _ pass _ => s.pass = some pass
    | .passEnded .. => true
    | .validated _ service _ => s.pending.contains service.key.text

namespace Engine

/-- Whether a report counts. Without a session none does. -/
def counts (e : Engine) (r : Report) : Bool := e.session.any (·.counts r)

variable {now : Nat} {r : Option Report} {e e' : Engine} {es : List Effect}

/-- **A report that does not count changes nothing.** -/
theorem Turn.unchanged {r : Report} (h : Turn now (some r) e e' es) (hr : e.counts r = false) :
    e' = e ∧ es = [] := by
  cases h with
  | rest => exact ⟨rfl, rfl⟩
  | ask hs hp | drop hs hp | fail hs hp =>
    simp [counts, ScanSession.counts, hs, hp, Report.generation] at hr
  | succeed pass hs => simp [counts, ScanSession.counts, hs, Report.generation] at hr
  | refuse hs hpending | accept hs hpending =>
    simp [counts, ScanSession.counts, hs, hpending, Report.generation] at hr

theorem session_of_counts {r : Report} (h : e.counts r = true) :
    ∃ s, e.session = some s ∧ s.counts r = true := by
  unfold counts at h
  cases hs : e.session with
  | none =>
    rw [hs] at h
    cases h
  | some s =>
    rw [hs] at h
    exact ⟨s, rfl, h⟩

theorem generation_of_counts {r : Report} (h : e.counts r = true) :
    ∃ s, e.session = some s ∧ s.generation = r.generation := by
  obtain ⟨s, hs, hcounts⟩ := session_of_counts h
  exact ⟨s, hs, of_decide_eq_true (Bool.and_eq_true_iff.mp hcounts).1⟩

theorem current_of_counts {generation pass : Nat} {event : BrowseEvent}
    (h : e.counts (.browse generation pass event) = true) :
    e.current = some (generation, pass) := by
  obtain ⟨s, hs, hcounts⟩ := session_of_counts h
  obtain ⟨hgeneration, hpass⟩ := Bool.and_eq_true_iff.mp hcounts
  exact current_eq_some_iff.mpr ⟨s, hs, of_decide_eq_true hgeneration, of_decide_eq_true hpass⟩

/-! ### What sessions begin -/

/-- Sessions are numbered upwards. -/
theorem Dealing.generation_le (h : Dealing r e e' es) : e.generation ≤ e'.generation := by
  cases h with
  | keeps _ hl | ends _ hl | asks _ _ _ _ hl | drops _ _ _ hl | settles _ _ _ _ hl =>
    exact Nat.le_of_eq (congrArg Ledger.generation hl).symm
  | renews _ _ _ hl =>
    have hnext : e'.generation = e.generation + 1 := congrArg Ledger.generation hl
    omega

/-- A validation is asked for when a service has been added in the session it belongs to. -/
theorem Dealing.added {generation : Nat} {service : Service} {probe : ProbePolicy}
    (h : Dealing r e e' es) (hmem : .validate generation service probe ∈ es) :
    ∃ s pass, e.session = some s ∧ s.generation = generation ∧
      r = some (.browse generation pass (.added service)) := by
  rcases h.quiet_or_asks with hq | ⟨s, pass, added, _, hs, hr, _, _, rfl⟩
  · cases hq _ hmem
  · obtain ⟨rfl, rfl, _⟩ := Effect.validate.inj (List.mem_singleton.mp hmem)
    exact ⟨s, pass, hs, rfl, hr⟩

/-- What is held was held before, or has just been validated. -/
theorem Dealing.held {x : String × Endpoint} (h : Dealing r e e' es)
    (hx : x ∈ e'.endpoints.byKey.entries) : x ∈ e.endpoints.byKey.entries ∨
      ∃ s service, e.session = some s ∧ r = some (.validated s.generation service true) ∧
        x.2 = .ofService service := by
  cases h with
  | keeps _ hl | ends _ hl | asks _ _ _ _ hl =>
    have hheld : e'.endpoints = e.endpoints := congrArg Ledger.held hl
    exact .inl (hheld ▸ hx)
  | renews _ held hheld hl =>
    have hsame : e'.endpoints = held := congrArg Ledger.held hl
    rw [hsame] at hx
    rcases hheld with rfl | rfl
    · exact .inl hx
    · cases hx
  | @drops _ _ service _ _ _ hl =>
    have hheld : e'.endpoints = (e.endpoints.remove service.key).1 := congrArg Ledger.held hl
    exact .inl (EndpointSet.mem_entries_remove (hheld ▸ hx))
  | @settles s service ok hs _ hr hl =>
    have hheld : e'.endpoints = if ok then (e.endpoints.insert (.ofService service)).1
      else e.endpoints := congrArg Ledger.held hl
    rw [hheld] at hx
    cases ok with
    | false => exact .inl hx
    | true =>
      rcases EndpointSet.mem_entries_insert hx with rfl | hx
      · exact .inr ⟨s, service, hs, hr, rfl⟩
      · exact .inl hx

/-- A pass begins as the current one. -/
theorem Course.current_of_starts {generation pass : Nat} {timeout : Option Nat}
    (h : Course r e e' es) (hmem : .startPass generation pass timeout ∈ es) :
    e'.current = some (generation, pass) := by
  have hcancels : .startPass generation pass timeout ∉ e.cancels := by
    intro hcancel
    obtain ⟨_, _, hcancel⟩ := List.mem_map.mp hcancel
    cases hcancel
  cases h with
  | keeps _ _ hq => cases hq _ hmem
  | ends _ _ hes hq =>
    rw [hes] at hmem
    rcases List.mem_append.mp hmem with hmem | hmem
    · exact absurd hmem hcancels
    · cases hq _ hmem
  | begins _ _ hc _ hes hq =>
    rw [hes] at hmem
    rcases List.mem_append.mp hmem with hmem | hmem
    · rcases List.mem_append.mp hmem with hmem | hmem
      · exact absurd hmem hcancels
      · cases hq _ hmem
    · obtain ⟨rfl, rfl, _⟩ := Effect.startPass.inj (List.mem_singleton.mp hmem)
      exact hc
  | fails _ _ _ _ hes => cases hes ▸ hmem

end Engine

namespace World

variable {w w' w'' : World} {a : Action} {e : Engine} {es : List Effect}

/-! ### Tasks and reports belong to sessions that have begun -/

/-- The passes that run belong to sessions as before, or to those that passes were asked for. -/
theorem forall_passes_after {P : Nat → Prop} (h : ∀ t ∈ w.passes, P t.generation)
    (hes : ∀ generation pass timeout, .startPass generation pass timeout ∈ es → P generation) :
    ∀ t ∈ (w.after (e, es)).passes, P t.generation := by
  refine after_induct (P := fun v => ∀ t ∈ v.passes, P t.generation) h fun x hx v hv => ?_
  cases x with
  | publish | validate => exact hv
  | startPass generation pass timeout =>
    intro t ht
    rcases List.mem_append.mp ht with ht | ht
    · exact hv t ht
    · rw [List.mem_singleton.mp ht]
      exact hes generation pass timeout hx
  | cancelPass pass =>
    intro t ht
    obtain ⟨u, hu, rfl⟩ := List.mem_map.mp ht
    have hold := hv u hu
    split <;> exact hold

/-- The validations in flight are those of before and those asked for. -/
theorem forall_validations_after {P : Nat → Service → Prop}
    (h : ∀ t ∈ w.validations, P t.generation t.service)
    (hes : ∀ generation service probe, .validate generation service probe ∈ es →
      P generation service) :
    ∀ t ∈ (w.after (e, es)).validations, P t.generation t.service := by
  refine after_induct (P := fun v => ∀ t ∈ v.validations, P t.generation t.service) h
    fun x hx v hv => ?_
  cases x with
  | publish | startPass | cancelPass => exact hv
  | validate generation service probe =>
    intro t ht
    rcases List.mem_append.mp ht with ht | ht
    · exact hv t ht
    · rw [List.mem_singleton.mp ht]
      exact hes generation service probe hx

/-- Every task that runs and every report on its way belongs to a session that has begun. -/
structure Dated (w : World) : Prop where
  passes : ∀ t ∈ w.passes, t.generation ≤ w.engine.generation
  validations : ∀ t ∈ w.validations, t.generation ≤ w.engine.generation
  reports : ∀ r ∈ w.mailbox, r.generation ≤ w.engine.generation

theorem Change.generation_le (h : Change w a w') : w.engine.generation ≤ w'.engine.generation := by
  cases h with
  | turn ho hm ha hturn =>
    rw [after_engine]
    exact hturn.dealing.generation_le
  | sees | passEnds | validated | aside => exact Nat.le_refl _
  | shutdown =>
    rw [after_engine]
    exact Nat.le_of_eq (congrArg Ledger.generation w.engine.ledger_cancelSession).symm

theorem generation_le_run {as : List Action} (h : w.run as = some w') :
    w.engine.generation ≤ w'.engine.generation :=
  run_induct (P := fun v => w.engine.generation ≤ v.engine.generation) (Nat.le_refl _)
    (fun _ _ _ _ hle hstep => Nat.le_trans hle (change_of_step hstep).generation_le) h

/-- What the engine asks for belongs to the sessions it knows of. -/
theorem Dated.after (h : w.Dated) (hle : w.engine.generation ≤ e.generation)
    (hpasses : ∀ generation pass timeout, .startPass generation pass timeout ∈ es →
      generation ≤ e.generation)
    (hvalidations : ∀ generation service probe, .validate generation service probe ∈ es →
      generation ≤ e.generation) : (w.after (e, es)).Dated := by
  refine ⟨?_, ?_, ?_⟩
  · rw [after_engine]
    exact forall_passes_after (P := (· ≤ e.generation))
      (fun t ht => Nat.le_trans (h.passes t ht) hle) hpasses
  · rw [after_engine]
    exact forall_validations_after (P := fun generation _ => generation ≤ e.generation)
      (fun t ht => Nat.le_trans (h.validations t ht) hle) hvalidations
  · rw [after_engine, after_mailbox]
    exact fun r hr => Nat.le_trans (h.reports r hr) hle

/-- A task reports for the session it belongs to. -/
theorem Dated.reports_post {r : Report} (h : w.Dated) (hr : r.generation ≤ w.engine.generation) :
    ∀ x ∈ w.mailbox ++ [r], x.generation ≤ w.engine.generation := by
  intro x hx
  rcases List.mem_append.mp hx with hx | hx
  · exact h.reports x hx
  · rw [List.mem_singleton.mp hx]
    exact hr

theorem Dated.change (h : w.Dated) (hb : w.Bookkept) (hb' : w'.Bookkept) (hc : Change w a w') :
    w'.Dated := by
  have hcurrent : ∀ generation pass, w'.engine.current = some (generation, pass) →
      generation ≤ w'.engine.generation := by
    intro generation pass hcurrent
    obtain ⟨s, hs, rfl, _⟩ := Engine.current_eq_some_iff.mp hcurrent
    exact Nat.le_of_eq (hb'.generation_eq hs)
  have hle := hc.generation_le
  cases hc with
  | @turn a r rest e es ho hm ha hturn =>
    rw [after_engine] at hcurrent hle
    have hrest : { w with mailbox := rest }.Dated :=
      ⟨h.passes, h.validations, fun r hr => h.reports r (hm ▸ List.mem_append_right _ hr)⟩
    refine hrest.after hle (fun generation pass timeout hmem => ?_)
      fun generation service probe hmem => ?_
    · exact hcurrent generation pass (hturn.course.current_of_starts hmem)
    · obtain ⟨s, _, hs, rfl, _⟩ := hturn.dealing.added hmem
      exact hb.generation_eq hs ▸ hle
  | sees ht event => exact ⟨h.passes, h.validations, h.reports_post (h.passes _ ht)⟩
  | passEnds ht error =>
    exact ⟨fun t ht => h.passes t (List.mem_filter.mp ht).1, h.validations,
      h.reports_post (h.passes _ ht)⟩
  | validated ht ok =>
    exact ⟨h.passes, fun t ht => h.validations t (List.mem_filter.mp ht).1,
      h.reports_post (h.validations _ ht)⟩
  | aside => exact ⟨h.passes, h.validations, h.reports⟩
  | shutdown =>
    have hafter : (w.after w.engine.cancelSession).Dated := by
      rw [after_engine] at hcurrent hle
      refine h.after hle (fun generation pass timeout hmem => ?_)
        fun generation service probe hmem => ?_
      · exact hcurrent _ _ ((w.engine.course_of_cancelSession (r := none)).current_of_starts hmem)
      · cases w.engine.cancelSession_quiet _ hmem
    exact ⟨hafter.passes, hafter.validations, by simp⟩

theorem Reachable.dated {floor : Nat} (h : Reachable floor w) : w.Dated := by
  have hboth : w.Bookkept ∧ w.Dated := by
    refine h.induct (P := fun w => w.Bookkept ∧ w.Dated) (fun reading => ?_) fun h hc => ?_
    · have hinitial : Reachable floor (initial floor reading) := ⟨reading, [], rfl⟩
      exact ⟨hinitial.bookkept, by simp [initial], by simp [initial], by simp [initial]⟩
    · exact ⟨h.1.change hc, h.2.change h.1 (h.1.change hc) hc⟩
  exact hboth.2

/-! ### Stopped scans -/

/-- A report that does not count leaves the engine and what it has asked for as they were. -/
theorem kept_of_deliver {reading : PowerState} (h : w.step (.deliver reading) = some w')
    (hr : ∀ r rest, w.mailbox = r :: rest → w.engine.counts r = false) :
    w'.engine = w.engine ∧ w'.record = w.record := by
  obtain ⟨r, rest, hm, rfl⟩ := report_of_deliver h
  obtain ⟨hengine, hquiet⟩ := (Engine.turn_of_onReport w.engine
    ⟨w.now, reading, reading⟩ r).unchanged (hr r rest hm)
  rw [after, hengine, hquiet]
  exact ⟨rfl, rfl⟩

/-- There is no session, and what is held and what has been asked for is what it was in `w`. -/
structure Stopped (w w' : World) : Prop where
  session : w'.engine.session = none
  status : w'.engine.status = .idle
  endpoints : w'.engine.endpoints = w.engine.endpoints
  record : w'.record = w.record

theorem Stopped.of_kept (h : w.Stopped w')
    (hkept : w''.engine = w'.engine ∧ w''.record = w'.record) : w.Stopped w'' := by
  obtain ⟨hengine, hrecord⟩ := hkept
  exact ⟨hengine ▸ h.session, hengine ▸ h.status, hengine ▸ h.endpoints, hrecord.trans h.record⟩

theorem stopped_of_stop {p q : PowerState} (h : w.step (.command .stop p q) = some w') :
    w'.Stopped w' ∧ w'.engine.endpoints = w.engine.endpoints ∧ w'.published = w.published := by
  have hw := step_command h
  rw [Engine.onCommand, Engine.stop_eq] at hw
  have hengine := hw ▸ after_engine w _
  refine ⟨⟨?_, ?_, rfl, rfl⟩, ?_, ?_⟩
  · rw [hengine]
  · rw [hengine]
  · rw [hengine]
  · rw [hw, published_after, Engine.cancelSession_unpublished]
    rfl

/-- **While a scan is stopped nothing but a start makes a difference.** -/
theorem Stopped.step (h : w.Stopped w') (hstart : ∀ u p q, a ≠ .command (.start u) p q)
    (hstep : w'.step a = some w'') : w.Stopped w'' := by
  have hnone := h.session
  cases a with
  | command c p q =>
    have hw := step_command hstep
    cases c with
    | start u => exact absurd rfl (hstart u p q)
    | stop =>
      rw [Engine.onCommand, Engine.stop, Engine.cancelSession, hnone] at hw
      exact hw ▸ ⟨hnone, rfl, h.endpoints, h.record⟩
    | powerChanged =>
      simp only [Engine.onCommand, Engine.powerChanged, hnone] at hw
      exact hw ▸ ⟨rfl, h.status, h.endpoints, h.record⟩
  | timer p =>
    rw [World.step, hnone] at hstep
    cases hstep
  | deliver p =>
    refine h.of_kept (kept_of_deliver hstep fun r rest _ => ?_)
    rw [Engine.counts, hnone]
    rfl
  | shutdown =>
    rw [World.step, Engine.cancelSession, hnone] at hstep
    dsimp only at hstep
    split at hstep
    · cases hstep
      exact h.of_kept ⟨rfl, rfl⟩
    · cases hstep
  | browse | passEnds | validated | elapse | subscribe | unsubscribe | poll =>
    exact h.of_kept (kept_of_step hstep rfl)

/-- A stopped scan stays stopped. -/
theorem Stopped.run {as : List Action} (h : w.Stopped w')
    (hstart : ∀ a ∈ as, ∀ u p q, a ≠ .command (.start u) p q) (hrun : w'.run as = some w'') :
    w.Stopped w'' :=
  run_induct h (fun a ha _ _ hv hstep => hv.step (hstart a ha) hstep) hrun

/-! ### Where endpoints come from -/

/-- The report that the engine takes, if it counts. -/
def counted? (w : World) : Traffic → Option Report
  | .take => w.mailbox.head?.filter w.engine.counts
  | _ => none

/-- The reports that count along a run, the oldest first. -/
def counted : World → List Action → List Report
  | _, [] => []
  | w, a :: as =>
    match w.step a with
    | none => []
    | some w' => (w.counted? a.traffic).toList ++ counted w' as

/-- An endpoint comes from a service that has been added and then validated in a session begun
after the first so many. -/
def Earned (past : Nat) (heard : List Report) (x : Endpoint) : Prop :=
  ∃ generation pass service, past < generation ∧ x = .ofService service ∧
    [.browse generation pass (.added service), .validated generation service true].Sublist heard

/-- What is held, or being validated for a session begun after the first so many, was seen since. -/
structure Backed (past : Nat) (heard : List Report) (w : World) : Prop where
  generation : past < w.engine.generation
  validations : ∀ t ∈ w.validations, past < t.generation →
    ∃ pass, .browse t.generation pass (.added t.service) ∈ heard
  results : ∀ generation service ok, .validated generation service ok ∈ w.mailbox →
    past < generation → ∃ pass, .browse generation pass (.added service) ∈ heard
  held : ∀ x ∈ w.engine.endpoints.byKey.entries, Earned past heard x.2

variable {past : Nat} {heard : List Report}

theorem Earned.append {x : Endpoint} (h : Earned past heard x) (new : List Report) :
    Earned past (heard ++ new) x := by
  obtain ⟨generation, pass, service, hpast, hx, hsub⟩ := h
  exact ⟨generation, pass, service, hpast, hx, hsub.trans (List.sublist_append_left _ _)⟩

theorem Backed.append (h : Backed past heard w) (new : List Report) :
    Backed past (heard ++ new) w := by
  refine ⟨h.generation, fun t ht hpast => ?_, fun generation service ok hmem hpast => ?_,
    fun x hx => (h.held x hx).append new⟩
  · obtain ⟨pass, hpass⟩ := h.validations t ht hpast
    exact ⟨pass, List.mem_append_left _ hpass⟩
  · obtain ⟨pass, hpass⟩ := h.results generation service ok hmem hpast
    exact ⟨pass, List.mem_append_left _ hpass⟩

theorem Backed.of_rest {r : Option Report} {rest : List Report} (h : Backed past heard w)
    (hm : w.mailbox = r.toList ++ rest) : Backed past heard { w with mailbox := rest } :=
  ⟨h.generation, h.validations, fun generation service ok hmem =>
    h.results generation service ok (hm ▸ List.mem_append_right _ hmem), h.held⟩

/-- The engine heeds a report, or acts without one. -/
theorem Backed.after {r : Option Report} {rest : List Report} (h : Backed past heard w)
    (hb : w.Bookkept) (hm : w.mailbox = r.toList ++ rest)
    (hd : Engine.Dealing r w.engine e es) :
    Backed past (heard ++ r.toList) ({ w with mailbox := rest }.after (e, es)) := by
  have hlater := (h.of_rest hm).append r.toList
  refine ⟨?_, ?_, ?_, ?_⟩
  · rw [after_engine]
    exact Nat.lt_of_lt_of_le h.generation hd.generation_le
  · refine forall_validations_after (P := fun generation service => past < generation →
      ∃ pass, .browse generation pass (.added service) ∈ heard ++ r.toList) hlater.validations ?_
    intro generation service probe hmem _
    obtain ⟨s, pass, _, _, rfl⟩ := hd.added hmem
    exact ⟨pass, List.mem_append_right _ (List.mem_singleton_self _)⟩
  · rw [after_mailbox]
    exact hlater.results
  · intro x hx
    rw [after_engine] at hx
    rcases hd.held hx with hx | ⟨s, service, hs, rfl, hx⟩
    · exact hlater.held x hx
    · have hpast : past < s.generation := by
        rw [hb.generation_eq hs]
        exact h.generation
      obtain ⟨pass, hpass⟩ := h.results s.generation service true
        (hm ▸ List.mem_append_left _ (List.mem_singleton_self _)) hpast
      exact ⟨s.generation, pass, service, hpast, hx,
        (List.singleton_sublist.mpr hpass).append (List.Sublist.refl _)⟩

/-- **Whatever happens, what is held was added and validated since.** -/
theorem Backed.step (h : Backed past heard w) (hb : w.Bookkept) (hc : Change w a w') :
    Backed past (heard ++ (w.counted? a.traffic).toList) w' := by
  cases hc with
  | @turn a r rest e es ho hm ha hturn =>
    cases r with
    | none =>
      rw [ha]
      exact h.after hb hm hturn.dealing
    | some r =>
      rw [ha]
      have hhead : w.counted? (if (some r).isSome then .take else .still) =
          (some r).filter w.engine.counts := by
        rw [Option.isSome_some, if_pos rfl, counted?, hm]
        rfl
      rw [hhead]
      by_cases hr : w.engine.counts r = true
      · rw [Option.filter_some_pos hr]
        exact h.after hb hm hturn.dealing
      · obtain ⟨rfl, rfl⟩ := hturn.unchanged (by simpa using hr)
        exact (h.of_rest hm).append _
  | sees | passEnds =>
    refine Backed.append ?_ _
    refine ⟨h.generation, h.validations, fun generation service ok hmem => ?_, h.held⟩
    exact h.results generation service ok ((List.mem_append.mp hmem).resolve_right (by simp))
  | @validated t ht ok =>
    refine Backed.append ?_ _
    refine ⟨h.generation, fun u hu => h.validations u (List.mem_filter.mp hu).1,
      fun generation service result hmem hpast => ?_, h.held⟩
    rcases List.mem_append.mp hmem with hmem | hmem
    · exact h.results generation service result hmem hpast
    · obtain ⟨rfl, rfl, _⟩ := Report.validated.inj (List.mem_singleton.mp hmem)
      exact h.validations t ht hpast
  | aside =>
    refine Backed.append ?_ _
    exact ⟨h.generation, h.validations, h.results, h.held⟩
  | shutdown =>
    have hends : Engine.Dealing none w.engine w.engine.cancelSession.1 w.engine.cancelSession.2 :=
      .ends rfl w.engine.ledger_cancelSession w.engine.cancelSession_quiet
    have hmailbox : w.mailbox = (none : Option Report).toList ++ w.mailbox := rfl
    have hafter := h.after hb hmailbox hends
    exact ⟨hafter.generation, hafter.validations, by simp, hafter.held⟩

theorem counted_cons {as : List Action} (h : w.step a = some w') :
    w.counted (a :: as) = (w.counted? a.traffic).toList ++ w'.counted as := by
  rw [counted, h]

theorem Backed.run {floor : Nat} : ∀ (as : List Action) {heard : List Report} {w w' : World},
    Reachable floor w → Backed past heard w → w.run as = some w' →
    Backed past (heard ++ w.counted as) w'
  | [], heard, w, w', _, h, hrun => by
    cases hrun
    exact h.append []
  | a :: as, heard, w, w', hreach, h, hrun => by
    rw [run_cons] at hrun
    obtain ⟨v, hstep, hrun⟩ := Option.bind_eq_some_iff.mp hrun
    have hv := h.step hreach.bookkept (change_of_step hstep)
    have hall := Backed.run as (hreach.step hstep) hv hrun
    rwa [List.append_assoc, ← counted_cons hstep] at hall

/-- What a scan that the user asked for starts with. -/
theorem backed_of_start {p q : PowerState} (h : w.Dated)
    (hstart : w.step (.command (.start true) p q) = some w') :
    Backed w.engine.generation [] w' := by
  have hledger := w.engine.ledger_start ⟨w.now, p, q⟩ true
  have hdealing := (Engine.turn_of_start w.engine ⟨w.now, p, q⟩ true).dealing
  rw [step_command hstart, Engine.onCommand]
  refine ⟨?_, ?_, ?_, ?_⟩
  · have hnext : (w.engine.start ⟨w.now, p, q⟩ true).1.generation = w.engine.generation + 1 :=
      congrArg Ledger.generation hledger
    rw [after_engine, hnext]
    exact Nat.lt_succ_self _
  · refine forall_validations_after (P := fun generation service =>
      w.engine.generation < generation →
        ∃ pass, Report.browse generation pass (.added service) ∈ []) ?_ ?_
    · exact fun t ht hpast => absurd (h.validations t ht) (Nat.not_le_of_lt hpast)
    · intro generation service probe hmem
      obtain ⟨_, _, _, _, hr⟩ := hdealing.added hmem
      cases hr
  · rw [after_mailbox]
    exact fun generation service ok hmem hpast =>
      absurd (h.reports _ hmem) (Nat.not_le_of_lt hpast)
  · have hheld : (w.engine.start ⟨w.now, p, q⟩ true).1.endpoints = .empty :=
      congrArg Ledger.held hledger
    rw [after_engine, hheld]
    simp [EndpointSet.empty, OrderedMap.empty]

/-! ### Reachable worlds -/

/-- What late reports cannot do. Tasks and reports belong to the sessions that have begun. From a
stop to the next start nothing that can happen changes what is held, published or shown, and nothing
is asked for. A report of a session begun before a start changes nothing after it; what a scan that
the user asked for holds was added and validated since; and a browse event counts only if it comes
from the current pass. -/
structure Isolated (w : World) : Prop extends Dated w where
  stopped : ∀ p q w₁ as w', w.step (.command .stop p q) = some w₁ →
    (∀ a ∈ as, ∀ u p q, a ≠ .command (.start u) p q) → w₁.run as = some w' →
    w'.engine.endpoints = w.engine.endpoints ∧ w'.published = w.published ∧
      w'.engine.status = .idle ∧ w'.record = w₁.record
  superseded : ∀ u p q w₁ as w', w.step (.command (.start u) p q) = some w₁ →
    w₁.run as = some w' → ∀ r rest, w'.mailbox = r :: rest → r.generation ≤ w.engine.generation →
    ∀ reading w'', w'.step (.deliver reading) = some w'' →
      w''.engine = w'.engine ∧ w''.record = w'.record
  earned : ∀ p q w₁ as w', w.step (.command (.start true) p q) = some w₁ →
    w₁.run as = some w' → ∀ x ∈ w'.engine.endpoints.snapshot,
      Earned w.engine.generation (w₁.counted as) x
  passes_current : ∀ generation pass event rest, w.mailbox = .browse generation pass event :: rest →
    w.engine.current ≠ some (generation, pass) →
    ∀ reading w', w.step (.deliver reading) = some w' →
      w'.engine = w.engine ∧ w'.record = w.record

/-- **Nothing that a stopped or superseded scan left behind ever makes a difference.** -/
theorem Reachable.isolated {floor : Nat} (h : Reachable floor w) : w.Isolated := by
  refine ⟨h.dated, ?_, ?_, ?_, ?_⟩
  · intro p q w₁ as w' hstop hrests hrun
    obtain ⟨hstopped, hendpoints, hpublished⟩ := stopped_of_stop hstop
    have hstill := hstopped.run hrests hrun
    refine ⟨hstill.endpoints.trans hendpoints, ?_, hstill.status, hstill.record⟩
    rw [← hpublished, published, hstill.record, published]
  · intro u p q w₁ as w' hstart hrun r rest hm hold reading w'' hdeliver
    refine kept_of_deliver hdeliver fun r' rest' hm' => ?_
    obtain ⟨rfl, rfl⟩ := List.cons.inj (hm.symm.trans hm')
    -- Sessions begun since have higher numbers than the one that the report belongs to.
    by_contra hcounts
    obtain ⟨s, hs, hsame⟩ := Engine.generation_of_counts (by simpa using hcounts)
    have hlatest := ((h.step hstart).run hrun).bookkept.generation_eq hs
    have hnext : w₁.engine.generation = w.engine.generation + 1 := by
      rw [step_command hstart, after_engine, Engine.onCommand]
      exact congrArg Ledger.generation (w.engine.ledger_start _ u)
    have hle := generation_le_run hrun
    omega
  · intro p q w₁ as w' hstart hrun x hx
    obtain ⟨y, hy, rfl⟩ := List.mem_map.mp hx
    exact ((backed_of_start h.dated hstart).run as (h.step hstart) hrun).held y hy
  · intro generation pass event rest hm hother reading w' hdeliver
    refine kept_of_deliver hdeliver fun r' rest' hm' => ?_
    obtain ⟨rfl, rfl⟩ := List.cons.inj (hm.symm.trans hm')
    by_contra hcounts
    exact hother (Engine.current_of_counts (by simpa using hcounts))

/-- One of two services is held and the other is being validated. -/
def twoSeen : List Action :=
  [.command (.start false) .nominal .nominal, .browse 1 (.added ⟨"desk", "10.0.0.5", 8080⟩),
    .deliver .nominal, .validated 0 true, .deliver .nominal,
    .browse 1 (.added ⟨"attic", "10.0.0.6", 8080⟩), .deliver .nominal]

/-- The first pass and its validation report late, and a service that the second sees is held. -/
def lateReports : List Action :=
  [.browse 1 (.removed ⟨"desk", "10.0.0.5", 8080⟩), .deliver .nominal, .validated 1 true,
    .deliver .nominal, .browse 2 (.added ⟨"cellar", "10.0.0.7", 8080⟩), .deliver .nominal,
    .validated 2 true, .deliver .nominal, .passEnds 1 (some "lost"), .deliver .nominal]

theorem isolated_of_lateReports :
    ∃ w w₁ w' : World, (initial 10000 .nominal).run twoSeen = some w ∧
      w.step (.command (.start true) .nominal .nominal) = some w₁ ∧ w₁.run lateReports = some w' ∧
      w'.engine.endpoints.byKey.keys = ["10.0.0.7:8080"] ∧ w'.engine.status = .scanning ∧
      ∀ x ∈ w'.engine.endpoints.snapshot, Earned 1 (w₁.counted lateReports) x := by
  have hall : ((initial 10000 .nominal).run twoSeen).bind (fun w =>
      (w.step (.command (.start true) .nominal .nominal)).bind fun w₁ =>
        (w₁.run lateReports).map fun w' => (w.engine.generation, w'.engine.endpoints.byKey.keys,
          w'.engine.status)) = some (1, ["10.0.0.7:8080"], .scanning) := by decide +kernel
  obtain ⟨w, hw, hall⟩ := Option.bind_eq_some_iff.mp hall
  obtain ⟨w₁, hw₁, hall⟩ := Option.bind_eq_some_iff.mp hall
  obtain ⟨w', hw', hall⟩ := Option.map_eq_some_iff.mp hall
  simp only [Prod.mk.injEq] at hall
  obtain ⟨hgeneration, hkeys, hstatus⟩ := hall
  have hearned := (@Reachable.isolated _ 10000 ⟨.nominal, twoSeen, hw⟩).earned _ _ w₁ _ w' hw₁ hw'
  exact ⟨w, w₁, w', hw, hw₁, hw', hkeys, hstatus, hgeneration ▸ hearned⟩

end World
end LanInference
