/-
# The bookkeeping of keys

A key goes from a service that has appeared to the pending keys of the session, to a validation in
flight, and with its result to the endpoints held. Each turn of the engine is one of few dealings
with keys (`Engine.Dealing`). In every reachable world the endpoints are held under their own keys,
no key is both held and pending, and for each pending key a validation of the session runs or has
its result on the way, so that no key is passed over for ever.

Key definitions: `Ledger`, `Engine.Dealing`, `World.Awaits`, `World.Booked`.
Key theorems: `Engine.Turn.dealing`, `Engine.Dealing.orderly`, `World.Bookkept.change`,
`World.Reachable.booked`.
-/
import Mathlib.Data.List.Nodup
import LanInference.Proofs.Discovery.Change

namespace LanInference

/-- What the engine knows of keys: the endpoints held, the sessions started, and the generation of
the running session with its pending keys. -/
structure Ledger where
  held : EndpointSet
  generation : Nat
  session : Option (Nat × OrderedMap Unit)

/-- The endpoints are held under their own keys, no key is held and pending, and the session is the
latest. -/
structure Ledger.Orderly (l : Ledger) : Prop where
  keyed : ∀ x ∈ l.held.byKey.entries,
    x.1 = x.2.key.text ∧ x.2.key = .ofHostPort x.2.host x.2.port ∧ x.2.validated = true
  disjoint : ∀ generation pending, l.session = some (generation, pending) →
    ∀ k : EndpointKey, pending.contains k.text = true → l.held.contains k = false
  latest : ∀ generation pending, l.session = some (generation, pending) →
    generation = l.generation

namespace Engine

def ledger (e : Engine) : Ledger :=
  ⟨e.endpoints, e.generation, e.session.map fun s => (s.generation, s.pending)⟩

variable {now : Nat} {r : Option Report} {e e' : Engine} {es : List Effect} {s : ScanSession}

theorem ledger_session (hs : e.session = some s) :
    e.ledger.session = some (s.generation, s.pending) := by
  rw [ledger, hs]
  rfl

theorem ledger_session_eq_some_iff {generation : Nat} {pending : OrderedMap Unit} :
    e.ledger.session = some (generation, pending) ↔
      ∃ s, e.session = some s ∧ s.generation = generation ∧ s.pending = pending := by
  simp [ledger, Option.map_eq_some_iff]

theorem ledger_eq (hs : e.session = some s) :
    e.ledger = ⟨e.endpoints, e.generation, some (s.generation, s.pending)⟩ := by
  rw [ledger, hs]
  rfl

/-- All that a turn can do about keys. -/
inductive Dealing (r : Option Report) (e e' : Engine) (es : List Effect) : Prop
  | keeps (hi : e.Ignores r) (hl : e'.ledger = e.ledger) (hq : ∀ x ∈ es, x.isValidation = false)
  | ends (hr : r = none) (hl : e'.ledger = { e.ledger with session := none })
      (hq : ∀ x ∈ es, x.isValidation = false)
  | renews (hr : r = none) (held : EndpointSet) (hheld : held = e.endpoints ∨ held = .empty)
      (hl : e'.ledger = ⟨held, e.generation + 1, some (e.generation + 1, .empty)⟩)
      (hq : ∀ x ∈ es, x.isValidation = false)
  | asks {s : ScanSession} {pass : Nat} {service : Service} {probe : ProbePolicy}
      (hs : e.session = some s) (hr : r = some (.browse s.generation pass (.added service)))
      (hheld : e.endpoints.contains service.key = false)
      (hpending : s.pending.contains service.key.text = false)
      (hl : e'.ledger = { e.ledger with
        session := some (s.generation, s.pending.insert service.key.text ()) })
      (hes : es = [.validate s.generation service probe])
  | drops {s : ScanSession} {pass : Nat} {service : Service} (hs : e.session = some s)
      (hp : s.pass = some pass) (hr : r = some (.browse s.generation pass (.removed service)))
      (hl : e'.ledger = ⟨(e.endpoints.remove service.key).1, e.generation,
        some (s.generation, s.pending.erase service.key.text)⟩)
      (hq : ∀ x ∈ es, x.isValidation = false)
  | settles {s : ScanSession} {service : Service} (ok : Bool) (hs : e.session = some s)
      (hpending : s.pending.contains service.key.text = true)
      (hr : r = some (.validated s.generation service ok))
      (hl : e'.ledger =
        ⟨if ok then (e.endpoints.insert (.ofService service)).1 else e.endpoints, e.generation,
          some (s.generation, s.pending.erase service.key.text)⟩)
      (hq : ∀ x ∈ es, x.isValidation = false)

theorem endPass_quiet (s : ScanSession) : ∀ x ∈ s.endPass.2, x.isValidation = false := by
  intro x hx
  obtain ⟨p, _, rfl⟩ := List.mem_map.mp hx
  rfl

theorem cancelSession_quiet (e : Engine) : ∀ x ∈ e.cancelSession.2, x.isValidation = false := by
  unfold cancelSession
  cases e.session with
  | none => simp
  | some s => exact endPass_quiet s

theorem clearing_quiet (e : Engine) (userInitiated : Bool) :
    ∀ x ∈ e.clearing userInitiated, x.isValidation = false := by
  unfold clearing
  split <;> simp [Effect.isValidation]

/-- A poll leaves the keys alone. -/
theorem Polls.ledger_eq (h : Polls now e s e' es) :
    e'.ledger = ⟨e.endpoints, e.generation, some (s.generation, s.pending)⟩ ∧
      ∀ x ∈ es, x.isValidation = false := by
  cases h with
  | pause => exact ⟨rfl, endPass_quiet s⟩
  | skip => exact ⟨rfl, by simp⟩
  | run =>
    refine ⟨rfl, fun x hx => ?_⟩
    rcases List.mem_append.mp hx with hx | hx
    · exact endPass_quiet _ x hx
    · rw [List.mem_singleton.mp hx]
      rfl

/-- A start begins a session with no pending keys, with no endpoints if the user asked for it. -/
theorem ledger_start (e : Engine) (m : Moment) (userInitiated : Bool) :
    (e.start m userInitiated).1.ledger = ⟨if userInitiated then .empty else e.endpoints,
      e.generation + 1, some (e.generation + 1, .empty)⟩ := by
  rw [start_eq]
  exact (polls_of_tick (e := e.renewed userInitiated m.reading)
    (s := e.freshSession userInitiated) rfl m.again).ledger_eq.1

/-- A start that leaves no endpoints begins with nothing. -/
theorem ledger_start_of_nothing (m : Moment) {userInitiated : Bool}
    (h : userInitiated = true ∨ e.endpoints = .empty) :
    (e.start m userInitiated).1.ledger =
      ⟨.empty, e.generation + 1, some (e.generation + 1, .empty)⟩ := by
  have hheld : (if userInitiated then .empty else e.endpoints) = EndpointSet.empty := by
    rcases h with huser | hnothing
    · rw [huser, if_pos rfl]
    · rw [hnothing, ite_self]
  rw [ledger_start, hheld]

theorem Turn.dealing (h : Turn now r e e' es) : Dealing r e e' es := by
  cases h with
  | rest hi => exact .keeps hi rfl (by simp)
  | read p => exact .keeps (fun _ _ => trivial) rfl (by simp)
  | stop => exact .ends rfl rfl e.cancelSession_quiet
  | start userInitiated p hpolls =>
    refine .renews rfl (if userInitiated then .empty else e.endpoints) ?_ hpolls.ledger_eq.1 ?_
    · split
      · exact .inr rfl
      · exact .inl rfl
    · intro x hx
      rcases List.mem_append.mp hx with hx | hx
      · rcases List.mem_append.mp hx with hx | hx
        · exact e.cancelSession_quiet x hx
        · exact e.clearing_quiet userInitiated x hx
      · exact hpolls.ledger_eq.2 x hx
  | timer p hs _ hpolls =>
    exact .keeps (fun _ _ => trivial) (hpolls.ledger_eq.1.trans (ledger_eq hs).symm)
      hpolls.ledger_eq.2
  | @background _ s p hs =>
    exact .keeps (fun _ _ => trivial) (ledger_eq hs).symm (endPass_quiet s)
  | resume p hs _ hpolls =>
    exact .keeps (fun _ _ => trivial) (hpolls.ledger_eq.1.trans (ledger_eq hs).symm)
      hpolls.ledger_eq.2
  | await p hs => exact .keeps (fun _ _ => trivial) (ledger_eq hs).symm (by simp)
  | rearm p hs => exact .keeps (fun _ _ => trivial) (ledger_eq hs).symm (by simp)
  | ask hs _ hheld hpending => exact .asks hs rfl hheld hpending rfl rfl
  | drop hs hp =>
    refine .drops hs hp rfl rfl ?_
    unfold onRemoved
    dsimp only
    split <;> simp [Effect.isValidation, publish]
  | fail hs => exact .keeps (fun _ _ => trivial) (ledger_eq hs).symm (by simp)
  | succeed pass hs => exact .keeps (fun _ _ => trivial) (ledger_eq hs).symm (by simp)
  | refuse hs hpending => exact .settles false hs hpending rfl rfl (by simp)
  | accept hs hpending =>
    refine .settles true hs hpending rfl rfl ?_
    split <;> simp [Effect.isValidation]

/-- A turn begins a validation only when it takes a service whose key is neither held nor pending,
and then it does nothing else. -/
theorem Dealing.quiet_or_asks (h : Dealing r e e' es) :
    (∀ x ∈ es, x.isValidation = false) ∨ ∃ s pass service probe, e.session = some s ∧
      r = some (.browse s.generation pass (.added service)) ∧
      e.endpoints.contains service.key = false ∧ s.pending.contains service.key.text = false ∧
      es = [.validate s.generation service probe] := by
  cases h with
  | asks hs hr hheld hpending _ hes => exact .inr ⟨_, _, _, _, hs, hr, hheld, hpending, hes⟩
  | keeps _ _ hq => exact .inl hq
  | ends _ _ hq => exact .inl hq
  | renews _ _ _ _ hq => exact .inl hq
  | drops _ _ _ _ hq => exact .inl hq
  | settles _ _ _ _ _ hq => exact .inl hq

theorem ledger_cancelSession (e : Engine) :
    e.cancelSession.1.ledger = { e.ledger with session := none } := by
  unfold cancelSession
  cases hs : e.session with
  | none => simp [ledger, hs]
  | some s => rfl

/-- **Every dealing leaves the ledger in order.** -/
theorem Dealing.orderly (h : Dealing r e e' es) (ho : e.ledger.Orderly) : e'.ledger.Orderly := by
  cases h with
  | keeps _ hl => rwa [hl]
  | ends _ hl =>
    rw [hl]
    exact ⟨ho.keyed, by simp, by simp⟩
  | renews _ held hheld hl =>
    rw [hl]
    refine ⟨?_, ?_, ?_⟩
    · rcases hheld with rfl | rfl
      · exact ho.keyed
      · simp [EndpointSet.empty, OrderedMap.empty]
    · rintro generation pending ⟨⟩ k hk
      cases hk
    · rintro generation pending ⟨⟩
      rfl
  | asks hs _ hheld _ hl =>
    have hsession := ledger_session hs
    rw [hl]
    refine ⟨ho.keyed, ?_, ?_⟩
    · rintro generation pending ⟨⟩ k hk
      rw [OrderedMap.contains_insert, Bool.or_eq_true, decide_eq_true_eq] at hk
      rcases hk with hk | hk
      · rw [← hheld, EndpointSet.contains, EndpointSet.contains, hk]
        rfl
      · exact ho.disjoint _ _ hsession k hk
    · rintro generation pending ⟨⟩
      exact ho.latest _ _ hsession
  | drops hs _ _ hl =>
    have hsession := ledger_session hs
    rw [hl]
    refine ⟨fun x hx => ho.keyed x (EndpointSet.mem_entries_remove hx), ?_, ?_⟩
    · rintro generation pending ⟨⟩ k hk
      rw [OrderedMap.contains_erase, Bool.and_eq_true] at hk
      have hfree : e.endpoints.contains k = false := ho.disjoint _ _ hsession k hk.2
      rw [EndpointSet.contains_remove, hfree, Bool.and_false]
    · rintro generation pending ⟨⟩
      exact ho.latest _ _ hsession
  | settles ok hs _ _ hl =>
    have hsession := ledger_session hs
    rw [hl]
    refine ⟨?_, ?_, ?_⟩
    · intro x hx
      cases ok with
      | false => exact ho.keyed x hx
      | true =>
        rcases EndpointSet.mem_entries_insert hx with rfl | hx
        · exact ⟨rfl, rfl, rfl⟩
        · exact ho.keyed x hx
    · rintro generation pending ⟨⟩ k hk
      rw [OrderedMap.contains_erase, Bool.and_eq_true, decide_eq_true_eq] at hk
      have hfree : e.endpoints.contains k = false := ho.disjoint _ _ hsession k hk.2
      cases ok with
      | false => exact hfree
      | true =>
        rw [if_pos rfl, EndpointSet.contains_insert, hfree, Bool.or_false]
        exact decide_eq_false hk.1
    · rintro generation pending ⟨⟩
      exact ho.latest _ _ hsession

end Engine

namespace World

variable {w : World} {r : Option Report} {rest : List Report} {e : Engine} {es : List Effect}

/-! ### Validations in flight -/

/-- A validation of a session for a key runs, or has its result on the way. -/
def Awaits (w : World) (generation : Nat) (k : EndpointKey) : Prop :=
  (∃ t ∈ w.validations, t.generation = generation ∧ t.service.key = k) ∨
    ∃ service ok, .validated generation service ok ∈ w.mailbox ∧ service.key = k

/-- The validations in flight are numbered in the order in which they began. -/
structure Numbered (w : World) : Prop where
  ascending : w.validations.Pairwise (·.serial < ·.serial)
  dispatched : ∀ t ∈ w.validations, t.serial < w.dispatched

theorem Numbered.eq_of_serial_eq {t u : ValidationTask} (h : w.Numbered) (ht : t ∈ w.validations)
    (hu : u ∈ w.validations) (hserial : t.serial = u.serial) : t = u := by
  have hnodup : (w.validations.map (·.serial)).Nodup :=
    (List.pairwise_map.mpr h.ascending).imp fun hlt => Nat.ne_of_lt hlt
  exact List.inj_on_of_nodup_map hnodup ht hu hserial

/-- What an engine asks for adds to the validations in flight. -/
theorem mem_validations_after {t : ValidationTask} (h : t ∈ w.validations) :
    t ∈ (w.after (e, es)).validations := by
  refine after_induct (P := fun v => t ∈ v.validations) h fun x _ v hv => ?_
  cases x with
  | publish | startPass | cancelPass => exact hv
  | validate => exact List.mem_append_left _ hv

theorem Awaits.mono {w' : World} {generation : Nat} {k : EndpointKey} (h : w.Awaits generation k)
    (hv : ∀ t ∈ w.validations, t ∈ w'.validations) (hm : ∀ x ∈ w.mailbox, x ∈ w'.mailbox) :
    w'.Awaits generation k := by
  rcases h with ⟨t, ht, hkey⟩ | ⟨service, ok, hmem, hkey⟩
  · exact .inl ⟨t, hv t ht, hkey⟩
  · exact .inr ⟨service, ok, hm _ hmem, hkey⟩

/-- The engine may take any report but the result that is waited for. -/
theorem Awaits.after {generation : Nat} {k : EndpointKey} (h : w.Awaits generation k)
    (hm : w.mailbox = r.toList ++ rest)
    (hr : ∀ service ok, r = some (.validated generation service ok) → service.key ≠ k) :
    ({ w with mailbox := rest }.after (e, es)).Awaits generation k := by
  rcases h with ⟨t, ht, hkey⟩ | ⟨service, ok, hmem, hkey⟩
  · exact .inl ⟨t, mem_validations_after ht, hkey⟩
  · rw [hm, List.mem_append, Option.mem_toList] at hmem
    rcases hmem with hmem | hmem
    · exact absurd hkey (hr service ok hmem)
    · refine .inr ⟨service, ok, ?_, hkey⟩
      rwa [after_mailbox]

/-- A validation that has its result is waited for in the mailbox. -/
theorem Awaits.validated {t : ValidationTask} {generation : Nat} {k : EndpointKey}
    (h : w.Awaits generation k) (hn : w.Numbered) (ht : t ∈ w.validations) (ok : Bool) :
    ({ w with
      validations := w.validations.filter (·.serial ≠ t.serial)
      mailbox := w.mailbox ++ [.validated t.generation t.service ok] } : World).Awaits
        generation k := by
  rcases h with ⟨u, hu, hg, hkey⟩ | ⟨service, result, hmem, hkey⟩
  · by_cases hserial : u.serial = t.serial
    · have hsame := hn.eq_of_serial_eq hu ht hserial
      subst hsame
      exact .inr ⟨u.service, ok, by simp [hg], hkey⟩
    · exact .inl ⟨u, List.mem_filter.mpr ⟨hu, by simpa using hserial⟩, hg, hkey⟩
  · exact .inr ⟨service, result, List.mem_append_left _ hmem, hkey⟩

theorem Numbered.change {w' : World} {a : Action} (h : w.Numbered) (hc : Change w a w') :
    w'.Numbered := by
  cases hc with
  | @turn a r rest e es ho hm ha hturn =>
    rcases hturn.dealing.quiet_or_asks with hq | ⟨s, pass, service, probe, _, _, _, _, rfl⟩
    · have hsame := validations_after_quiet (w := { w with mailbox := rest }) (e := e) hq
      refine ⟨?_, ?_⟩
      · rw [hsame.1]
        exact h.ascending
      · rw [hsame.1, hsame.2]
        exact h.dispatched
    · refine ⟨List.pairwise_append.mpr ⟨h.ascending, by simp, fun t ht u hu => ?_⟩,
        fun t ht => ?_⟩
      · rw [List.mem_singleton.mp hu]
        exact h.dispatched t ht
      · rcases List.mem_append.mp ht with ht | ht
        · exact Nat.lt_succ_of_lt (h.dispatched t ht)
        · rw [List.mem_singleton.mp ht]
          exact Nat.lt_succ_self _
  | sees | passEnds | aside => exact ⟨h.ascending, h.dispatched⟩
  | validated ht ok =>
    exact ⟨h.ascending.filter _, fun t ht => h.dispatched t (List.mem_filter.mp ht).1⟩
  | shutdown =>
    have hsame := validations_after_quiet (w := w) (e := w.engine.cancelSession.1)
      w.engine.cancelSession_quiet
    refine ⟨?_, fun t ht => ?_⟩
    · exact hsame.1 ▸ h.ascending
    · exact hsame.2 ▸ h.dispatched t (hsame.1 ▸ ht)

/-! ### Pending keys -/

/-- The ledger is in order, and every pending key is waited for. -/
structure Bookkept (w : World) : Prop where
  numbered : w.Numbered
  ledger : w.engine.ledger.Orderly
  awaited : ∀ generation pending, w.engine.ledger.session = some (generation, pending) →
    ∀ k : EndpointKey, pending.contains k.text = true → w.Awaits generation k

theorem Bookkept.generation_eq {s : ScanSession} (h : w.Bookkept) (hs : w.engine.session = some s) :
    s.generation = w.engine.generation := h.ledger.latest _ _ (Engine.ledger_session hs)

/-- After every dealing the pending keys are waited for. -/
theorem Bookkept.awaited_after (h : w.Bookkept) (hm : w.mailbox = r.toList ++ rest)
    (hd : Engine.Dealing r w.engine e es) {generation : Nat} {pending : OrderedMap Unit}
    (hs : e.ledger.session = some (generation, pending)) {k : EndpointKey}
    (hk : pending.contains k.text = true) :
    ({ w with mailbox := rest }.after (e, es)).Awaits generation k := by
  cases hd with
  | keeps hi hl =>
    rw [hl] at hs
    refine (h.awaited _ _ hs k hk).after hm ?_
    rintro service ok rfl rfl
    obtain ⟨s, hsession, rfl, rfl⟩ := Engine.ledger_session_eq_some_iff.mp hs
    exact hi s hsession ⟨rfl, hk⟩
  | ends _ hl =>
    rw [hl] at hs
    cases hs
  | renews _ _ _ hl =>
    rw [hl] at hs
    cases hs
    cases hk
  | @asks s pass service probe hsession hr hheld hpending hl hes =>
    rw [hl] at hs
    cases hs
    rw [OrderedMap.contains_insert, Bool.or_eq_true, decide_eq_true_eq,
      EndpointKey.text_inj] at hk
    rcases hk with rfl | hk
    · subst hes
      exact .inl ⟨_, List.mem_append_right _ (List.mem_singleton_self _), rfl, rfl⟩
    · refine (h.awaited _ _ (Engine.ledger_session hsession) k hk).after hm ?_
      rintro service' ok rfl
      cases hr
  | drops hsession _ hr hl =>
    rw [hl] at hs
    cases hs
    rw [OrderedMap.contains_erase, Bool.and_eq_true] at hk
    refine (h.awaited _ _ (Engine.ledger_session hsession) k hk.2).after hm ?_
    rintro service' ok rfl
    cases hr
  | settles ok hsession _ hr hl =>
    rw [hl] at hs
    cases hs
    rw [OrderedMap.contains_erase, Bool.and_eq_true, decide_eq_true_eq] at hk
    refine (h.awaited _ _ (Engine.ledger_session hsession) k hk.2).after hm ?_
    rintro service' ok' rfl rfl
    cases hr
    exact hk.1 rfl

theorem Bookkept.change {w' : World} {a : Action} (h : w.Bookkept) (hc : Change w a w') :
    w'.Bookkept := by
  refine ⟨h.numbered.change hc, ?_, ?_⟩
  · cases hc with
    | turn ho hm ha hturn =>
      rw [after_engine]
      exact hturn.dealing.orderly h.ledger
    | sees | passEnds | validated | aside => exact h.ledger
    | shutdown =>
      rw [after_engine, Engine.ledger_cancelSession]
      exact ⟨h.ledger.keyed, by simp, by simp⟩
  · intro generation pending hs k hk
    cases hc with
    | turn ho hm ha hturn =>
      rw [after_engine] at hs
      exact h.awaited_after hm hturn.dealing hs hk
    | sees | passEnds =>
      exact (h.awaited _ _ hs k hk).mono (fun _ ht => ht) fun _ hx => List.mem_append_left _ hx
    | validated ht ok => exact (h.awaited _ _ hs k hk).validated h.numbered ht ok
    | aside => exact (h.awaited _ _ hs k hk).mono (fun _ ht => ht) fun _ hx => hx
    | shutdown =>
      rw [after_engine, Engine.ledger_cancelSession] at hs
      cases hs

theorem Reachable.bookkept {floor : Nat} (h : Reachable floor w) : w.Bookkept := by
  refine h.induct (fun reading => ⟨⟨?_, ?_⟩, ⟨?_, ?_, ?_⟩, ?_⟩) fun h hc => h.change hc
  all_goals simp [initial, Engine.ledger, EndpointSet.empty, OrderedMap.empty]

/-! ### Results to come -/

/-- Taking a report does not end a session. -/
theorem session_of_report {r : Report} (h : Engine.Dealing (some r) w.engine e es)
    {generation : Nat} {pending : OrderedMap Unit}
    (hs : w.engine.ledger.session = some (generation, pending)) :
    ∃ pending', e.ledger.session = some (generation, pending') := by
  have hgeneration : ∀ s, w.engine.session = some s → s.generation = generation := by
    intro s hsession
    rw [Engine.ledger_session hsession, Option.some.injEq, Prod.mk.injEq] at hs
    exact hs.1
  cases h with
  | keeps _ hl => exact ⟨pending, hl ▸ hs⟩
  | ends hr => cases hr
  | renews hr => cases hr
  | asks hsession _ _ _ hl => exact ⟨_, by rw [hl, hgeneration _ hsession]⟩
  | drops hsession _ _ hl => exact ⟨_, by rw [hl, hgeneration _ hsession]⟩
  | settles _ hsession _ _ hl => exact ⟨_, by rw [hl, hgeneration _ hsession]⟩

/-- Once a result of the session is taken its key is not pending. -/
theorem not_pending_of_result {service : Service} {ok : Bool} {generation : Nat}
    {pending : OrderedMap Unit}
    (h : Engine.Dealing (some (.validated generation service ok)) w.engine e es)
    (hs : e.ledger.session = some (generation, pending)) :
    pending.contains service.key.text = false := by
  cases h with
  | keeps hi hl =>
    rw [hl] at hs
    obtain ⟨s, hsession, rfl, rfl⟩ := Engine.ledger_session_eq_some_iff.mp hs
    by_contra hpending
    exact hi s hsession ⟨rfl, by simpa using hpending⟩
  | ends hr => cases hr
  | renews hr => cases hr
  | asks _ hr => cases hr
  | drops _ _ hr => cases hr
  | settles _ _ _ hr hl =>
    cases hr
    rw [hl] at hs
    cases hs
    simp [OrderedMap.contains_erase]

theorem exists_delivery (reading : PowerState) {r : Report} (ho : w.isOpen = true)
    (hm : w.mailbox = r :: rest) : ∃ w' es, w.step (.deliver reading) = some w' ∧
      w'.isOpen = true ∧ w'.mailbox = rest ∧ Engine.Dealing (some r) w.engine w'.engine es := by
  have hdealing := (Engine.turn_of_onReport w.engine ⟨w.now, reading, reading⟩ r).dealing
  refine ⟨_, (w.engine.onReport ⟨w.now, reading, reading⟩ r).2, step_deliver reading ho hm, ?_,
    after_mailbox _ _, ?_⟩
  · rwa [after_isOpen]
  · rwa [after_engine]

/-- When the reports up to a result of the session have been taken, its key is not pending. -/
theorem settles_of_mailbox {service : Service} {ok : Bool} {generation : Nat}
    (reading : PowerState) : ∀ (before : List Report) {w : World} {pending : OrderedMap Unit},
      w.isOpen = true → w.engine.ledger.session = some (generation, pending) →
      w.mailbox = before ++ .validated generation service ok :: rest →
      ∃ w' pending', w.run (List.replicate (before.length + 1) (.deliver reading)) = some w' ∧
        w'.engine.ledger.session = some (generation, pending') ∧
        pending'.contains service.key.text = false := by
  intro before
  induction before with
  | nil =>
    intro w pending ho hs hm
    obtain ⟨w', es, hstep, _, _, hdealing⟩ := exists_delivery reading ho hm
    obtain ⟨pending', hs'⟩ := session_of_report hdealing hs
    refine ⟨w', pending', ?_, hs', not_pending_of_result hdealing hs'⟩
    rw [List.length_nil, List.replicate_succ, run_cons, hstep]
    rfl
  | cons r before ih =>
    intro w pending ho hs hm
    obtain ⟨w', es, hstep, ho', hm', hdealing⟩ := exists_delivery reading ho hm
    obtain ⟨pending', hs'⟩ := session_of_report hdealing hs
    obtain ⟨w'', pending'', hrun, hsettled⟩ := ih ho' hs' hm'
    refine ⟨w'', pending'', ?_, hsettled⟩
    rw [List.length_cons, List.replicate_succ, run_cons, hstep]
    exact hrun

/-- A key that is waited for comes to a result, whatever that is. -/
theorem Awaits.settles {generation : Nat} {pending : OrderedMap Unit} {k : EndpointKey}
    (h : w.Awaits generation k) (hn : w.Numbered) (ho : w.isOpen = true)
    (hs : w.engine.ledger.session = some (generation, pending)) (ok : Bool)
    (reading : PowerState) :
    ∃ as w' pending', w.run as = some w' ∧
      (∀ a ∈ as, a = .deliver reading ∨ ∃ serial, a = .validated serial ok) ∧
      w'.engine.ledger.session = some (generation, pending') ∧
      pending'.contains k.text = false := by
  rcases h with ⟨t, ht, hg, rfl⟩ | ⟨service, result, hmem, rfl⟩
  · have hfind : w.findValidation? t.serial = some t := by
      obtain ⟨u, hu⟩ := Option.isSome_iff_exists.mp
        (List.find?_isSome (p := (·.serial = t.serial)).mpr ⟨t, ht, by simp⟩)
      have hserial : u.serial = t.serial := by simpa using List.find?_some hu
      rwa [hn.eq_of_serial_eq (List.mem_of_find?_eq_some hu) ht hserial] at hu
    obtain ⟨w', pending', hrun, hs', hpending⟩ := settles_of_mailbox reading w.mailbox
      (w := { w with
        validations := w.validations.filter (·.serial ≠ t.serial)
        mailbox := w.mailbox ++ [.validated t.generation t.service ok] }) ho hs (by rw [hg])
    refine ⟨.validated t.serial ok :: List.replicate (w.mailbox.length + 1) (.deliver reading), w',
      pending', ?_, ?_, hs', hpending⟩
    · rw [run_cons, step, hfind]
      exact hrun
    · intro a ha
      rcases List.mem_cons.mp ha with rfl | ha
      · exact .inr ⟨t.serial, rfl⟩
      · exact .inl (List.eq_of_mem_replicate ha)
  · obtain ⟨before, rest, hm⟩ := List.append_of_mem hmem
    obtain ⟨w', pending', hrun, hs', hpending⟩ := settles_of_mailbox reading before ho hs hm
    exact ⟨_, w', pending', hrun, fun a ha => .inl (List.eq_of_mem_replicate ha), hs', hpending⟩

/-! ### Reachable worlds -/

/-- The engine takes a service whose key is neither held nor pending. -/
def TakesNew (w w' : World) : Prop :=
  ∃ s pass service, w.engine.session = some s ∧
    w.mailbox = .browse s.generation pass (.added service) :: w'.mailbox ∧
    w.engine.endpoints.contains service.key = false ∧
    s.pending.contains service.key.text = false

/-- What holds of the keys in a world: endpoints are held under their own keys and listed in their
order, no key is held and pending, and each pending key is waited for in this session. So a
validation begins only with a service whose key is neither held nor pending, and whatever the
results are, each pending key comes to one. -/
structure Booked (w : World) : Prop where
  keyed : ∀ k x, (k, x) ∈ w.engine.endpoints.byKey.entries →
    k = x.key.text ∧ x.key = .ofHostPort x.host x.port ∧ x.validated = true
  ascending : w.engine.endpoints.snapshot.Pairwise fun x y => x.key.text < y.key.text
  disjoint : ∀ s, w.engine.session = some s → ∀ k : EndpointKey,
    s.pending.contains k.text = true → w.engine.endpoints.contains k = false
  awaited : ∀ s, w.engine.session = some s → s.generation = w.engine.generation ∧
    ∀ k : EndpointKey, s.pending.contains k.text = true → w.Awaits s.generation k
  begins : ∀ a w', w.step a = some w' → w'.dispatched ≠ w.dispatched → w.TakesNew w'
  settles : w.isOpen = true → ∀ s, w.engine.session = some s → ∀ k : EndpointKey,
    s.pending.contains k.text = true → ∀ ok reading, ∃ as w' s', w.run as = some w' ∧
      (∀ a ∈ as, a = .deliver reading ∨ ∃ serial, a = .validated serial ok) ∧
      w'.engine.session = some s' ∧ s'.generation = s.generation ∧
      s'.pending.contains k.text = false

theorem Change.begins {w' : World} {a : Action} (hc : Change w a w')
    (hn : w'.dispatched ≠ w.dispatched) : w.TakesNew w' := by
  cases hc with
  | @turn a r rest e es ho hm ha hturn =>
    rcases hturn.dealing.quiet_or_asks with hq |
      ⟨s, pass, service, probe, hs, rfl, hheld, hpending, _⟩
    · exact absurd (validations_after_quiet (w := { w with mailbox := rest }) (e := e) hq).2 hn
    · refine ⟨s, pass, service, hs, ?_, hheld, hpending⟩
      rw [hm, after_mailbox]
      rfl
  | sees | passEnds | validated | aside => exact absurd rfl hn
  | shutdown =>
    exact absurd (validations_after_quiet (w := w) (e := w.engine.cancelSession.1)
      w.engine.cancelSession_quiet).2 hn

/-- **Held, pending and waited-for keys agree in every reachable world.** -/
theorem Reachable.booked {floor : Nat} (h : Reachable floor w) : w.Booked := by
  have hb := h.bookkept
  refine ⟨fun k x hx => hb.ledger.keyed (k, x) hx, ?_, ?_, ?_, ?_, ?_⟩
  · refine List.pairwise_map.mpr (w.engine.endpoints.byKey.ascending.imp_of_mem ?_)
    intro x y hx hy hlt
    rwa [(hb.ledger.keyed x hx).1, (hb.ledger.keyed y hy).1] at hlt
  · exact fun s hs => hb.ledger.disjoint _ _ (Engine.ledger_session hs)
  · exact fun s hs => ⟨hb.generation_eq hs, hb.awaited _ _ (Engine.ledger_session hs)⟩
  · exact fun a w' hstep => (change_of_step hstep).begins
  · intro ho s hs k hk ok reading
    have hsession := Engine.ledger_session hs
    obtain ⟨as, w', pending', hrun, has, hs', hpending⟩ :=
      (hb.awaited _ _ hsession k hk).settles hb.numbered ho hsession ok reading
    obtain ⟨s', hsession', hgeneration, rfl⟩ := Engine.ledger_session_eq_some_iff.mp hs'
    exact ⟨as, w', s', hrun, has, hsession', hgeneration, hpending⟩

/-- One of two services is validated and held; the other is pending. -/
def twoServices : List Action :=
  [.command (.start false) .nominal .nominal, .browse 1 (.added ⟨"desk", "10.0.0.5", 8080⟩),
    .deliver .nominal, .validated 0 true, .deliver .nominal,
    .browse 1 (.added ⟨"attic", "10.0.0.6", 8080⟩), .deliver .nominal]

theorem booked_of_twoServices :
    ∃ w : World, (initial 10000 .nominal).run twoServices = some w ∧
      w.engine.endpoints.byKey.keys = ["10.0.0.5:8080"] ∧
      w.engine.session.map (·.pending.keys) = some ["10.0.0.6:8080"] ∧ w.Booked := by
  have hrun : ((initial 10000 .nominal).run twoServices).map (fun w =>
      (w.engine.endpoints.byKey.keys, w.engine.session.map (·.pending.keys))) =
        some (["10.0.0.5:8080"], some ["10.0.0.6:8080"]) := by decide +kernel
  obtain ⟨w, hw, hkeys⟩ := Option.map_eq_some_iff.mp hrun
  rw [Prod.mk.injEq] at hkeys
  exact ⟨w, hw, hkeys.1, hkeys.2, @Reachable.booked _ 10000 ⟨.nominal, twoServices, hw⟩⟩

end World
end LanInference
