/-
# The low-power budget

In low-power mode no more than three endpoints are held or being validated. A validation begins only
for the current pass of a session; a session with a pass is not paused and so has a policy with a
budget (`Engine.Turn.spends`). Nothing else adds to what is held and pending: a result that counts
takes its key from the pending ones, a removal, a stop and a restart only take away
(`Engine.Dealing.load_le`). A scan that starts with nothing and never leaves low-power mode
therefore stays within the budget.

Key definitions: `Engine.load`, `World.Thrifty`.
Key theorems: `PollingPolicy.budgetExhausted_ofState`, `Engine.Turn.spends`,
`Engine.Dealing.load_le`, `World.load_run`, `World.Reachable.thrifty`.
-/
import Mathlib.Data.List.Infix
import LanInference.Proofs.Discovery.Bookkeeping
import LanInference.Proofs.Discovery.Lifecycle

namespace LanInference

/-- A session that may poll has a budget in low-power mode, and only then. -/
theorem PollingPolicy.budgetExhausted_ofState {p : PowerState} {userInitiated : Bool} (floor : Nat)
    (h : ¬ (p.inBackground = true ∧ userInitiated = false)) (confirmed : Nat) :
    (ofState p userInitiated floor).budgetExhausted confirmed =
      (p.lowPowerMode && decide (lowPowerBudget ≤ confirmed)) := by
  have hbudget : (ofState p userInitiated floor).validationBudget =
      if p.lowPowerMode then some lowPowerBudget else none := by
    unfold ofState
    cases hb : p.inBackground <;> cases hu : userInitiated <;> simp_all
  unfold budgetExhausted
  rw [hbudget]
  cases p.lowPowerMode <;> rfl

namespace Engine

variable {now : Nat} {r : Option Report} {e e' : Engine} {es : List Effect} {s : ScanSession}

/-- How many endpoints are held and keys pending. -/
def load (e : Engine) : Nat :=
  e.endpoints.size + match e.session with
    | some s => s.pending.size
    | none => 0

theorem load_eq (hs : e.session = some s) : e.load = e.endpoints.size + s.pending.size := by
  rw [load, hs]

/-- The load can be read off the ledger. -/
theorem load_of_ledger {held : EndpointSet} {generation g : Nat} {pending : OrderedMap Unit}
    (h : e.ledger = ⟨held, generation, some (g, pending)⟩) :
    e.load = held.size + pending.size := by
  have hheld : e.endpoints = held := congrArg Ledger.held h
  obtain ⟨s, hs, _, hpending⟩ := ledger_session_eq_some_iff.mp (congrArg Ledger.session h)
  rw [load_eq hs, hheld, hpending]

theorem load_of_ledger_eq (h : e'.ledger = e.ledger) : e'.load = e.load := by
  cases hs : e.session with
  | some s => rw [load_of_ledger (h.trans (ledger_eq hs)), load_eq hs]
  | none =>
    have hnone : e'.session = none := by
      have hsession := congrArg Ledger.session h
      rw [ledger, ledger, hs] at hsession
      exact Option.map_eq_none_iff.mp hsession
    have hheld : e'.endpoints = e.endpoints := congrArg Ledger.held h
    rw [load, load, hs, hnone, hheld]

/-- Without a session only the endpoints count. -/
theorem load_of_ended (h : e'.ledger = { e.ledger with session := none }) : e'.load ≤ e.load := by
  have hheld : e'.endpoints = e.endpoints := congrArg Ledger.held h
  have hnone : e'.session = none := Option.map_eq_none_iff.mp (congrArg Ledger.session h)
  rw [load, load, hheld, hnone]
  exact Nat.add_le_add_left (Nat.zero_le _) _

/-- **What begins no validation adds nothing to the load.** -/
theorem Dealing.load_le (h : Dealing r e e' es) (hq : ∀ x ∈ es, x.isValidation = false) :
    e'.load ≤ e.load := by
  cases h with
  | keeps _ hl => exact Nat.le_of_eq (load_of_ledger_eq hl)
  | ends _ hl => exact load_of_ended hl
  | renews _ held hheld hl =>
    have hload : e'.load = held.size := load_of_ledger hl
    have hfewer : held.size ≤ e.endpoints.size := by
      rcases hheld with rfl | rfl
      · exact Nat.le_refl _
      · exact Nat.zero_le _
    rw [hload, load]
    omega
  | asks _ _ _ _ _ hes =>
    subst hes
    cases hq _ (List.mem_singleton_self _)
  | @drops s _ service hs _ _ hl =>
    have hheld := EndpointSet.size_remove e.endpoints service.key
    have hpending := OrderedMap.size_erase s.pending service.key.text
    rw [load_of_ledger hl, load_eq hs, hheld, hpending]
    split <;> split <;> omega
  | @settles s service ok hs hpending _ hl =>
    have herased := OrderedMap.size_erase s.pending service.key.text
    have hpos := OrderedMap.size_pos hpending
    rw [if_pos hpending] at herased
    rw [load_of_ledger hl, load_eq hs, herased]
    cases ok with
    | false =>
      rw [if_neg Bool.false_ne_true]
      omega
    | true =>
      have hinserted := EndpointSet.size_insert e.endpoints (.ofService service)
      rw [if_pos rfl, hinserted]
      split <;> omega

/-- A validation begins only for a session with a current pass, within the budget of its policy, and
adds one to the load. -/
theorem Turn.spends (h : Turn now r e e' es) :
    (∀ x ∈ es, x.isValidation = false) ∨ ∃ s pass, e.session = some s ∧ s.pass = some pass ∧
      (e.policy s.userInitiated).budgetExhausted e.load = false ∧ e'.power = e.power ∧
      e'.load = e.load + 1 := by
  rcases h.dealing.quiet_or_asks with hq | ⟨_, _, _, _, _, hr, _, _, hes⟩
  · exact .inl hq
  · cases h with
    | rest => cases hes
    | @ask _ s pass service hs hp hheld hpending hbudget =>
      have hload := load_eq hs
      rw [← hload] at hbudget
      have hsize := OrderedMap.size_insert s.pending service.key.text ()
      rw [hpending, if_neg Bool.false_ne_true] at hsize
      refine .inr ⟨s, pass, hs, hp, hbudget, rfl, ?_⟩
      show e.endpoints.size + (s.pending.insert service.key.text ()).size = e.load + 1
      omega
    | _ => simp at hr

end Engine

namespace World

variable {w w' : World} {a : Action}

/-- A change begins no validation and adds nothing to the load, or in low-power mode it leaves the
load within the budget. -/
theorem Change.within_budget (hs : w.Settled) (hc : Change w a w') :
    (w'.dispatched = w.dispatched ∧ w'.engine.load ≤ w.engine.load) ∨
      (w'.engine.power.lowPowerMode = true → w'.engine.load ≤ PollingPolicy.lowPowerBudget) := by
  cases hc with
  | @turn a r rest e es ho hm ha hturn =>
    rw [after_engine]
    rcases hturn.spends with hq | ⟨s, pass, hsession, hp, hbudget, hpower, hload⟩
    · have hsame := validations_after_quiet (w := { w with mailbox := rest }) (e := e) hq
      exact .inl ⟨hsame.2, hturn.dealing.load_le hq⟩
    · refine .inr fun hlow => ?_
      -- A paused session has no pass, so this one may poll and has a budget.
      have horderly := (hs.1 ho).orderly s hsession
      have hmay : ¬ (w.engine.power.inBackground = true ∧ s.userInitiated = false) := by
        intro hall
        rw [horderly.pass_eq (horderly.reading_iff.mpr hall)] at hp
        cases hp
      rw [Engine.policy, PollingPolicy.budgetExhausted_ofState w.engine.floor hmay, ← hpower, hlow,
        Bool.true_and, decide_eq_false_iff_not] at hbudget
      dsimp only at hload ⊢
      omega
  | sees | passEnds | validated | aside => exact .inl ⟨rfl, Nat.le_refl _⟩
  | shutdown =>
    have hsame := validations_after_quiet (w := w) (e := w.engine.cancelSession.1)
      w.engine.cancelSession_quiet
    refine .inl ⟨hsame.2, ?_⟩
    rw [after_engine]
    exact Engine.load_of_ended w.engine.ledger_cancelSession

/-- Whether the last reading taken is low-power in every world that the run comes through. -/
def StaysLow (w : World) (as : List Action) : Prop :=
  ∀ before v, before <+: as → w.run before = some v → v.engine.power.lowPowerMode = true

/-- A run in low-power mode stays within the budget. -/
theorem load_run {floor : Nat} : ∀ (as : List Action) {w w' : World}, Reachable floor w →
    w.engine.load ≤ PollingPolicy.lowPowerBudget → w.run as = some w' → w.StaysLow as →
    w'.engine.load ≤ PollingPolicy.lowPowerBudget
  | [], w, w', _, hload, hrun, _ => by
    cases hrun
    exact hload
  | a :: as, w, w', hreach, hload, hrun, hlow => by
    rw [run_cons] at hrun
    obtain ⟨v, hstep, hrun⟩ := Option.bind_eq_some_iff.mp hrun
    have hlow_v : v.StaysLow as := by
      intro before u hbefore hu
      refine hlow (a :: before) u (List.cons_prefix_cons.mpr ⟨rfl, hbefore⟩) ?_
      rw [run_cons, hstep]
      exact hu
    have hload_v : v.engine.load ≤ PollingPolicy.lowPowerBudget := by
      rcases (change_of_step hstep).within_budget hreach.settled with ⟨_, hle⟩ | hle
      · exact Nat.le_trans hle hload
      · exact hle (hlow_v [] v (List.nil_prefix) rfl)
    exact load_run as (hreach.step hstep) hload_v hrun hlow_v

/-- What low-power mode allows: a validation that begins leaves no more than three endpoints held
and keys pending, and a scan that starts with nothing never has more while it stays in that mode. -/
structure Thrifty (w : World) : Prop where
  dispatch : ∀ a w', w.step a = some w' → w'.dispatched ≠ w.dispatched →
    w'.engine.power.lowPowerMode = true → w'.engine.load ≤ 3
  scan : ∀ userInitiated reading rereading w₁ as w',
    w.step (.command (.start userInitiated) reading rereading) = some w₁ →
    (userInitiated = true ∨ w.engine.endpoints = .empty) → w₁.run as = some w' → w₁.StaysLow as →
    w'.engine.load ≤ 3

/-- **In low-power mode no validation takes the endpoints held and the keys pending above three, and
a scan that starts with nothing stays within that.** -/
theorem Reachable.thrifty {floor : Nat} (h : Reachable floor w) : w.Thrifty := by
  refine ⟨fun a w' hstep hbegun hlow => ?_, ?_⟩
  · rcases (change_of_step hstep).within_budget h.settled with ⟨hsame, _⟩ | hle
    · exact absurd hsame hbegun
    · exact hle hlow
  · intro userInitiated reading rereading w₁ as w' hstart hempty hrun hlow
    have hledger := Engine.ledger_start_of_nothing ⟨w.now, reading, rereading⟩ hempty
    have hload : w₁.engine.load ≤ PollingPolicy.lowPowerBudget := by
      rw [step_command hstart, after_engine, Engine.onCommand, Engine.load_of_ledger hledger]
      exact Nat.zero_le _
    exact load_run as (h.step hstart) hload hrun hlow

/-- Four services appear, of which three are validated; one of these goes, and after a restart that
keeps the others the fourth is asked for. -/
def fourServices : List Action :=
  let low := PowerState.nominal.withLowPower true
  (List.range 4).flatMap (fun n =>
    [.browse 1 (.added ⟨"desk", "10.0.0.5", UInt16.ofNat (8080 + n)⟩), .deliver low]) ++
  (List.range 3).flatMap (fun n => [.validated n true, .deliver low]) ++
  [.browse 1 (.removed ⟨"desk", "10.0.0.5", 8080⟩), .deliver low,
    .command (.start false) low low, .browse 2 (.added ⟨"desk", "10.0.0.5", 8083⟩), .deliver low]

/-- The budget is used up to the last. -/
theorem thrifty_of_fourServices :
    ∃ w₁ w' : World, (initial 10000 .nominal).step
        (.command (.start true) .nominal (PowerState.nominal.withLowPower true)) = some w₁ ∧
      w₁.run fourServices = some w' ∧ w'.dispatched = 4 ∧ w'.engine.load = 3 ∧
      w'.engine.load ≤ 3 := by
  have hall : ((initial 10000 .nominal).step
      (.command (.start true) .nominal (PowerState.nominal.withLowPower true))).bind (fun w₁ =>
        (w₁.run fourServices).map fun w' => (w'.dispatched, w'.engine.load,
          fourServices.inits.all fun before =>
            (w₁.run before).all (·.engine.power.lowPowerMode))) = some (4, 3, true) := by
    decide +kernel
  obtain ⟨w₁, hw₁, hall⟩ := Option.bind_eq_some_iff.mp hall
  obtain ⟨w', hw', hload⟩ := Option.map_eq_some_iff.mp hall
  simp only [Prod.mk.injEq] at hload
  obtain ⟨hbegun, hload, hlow⟩ := hload
  have hstays : w₁.StaysLow fourServices := by
    intro before v hbefore hv
    have hone := List.all_eq_true.mp hlow before ((List.mem_inits _ _).mpr hbefore)
    rwa [hv] at hone
  exact ⟨w₁, w', hw₁, hw', hbegun, hload, (@Reachable.thrifty _ 10000 ⟨.nominal, [], rfl⟩).scan
    true _ _ w₁ fourServices w' hw₁ (.inl rfl) hw' hstays⟩

end World
end LanInference
