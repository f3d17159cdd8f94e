/-
# What can happen to a world

All that an action does to a world, one case for each kind of action (`World.Change`): the engine
takes a turn and what it asks for is done, a task reports, or something aside happens that neither
the engine nor its tasks notice. What holds of a new world and is kept by every change holds of
every reachable world (`World.Reachable.induct`).

Key definitions: `Effect.isPass`, `Effect.isValidation`, `Action.traffic`, `World.Change`.
Key theorems: `World.passes_after_quiet`, `World.validations_after_quiet`, `World.change_of_step`,
`World.Reachable.induct`.
-/
import Mathlib.Data.List.Induction
import LanInference.Discovery.World
import LanInference.Proofs.Discovery.Turn

namespace LanInference

/-- Whether an effect is about a browse pass. -/
def Effect.isPass : Effect → Bool
  | startPass .. | cancelPass _ => true
  | _ => false

/-- Whether an effect asks for a validation. -/
def Effect.isValidation : Effect → Bool
  | validate .. => true
  | _ => false

/-- What an action does to the mailbox. -/
inductive Traffic where
  | still
  /-- The oldest report is taken. -/
  | take
  /-- A report comes in: if it is the result of a validation, of the how-manieth. -/
  | post (sender : Option Nat)
  | clear

def Action.traffic : Action → Traffic
  | deliver _ => .take
  | browse .. | passEnds .. => .post none
  | validated serial _ => .post (some serial)
  | shutdown => .clear
  | _ => .still

/-- Whether the engine takes part in an action. -/
def Action.isInput : Action → Bool
  | command .. | deliver _ | timer _ | shutdown => true
  | _ => false

/-! ### What the end of a pass asks for -/

/-- The end of a pass asks for nothing but its cancellation. -/
theorem ScanSession.filterMap_endPass {β : Type} {f : Effect → Option β}
    (hf : ∀ pass, f (.cancelPass pass) = none) (s : ScanSession) :
    s.endPass.2.filterMap f = [] := by
  refine List.filterMap_eq_nil_iff.mpr fun x hx => ?_
  obtain ⟨pass, _, rfl⟩ := List.mem_map.mp hx
  exact hf pass

theorem Engine.filterMap_cancelSession {β : Type} {f : Effect → Option β}
    (hf : ∀ pass, f (.cancelPass pass) = none) (e : Engine) :
    e.cancelSession.2.filterMap f = [] := by
  unfold cancelSession
  cases e.session with
  | none => rfl
  | some s => exact s.filterMap_endPass hf

namespace World

/-! ### Doing what the engine asks -/

/-- What no effect changes, doing a list of effects does not change. -/
theorem foldl_perform {β : Type} (f : World → β) :
    ∀ (es : List Effect) (w : World), (∀ x ∈ es, ∀ w : World, f (w.perform x) = f w) →
      f (es.foldl perform w) = f w
  | [], _, _ => rfl
  | x :: es, w, h => by
    have hx := h x List.mem_cons_self w
    have hes := foldl_perform f es (w.perform x) fun y hy => h y (List.mem_cons_of_mem _ hy)
    rw [List.foldl_cons, hes, hx]

variable (w : World) (e : Engine) (es fs : List Effect)

@[simp] theorem after_nil : w.after (e, []) = { w with engine := e } := rfl

@[simp] theorem after_engine (r : Engine × List Effect) : (w.after r).engine = r.1 :=
  foldl_perform World.engine r.2 _ fun x _ w => by cases x <;> rfl

@[simp] theorem after_mailbox (r : Engine × List Effect) : (w.after r).mailbox = w.mailbox :=
  foldl_perform World.mailbox r.2 _ fun x _ w => by cases x <;> rfl

@[simp] theorem after_isOpen (r : Engine × List Effect) : (w.after r).isOpen = w.isOpen :=
  foldl_perform World.isOpen r.2 _ fun x _ w => by cases x <;> rfl

@[simp] theorem after_now (r : Engine × List Effect) : (w.after r).now = w.now :=
  foldl_perform World.now r.2 _ fun x _ w => by cases x <;> rfl

/-- What the engine asks for goes into the record, the newest first. -/
theorem record_foldl : ∀ (es : List Effect) (w : World),
    (es.foldl perform w).record = (es.map (w.now, ·)).reverse ++ w.record
  | [], _ => rfl
  | x :: es, w => by
    have hnow : (w.perform x).now = w.now := by cases x <;> rfl
    have hrecord : (w.perform x).record = (w.now, x) :: w.record := by cases x <;> rfl
    rw [List.foldl_cons, record_foldl es, hnow, hrecord, List.map_cons, List.reverse_cons,
      List.append_assoc]
    rfl

theorem after_record (r : Engine × List Effect) :
    (w.after r).record = (r.2.map (w.now, ·)).reverse ++ w.record :=
  record_foldl r.2 { w with engine := r.1 }

/-- What is read off the record grows by what is read off what the engine asks for now. -/
theorem filterMap_record_after {β : Type} (f : Nat × Effect → Option β)
    (r : Engine × List Effect) : (w.after r).record.filterMap f =
      (r.2.filterMap fun x => f (w.now, x)).reverse ++ w.record.filterMap f := by
  rw [after_record, List.filterMap_append, List.filterMap_reverse, List.filterMap_map]
  rfl

theorem after_append : w.after (e, es ++ fs) = (w.after (e, es)).after (e, fs) := by
  have hsame : ∀ v : World, v.engine = e → { v with engine := e } = v := by
    rintro v rfl
    rfl
  calc w.after (e, es ++ fs) = fs.foldl perform (w.after (e, es)) := List.foldl_append
    _ = (w.after (e, es)).after (e, fs) := by
      conv_lhs => rw [← hsame _ (w.after_engine (e, es))]
      rfl

variable {w e es}

/-- What each of the effects keeps, doing them all keeps. -/
theorem after_induct {P : World → Prop} (h : P { w with engine := e })
    (hperform : ∀ x ∈ es, ∀ v, P v → P (v.perform x)) : P (w.after (e, es)) :=
  List.foldlRecOn es perform h fun v hv x hx => hperform x hx v hv

/-- Effects that are not about passes leave the running passes alone. -/
theorem passes_after_quiet (h : ∀ x ∈ es, x.isPass = false) :
    (w.after (e, es)).passes = w.passes := by
  refine foldl_perform World.passes es _ fun x hx w => ?_
  have hquiet := h x hx
  cases x with
  | publish | validate => rfl
  | startPass | cancelPass => cases hquiet

/-- Effects that ask for no validation leave those in flight alone. -/
theorem validations_after_quiet (h : ∀ x ∈ es, x.isValidation = false) :
    (w.after (e, es)).validations = w.validations ∧
      (w.after (e, es)).dispatched = w.dispatched := by
  have hall := foldl_perform (fun w => (w.validations, w.dispatched)) es { w with engine := e }
    fun x hx w => by
      have hquiet := h x hx
      cases x with
      | publish | startPass | cancelPass => rfl
      | validate => cases hquiet
  exact Prod.mk.inj hall

/-! ### Changes -/

/-- All that an action does. -/
inductive Change : World → Action → World → Prop
  /-- The engine takes a turn, with the oldest report or without one. -/
  | turn {w : World} {a : Action} {r : Option Report} {rest : List Report} {e : Engine}
      {es : List Effect} (ho : w.isOpen = true) (hm : w.mailbox = r.toList ++ rest)
      (ha : a.traffic = if r.isSome then .take else .still)
      (h : Engine.Turn w.now r w.engine e es) :
      Change w a ({ w with mailbox := rest }.after (e, es))
  | sees {w : World} {t : PassTask} (ht : t ∈ w.passes) (event : BrowseEvent) :
      Change w (.browse t.pass event)
        { w with mailbox := w.mailbox ++ [.browse t.generation t.pass event] }
  | passEnds {w : World} {t : PassTask} (ht : t ∈ w.passes) (error : Option String) :
      Change w (.passEnds t.pass error)
        { w with
          passes := w.passes.filter (·.pass ≠ t.pass)
          mailbox := w.mailbox ++ [.passEnded t.generation t.pass error] }
  | validated {w : World} {t : ValidationTask} (ht : t ∈ w.validations) (ok : Bool) :
      Change w (.validated t.serial ok)
        { w with
          validations := w.validations.filter (·.serial ≠ t.serial)
          mailbox := w.mailbox ++ [.validated t.generation t.service ok] }
  /-- Time passes, or subscriptions come, go and are polled. -/
  | aside {w : World} {a : Action} (now : Nat) (subscriptions : OrderedMap Subscription)
      (ha : a.traffic = .still) : Change w a { w with now, subscriptions }
  | shutdown {w : World} : Change w .shutdown
      { w.after w.engine.cancelSession with isOpen := false, mailbox := [] }

variable {w' : World} {a : Action}

theorem change_of_step (h : w.step a = some w') : Change w a w' := by
  unfold step at h
  have hnone : w.mailbox = (none : Option Report).toList ++ w.mailbox := rfl
  cases a with
  | command c reading rereading =>
    dsimp only at h
    by_cases ho : w.isOpen = true
    · rw [if_pos ho] at h
      cases h
      exact .turn ho hnone rfl
        (Engine.turn_of_onCommand w.engine ⟨w.now, reading, rereading⟩ c)
    · rw [if_neg ho] at h
      cases h
  | deliver reading =>
    dsimp only at h
    split at h
    · rename_i r rest hm
      by_cases ho : w.isOpen = true
      · rw [if_pos ho] at h
        cases h
        exact .turn (a := .deliver reading) (r := some r) ho hm rfl
          (Engine.turn_of_onReport w.engine ⟨w.now, reading, reading⟩ r)
      · rw [if_neg ho] at h
        cases h
    · cases h
  | timer reading =>
    dsimp only at h
    split at h
    · rename_i t hnext
      obtain ⟨s, hs, ht⟩ := Option.bind_eq_some_iff.mp hnext
      by_cases ho : w.isOpen = true ∧ t ≤ w.now
      · rw [if_pos ho] at h
        cases h
        exact .turn (a := .timer reading) ho.1 hnone rfl
          (Engine.turn_of_tick hs (by simp [ht]) ⟨w.now, reading, reading⟩)
      · rw [if_neg ho] at h
        cases h
    · cases h
  | browse pass event =>
    obtain ⟨t, ht, rfl⟩ := Option.map_eq_some_iff.mp h
    have hpass : t.pass = pass := by simpa using List.find?_some ht
    subst hpass
    exact .sees (List.mem_of_find?_eq_some ht) event
  | passEnds pass error =>
    obtain ⟨t, ht, rfl⟩ := Option.map_eq_some_iff.mp h
    have hpass : t.pass = pass := by simpa using List.find?_some ht
    subst hpass
    exact .passEnds (List.mem_of_find?_eq_some ht) error
  | validated serial ok =>
    obtain ⟨t, ht, rfl⟩ := Option.map_eq_some_iff.mp h
    have hserial : t.serial = serial := by simpa using List.find?_some ht
    subst hserial
    exact .validated (List.mem_of_find?_eq_some ht) ok
  | elapse time =>
    cases h
    exact .aside (a := .elapse time) (w.now + time) w.subscriptions rfl
  | subscribe name =>
    dsimp only at h
    by_cases ho : w.isOpen = true
    · rw [if_pos ho] at h
      cases h
      exact .aside (a := .subscribe name) w.now _ rfl
    · rw [if_neg ho] at h
      cases h
  | unsubscribe name =>
    cases h
    exact .aside (a := .unsubscribe name) w.now _ rfl
  | poll name =>
    obtain ⟨s, _, rfl⟩ := Option.map_eq_some_iff.mp h
    exact .aside (a := .poll name) w.now _ rfl
  | shutdown =>
    dsimp only at h
    by_cases ho : w.isOpen = true
    · rw [if_pos ho] at h
      cases h
      exact .shutdown
    · rw [if_neg ho] at h
      cases h

/-- What the engine takes no part in leaves it and what it has asked for as they were. -/
theorem kept_of_step (h : w.step a = some w') (ha : a.isInput = false) :
    w'.engine = w.engine ∧ w'.record = w.record := by
  unfold step at h
  cases a with
  | command | deliver | timer | shutdown => cases ha
  | browse | passEnds | validated | poll =>
    obtain ⟨_, _, rfl⟩ := Option.map_eq_some_iff.mp h
    exact ⟨rfl, rfl⟩
  | elapse | unsubscribe =>
    cases h
    exact ⟨rfl, rfl⟩
  | subscribe =>
    dsimp only at h
    split at h
    · cases h
      exact ⟨rfl, rfl⟩
    · cases h

/-- What the engine takes no part in and leaves the mailbox alone happens aside. -/
theorem aside_of_step (h : w.step a = some w') (ha : a.isInput = false)
    (hstill : a.traffic = .still) : ∃ now subscriptions, w' = { w with now, subscriptions } := by
  unfold step at h
  cases a with
  | command | deliver | timer | shutdown => cases ha
  | browse | passEnds | validated => cases hstill
  | elapse | unsubscribe => exact ⟨_, _, (Option.some.inj h).symm⟩
  | subscribe =>
    dsimp only at h
    split at h
    · exact ⟨_, _, (Option.some.inj h).symm⟩
    · cases h
  | poll =>
    obtain ⟨_, _, rfl⟩ := Option.map_eq_some_iff.mp h
    exact ⟨_, _, rfl⟩

/-- Time does not go back. -/
theorem now_le_of_step (h : w.step a = some w') : w.now ≤ w'.now := by
  unfold step at h
  cases a with
  | command | subscribe | shutdown =>
    dsimp only at h
    split at h
    · cases h
      simp
    · cases h
  | deliver | timer =>
    dsimp only at h
    split at h
    · split at h
      · cases h
        simp
      · cases h
    · cases h
  | browse | passEnds | validated | poll =>
    obtain ⟨_, _, rfl⟩ := Option.map_eq_some_iff.mp h
    exact Nat.le_refl _
  | elapse time =>
    cases h
    exact Nat.le_add_right _ _
  | unsubscribe =>
    cases h
    exact Nat.le_refl _

theorem step_command {c : Command} {reading rereading : PowerState}
    (h : w.step (.command c reading rereading) = some w') :
    w' = w.after (w.engine.onCommand ⟨w.now, reading, rereading⟩ c) := by
  unfold step at h
  dsimp only at h
  split at h
  · exact (Option.some.inj h).symm
  · cases h

theorem step_deliver {r : Report} {rest : List Report} (reading : PowerState)
    (ho : w.isOpen = true) (hm : w.mailbox = r :: rest) :
    w.step (.deliver reading) = some ({ w with mailbox := rest }.after
      (w.engine.onReport ⟨w.now, reading, reading⟩ r)) := by
  unfold step
  rw [hm]
  exact if_pos ho

/-- Reports are taken as long as someone holds the engine. -/
theorem isOpen_of_deliver {reading : PowerState} (h : w.step (.deliver reading) = some w') :
    w.isOpen = true := by
  unfold step at h
  dsimp only at h
  split at h
  · by_contra ho
    rw [if_neg ho] at h
    cases h
  · cases h

/-- A delivery hands the engine the oldest report. -/
theorem report_of_deliver {reading : PowerState} (h : w.step (.deliver reading) = some w') :
    ∃ r rest, w.mailbox = r :: rest ∧
      w' = { w with mailbox := rest }.after (w.engine.onReport ⟨w.now, reading, reading⟩ r) := by
  cases hm : w.mailbox with
  | nil =>
    rw [World.step, hm] at h
    cases h
  | cons r rest =>
    have hw := step_deliver reading (isOpen_of_deliver h) hm
    rw [h, Option.some.injEq] at hw
    exact ⟨r, rest, rfl, hw⟩

theorem run_cons (w : World) (a : Action) (as : List Action) :
    w.run (a :: as) = (w.step a).bind fun w => w.run as := by
  rw [run, List.foldlM_cons]
  rfl

theorem run_concat (w : World) (as : List Action) (a : Action) :
    w.run (as ++ [a]) = (w.run as).bind fun w => w.step a := by
  simp [run, List.foldlM_append]

theorem run_append (w : World) (as bs : List Action) :
    w.run (as ++ bs) = (w.run as).bind fun w => w.run bs := List.foldlM_append

/-- What every step of a run keeps, the run keeps. -/
theorem run_induct {P : World → Prop} {as : List Action} (h : P w)
    (hstep : ∀ a ∈ as, ∀ v v', P v → v.step a = some v' → P v') (hrun : w.run as = some w') :
    P w' := by
  induction as generalizing w with
  | nil =>
    cases hrun
    exact h
  | cons a as ih =>
    rw [run_cons] at hrun
    obtain ⟨v, hv, hrun⟩ := Option.bind_eq_some_iff.mp hrun
    exact ih (hstep a List.mem_cons_self w v h hv)
      (fun x hx => hstep x (List.mem_cons_of_mem _ hx)) hrun

theorem Reachable.run {floor : Nat} {as : List Action} (h : Reachable floor w)
    (hrun : w.run as = some w') : Reachable floor w' := by
  obtain ⟨reading, before, hbefore⟩ := h
  refine ⟨reading, before ++ as, ?_⟩
  rw [run_append, hbefore]
  exact hrun

theorem Reachable.step {floor : Nat} (h : Reachable floor w) (hstep : w.step a = some w') :
    Reachable floor w' := by
  have hrun : w.run [a] = some w' := by
    rw [run_cons, hstep]
    rfl
  exact h.run hrun

/-- **What every step keeps holds of every reachable world.** -/
theorem Reachable.step_induct {floor : Nat} {P : World → Prop}
    (hinitial : ∀ reading, P (initial floor reading))
    (hstep : ∀ {w w' : World} {a : Action}, P w → w.step a = some w' → P w')
    (h : Reachable floor w) : P w := by
  obtain ⟨reading, as, hrun⟩ := h
  induction as using List.reverseRecOn generalizing w with
  | nil =>
    cases hrun
    exact hinitial reading
  | append_singleton as a ih =>
    rw [run_concat, Option.bind_eq_some_iff] at hrun
    obtain ⟨before, hbefore, hlast⟩ := hrun
    exact hstep (ih hbefore) hlast

/-- **What every change keeps holds of every reachable world.** -/
theorem Reachable.induct {floor : Nat} {P : World → Prop}
    (hinitial : ∀ reading, P (initial floor reading))
    (hchange : ∀ {w w' : World} {a : Action}, P w → Change w a w' → P w')
    (h : Reachable floor w) : P w :=
  h.step_induct hinitial fun hw hstep => hchange hw (change_of_step hstep)

end World
end LanInference
