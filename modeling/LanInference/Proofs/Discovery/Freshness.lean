/-
# How long an outcome is used

A validator is asked from several sides at once. A call first looks for an outcome that it may use
again, and otherwise sends a probe and waits; whenever a probe comes to its end, its outcome is kept
under the key it was asked for, and returned. Between these two moments other calls go on.

What a call gives follows from the history: a call that prefers the cache gets the outcome of the
latest probe of its key that has come to its end, if that was less than 300 seconds ago, and sends
nothing; every other call sends one probe and gives what that one finds. Using an outcome again does
not make it any younger.

Key definitions: `CallStep`, `CallSystem`, `CallSystem.step`, `completed`, `Reusable`,
`CallSystem.Serves`, `Validator.steps`.
Key theorems: `CallSystem.kept_eq_latest`, `CallSystem.serves_of_run`, `CallSystem.Serves.asks`,
`Validator.run_steps`, `CallSystem.calls_served`.
-/
import Mathlib.Data.List.Basic
import LanInference.Discovery.Validator
import LanInference.Json.Write
import LanInference.Proofs.Discovery.Keys

namespace LanInference

/-! ### Calls that overlap -/

/-- What happens to a validator. -/
inductive CallStep where
  /-- A call begins. -/
  | asked (time : Nat) (service : Service) (probe : ProbePolicy)
  /-- The probe of a call comes to its end, with an answer or without one. -/
  | answered (call : Nat) (time : Nat) (answer : Option ProbeAnswer)

/-- A validator with the calls to it so far, in the order in which they began. -/
structure CallSystem where
  validator : Validator := {}
  now : Nat := 0
  /-- The key of each call, and what it returned, if it has returned. -/
  calls : List (EndpointKey × Option Bool) := []
  /-- The probes sent: the number of the call and the request, if its URL allows for one. -/
  probes : List (Nat × Option HttpRequest) := []

/-- The validator after a probe of this key has come to its end. -/
def Validator.keep (v : Validator) (key : EndpointKey) (time : Nat) (ok : Bool) : Validator :=
  ⟨v.outcomes.insert key.text (time, ok)⟩

namespace CallSystem

/-- One step. A call that finds an outcome returns at once, and any other sends a probe; time does
not go back. -/
def step (s : CallSystem) : CallStep → Option CallSystem
  | .asked time service probe =>
    if s.now ≤ time then
      match s.validator.reuse? { time, service, probe, answer := none } with
      | some ok => some { s with now := time, calls := s.calls ++ [(service.key, some ok)] }
      | none =>
        some { s with
          now := time
          calls := s.calls ++ [(service.key, none)]
          probes := s.probes ++ [(s.calls.length, probeRequest? service probe)] }
    else none
  | .answered call time answer =>
    match s.calls[call]? with
    | some (key, none) =>
      if s.now ≤ time then
        let ok := answer.any ProbeAnswer.isPositive
        some { s with
          validator := s.validator.keep key time ok
          now := time
          calls := s.calls.set call (key, some ok) }
      else none
    | _ => none

def run (s : CallSystem) (steps : List CallStep) : Option CallSystem := steps.foldlM step s

/-- The requests sent for a call. -/
def probesOf (s : CallSystem) (call : Nat) : List (Option HttpRequest) :=
  (s.probes.filter (·.1 = call)).map (·.2)

theorem run_cons (s : CallSystem) (a : CallStep) (steps : List CallStep) :
    s.run (a :: steps) = (s.step a).bind fun t => t.run steps := rfl

theorem run_append (s : CallSystem) (xs ys : List CallStep) :
    s.run (xs ++ ys) = (s.run xs).bind fun t => t.run ys := by
  simp only [run, List.foldlM_append]
  rfl

/-- A run goes on from where its first step leads. -/
theorem exists_step_of_run {s t : CallSystem} {a : CallStep} {steps : List CallStep}
    (h : s.run (a :: steps) = some t) : ∃ next, s.step a = some next ∧ next.run steps = some t := by
  rw [run_cons] at h
  exact Option.bind_eq_some_iff.mp h

end CallSystem

/-! ### What the history says -/

/-- The key that a step asks for, if it begins a call. -/
def CallStep.asks : CallStep → List EndpointKey
  | asked _ service _ => [service.key]
  | answered .. => []

/-- The keys asked for, call by call. -/
def keysAsked (steps : List CallStep) : List EndpointKey := steps.flatMap CallStep.asks

/-- What a step completes of a key's probes, where these keys have been asked for before: when, and
with which outcome. -/
def CallStep.completes (key : EndpointKey) (keys : List EndpointKey) : CallStep → List (Nat × Bool)
  | answered call time answer =>
    if keys[call]? = some key then [(time, answer.any ProbeAnswer.isPositive)] else []
  | asked .. => []

/-- The probes of a key that come to their end in these steps, after these keys have been asked
for. -/
def completedAfter (key : EndpointKey) (keys : List EndpointKey) : List CallStep → List (Nat × Bool)
  | [] => []
  | a :: steps => a.completes key keys ++ completedAfter key (keys ++ a.asks) steps

/-- The completed probes of a key in the order of their ends, each with its time and its outcome. -/
def completed (key : EndpointKey) (steps : List CallStep) : List (Nat × Bool) :=
  completedAfter key [] steps

/-- A call at this time may use this outcome again: it prefers the cache, and the latest completed
probe of its key found the outcome less than 300 seconds ago. -/
def Reusable (steps : List CallStep) (time : Nat) (service : Service) (probe : ProbePolicy)
    (ok : Bool) : Prop :=
  probe.cache = .prefer ∧ ∃ since, (completed service.key steps).getLast? = some (since, ok) ∧
    time < since + outcomeLifetime

theorem keysAsked_append (xs ys : List CallStep) :
    keysAsked (xs ++ ys) = keysAsked xs ++ keysAsked ys := List.flatMap_append

theorem completedAfter_append (key : EndpointKey) : ∀ (xs ys : List CallStep)
    (keys : List EndpointKey), completedAfter key keys (xs ++ ys) =
      completedAfter key keys xs ++ completedAfter key (keys ++ keysAsked xs) ys
  | [], ys, keys => by simp [completedAfter, keysAsked]
  | a :: xs, ys, keys => by
    have hkeys : keys ++ a.asks ++ keysAsked xs = keys ++ keysAsked (a :: xs) :=
      List.append_assoc ..
    rw [List.cons_append, completedAfter, completedAfter_append key xs ys, hkeys, completedAfter,
      List.append_assoc]

theorem completed_append (key : EndpointKey) (xs ys : List CallStep) :
    completed key (xs ++ ys) = completed key xs ++ completedAfter key (keysAsked xs) ys :=
  completedAfter_append key xs ys []

theorem completed_concat (key : EndpointKey) (steps : List CallStep) (a : CallStep) :
    completed key (steps ++ [a]) = completed key steps ++ a.completes key (keysAsked steps) := by
  rw [completed_append, completedAfter, completedAfter, List.append_nil]

/-- A probe that has just come to its end is the latest of its key. -/
theorem getLast?_completed_answered {key : EndpointKey} {steps : List CallStep} {call : Nat}
    (h : (keysAsked steps)[call]? = some key) (time : Nat) (answer : Option ProbeAnswer) :
    (completed key (steps ++ [.answered call time answer])).getLast? =
      some (time, answer.any ProbeAnswer.isPositive) := by
  rw [completed_concat, CallStep.completes, if_pos h, List.getLast?_concat]

/-! ### The validator keeps the latest outcomes -/

theorem Validator.get?_keep (v : Validator) (key : EndpointKey) (time : Nat) (ok : Bool)
    (other : EndpointKey) : (v.keep key time ok).outcomes.get? other.text =
      if other = key then some (time, ok) else v.outcomes.get? other.text := by
  rw [Validator.keep, OrderedMap.get?_insert]
  simp only [EndpointKey.text_inj]

namespace CallSystem

variable {s t : CallSystem} {steps : List CallStep}

/-- What the system holds after these steps: a call for each that began, and for each key the latest
of its completed probes. -/
structure Keeps (s : CallSystem) (steps : List CallStep) : Prop where
  keys : s.calls.map (·.1) = keysAsked steps
  outcomes : ∀ key : EndpointKey,
    s.validator.outcomes.get? key.text = (completed key steps).getLast?

theorem keeps_empty : Keeps {} [] := ⟨rfl, fun _ => rfl⟩

/-- What a step does that begins a call. -/
theorem step_asked {time : Nat} {service : Service} {probe : ProbePolicy}
    (h : s.step (.asked time service probe) = some t) :
    s.now ≤ time ∧ t.validator = s.validator ∧
      ((∃ ok, s.validator.reuse? { time, service, probe, answer := none } = some ok ∧
          t.calls = s.calls ++ [(service.key, some ok)] ∧ t.probes = s.probes) ∨
        (s.validator.reuse? { time, service, probe, answer := none } = none ∧
          t.calls = s.calls ++ [(service.key, none)] ∧
          t.probes = s.probes ++ [(s.calls.length, probeRequest? service probe)])) := by
  rw [step] at h
  split at h
  · rename_i htime
    split at h
    · rename_i ok hok
      cases h
      exact ⟨htime, rfl, .inl ⟨ok, hok, rfl, rfl⟩⟩
    · rename_i hnone
      cases h
      exact ⟨htime, rfl, .inr ⟨hnone, rfl, rfl⟩⟩
  · cases h

/-- A call can begin at any time. -/
theorem exists_step_asked {time : Nat} (h : s.now ≤ time) (service : Service)
    (probe : ProbePolicy) : ∃ t, s.step (.asked time service probe) = some t ∧ t.now = time := by
  rw [step, if_pos h]
  split
  · exact ⟨_, rfl, rfl⟩
  · exact ⟨_, rfl, rfl⟩

/-- What a step does that brings a probe to its end. -/
theorem step_answered {call time : Nat} {answer : Option ProbeAnswer}
    (h : s.step (.answered call time answer) = some t) :
    ∃ key, s.calls[call]? = some (key, none) ∧ s.now ≤ time ∧
      t.validator = s.validator.keep key time (answer.any ProbeAnswer.isPositive) ∧
      t.calls = s.calls.set call (key, some (answer.any ProbeAnswer.isPositive)) ∧
      t.probes = s.probes := by
  rw [step] at h
  split at h
  · rename_i key hcall
    split at h
    · rename_i htime
      cases h
      exact ⟨key, hcall, htime, rfl, rfl, rfl⟩
    · cases h
  · cases h

theorem Keeps.step (hk : s.Keeps steps) {a : CallStep} (h : s.step a = some t) :
    t.Keeps (steps ++ [a]) := by
  cases a with
  | asked time service probe =>
    obtain ⟨-, hvalidator, hcalls⟩ := step_asked h
    have hkeys : t.calls.map (·.1) = s.calls.map (·.1) ++ [service.key] := by
      rcases hcalls with ⟨ok, -, hc, -⟩ | ⟨-, hc, -⟩ <;> simp [hc]
    refine ⟨by rw [hkeys, hk.keys, keysAsked_append]; rfl, fun key => ?_⟩
    rw [hvalidator, completed_concat, CallStep.completes, List.append_nil]
    exact hk.outcomes key
  | answered call time answer =>
    obtain ⟨key, hcall, -, hvalidator, hcalls, -⟩ := step_answered h
    have hasked : (keysAsked steps)[call]? = some key := by
      rw [← hk.keys, List.getElem?_map, hcall]
      rfl
    have hkeys : t.calls.map (·.1) = s.calls.map (·.1) := by
      rw [← hk.keys] at hasked
      obtain ⟨hlt, hsame⟩ := List.getElem?_eq_some_iff.mp hasked
      rw [hcalls, List.map_set, ← hsame]
      exact List.set_getElem_self hlt
    refine ⟨?_, fun other => ?_⟩
    · rw [hkeys, hk.keys, keysAsked_append]
      exact (List.append_nil _).symm
    · rw [hvalidator, Validator.get?_keep]
      by_cases hother : other = key
      · rw [if_pos hother, hother, getLast?_completed_answered hasked]
      · have hnot : ¬ (keysAsked steps)[call]? = some other := fun heq =>
          hother (Option.some.inj (heq.symm.trans hasked))
        rw [if_neg hother, completed_concat, CallStep.completes, if_neg hnot, List.append_nil]
        exact hk.outcomes other

/-- **The validator keeps the latest completed probe of each key,** along every run. -/
theorem kept_eq_latest : ∀ {more : List CallStep} {s : CallSystem} {steps : List CallStep},
    s.Keeps steps → s.run more = some t → t.Keeps (steps ++ more)
  | [], s, steps, hk, h => by
    obtain rfl : s = t := Option.some.inj h
    rwa [List.append_nil]
  | a :: more, s, steps, hk, h => by
    obtain ⟨next, ha, hrest⟩ := exists_step_of_run h
    have hkept := kept_eq_latest (hk.step ha) hrest
    rwa [List.append_assoc] at hkept

/-! ### One call -/

/-- A call finds an outcome exactly if it may use it again. -/
theorem Keeps.reuse?_iff (hk : s.Keeps steps) {time : Nat} {service : Service}
    {probe : ProbePolicy} {ok : Bool} :
    s.validator.reuse? { time, service, probe, answer := none } = some ok ↔
      Reusable steps time service probe ok := by
  unfold Validator.reuse? Validator.fresh? Reusable
  dsimp only
  rw [hk.outcomes]
  have hage : ∀ since, time - since < outcomeLifetime ↔ time < since + outcomeLifetime :=
    fun since => by
      unfold outcomeLifetime
      omega
  cases probe.cache with
  | reload => simp
  | prefer => simp [Option.bind_eq_some_iff, hage]

/-- A step leaves a call as it is, unless it brings the probe of that call to its end. -/
theorem step_call {a : CallStep} (h : s.step a = some t) {n : Nat}
    {entry : EndpointKey × Option Bool} (hn : s.calls[n]? = some entry) :
    t.probesOf n = s.probesOf n ∧
      ((t.calls[n]? = some entry ∧ ∀ time answer, a ≠ .answered n time answer) ∨
        ∃ time answer, a = .answered n time answer ∧ entry.2 = none ∧
          t.calls[n]? = some (entry.1, some (answer.any ProbeAnswer.isPositive))) := by
  have hlt : n < s.calls.length := (List.getElem?_eq_some_iff.mp hn).1
  cases a with
  | asked time service probe =>
    obtain ⟨-, -, ⟨ok, -, hcalls, hprobes⟩ | ⟨-, hcalls, hprobes⟩⟩ := step_asked h
    · refine ⟨by rw [probesOf, hprobes, probesOf], .inl ⟨?_, nofun⟩⟩
      rw [hcalls, List.getElem?_append_left hlt, hn]
    · refine ⟨?_, .inl ⟨?_, nofun⟩⟩
      · have hother : s.calls.length ≠ n := by omega
        rw [probesOf, hprobes, List.filter_append, probesOf]
        simp [hother]
      · rw [hcalls, List.getElem?_append_left hlt, hn]
  | answered call time answer =>
    obtain ⟨key, hcall, -, -, hcalls, hprobes⟩ := step_answered h
    refine ⟨by rw [probesOf, hprobes, probesOf], ?_⟩
    by_cases hsame : call = n
    · subst hsame
      obtain rfl : (key, none) = entry := Option.some.inj (hcall.symm.trans hn)
      exact .inr ⟨time, answer, rfl, rfl, by rw [hcalls, List.getElem?_set_self hlt]⟩
    · refine .inl ⟨by rw [hcalls, List.getElem?_set_ne hsame, hn], fun _ _ heq => ?_⟩
      exact hsame (CallStep.answered.inj heq).1

/-- What a call has returned stays, and it sends nothing more. -/
theorem run_returned {n : Nat} {key : EndpointKey} {ok : Bool} :
    ∀ {more : List CallStep} {s : CallSystem}, s.run more = some t →
      s.calls[n]? = some (key, some ok) →
      t.calls[n]? = some (key, some ok) ∧ t.probesOf n = s.probesOf n
  | [], s, h, hn => by
    obtain rfl : s = t := Option.some.inj h
    exact ⟨hn, rfl⟩
  | a :: more, s, h, hn => by
    obtain ⟨next, ha, hrest⟩ := exists_step_of_run h
    obtain ⟨hprobes, ⟨hstays, -⟩ | ⟨time, answer, -, hnone, -⟩⟩ := step_call ha hn
    · obtain ⟨hlast, hsent⟩ := run_returned hrest hstays
      exact ⟨hlast, hsent.trans hprobes⟩
    · cases hnone

/-- A call that waits for its probe goes on waiting until that comes to its end, and returns what
it found then. -/
theorem run_waiting {n : Nat} {key : EndpointKey} :
    ∀ {more : List CallStep} {s : CallSystem}, s.run more = some t →
      s.calls[n]? = some (key, none) → t.probesOf n = s.probesOf n ∧
        ((t.calls[n]? = some (key, none) ∧ ∀ time answer, .answered n time answer ∉ more) ∨
          ∃ mid time answer rest, more = mid ++ .answered n time answer :: rest ∧
            t.calls[n]? = some (key, some (answer.any ProbeAnswer.isPositive)))
  | [], s, h, hn => by
    obtain rfl : s = t := Option.some.inj h
    exact ⟨rfl, .inl ⟨hn, fun _ _ => List.not_mem_nil⟩⟩
  | a :: more, s, h, hn => by
    obtain ⟨next, ha, hrest⟩ := exists_step_of_run h
    obtain ⟨hprobes, ⟨hstays, hother⟩ | ⟨time, answer, rfl, -, hreturns⟩⟩ := step_call ha hn
    · obtain ⟨hsent, hend⟩ := run_waiting hrest hstays
      refine ⟨hsent.trans hprobes, ?_⟩
      rcases hend with ⟨hwaits, hnever⟩ | ⟨mid, time, answer, rest, rfl, hlast⟩
      · refine .inl ⟨hwaits, fun time answer hmem => ?_⟩
        rcases List.mem_cons.mp hmem with heq | hmem
        · exact hother time answer heq.symm
        · exact hnever time answer hmem
      · exact .inr ⟨a :: mid, time, answer, rest, rfl, hlast⟩
    · obtain ⟨hlast, hsent⟩ := run_returned hrest hreturns
      exact ⟨hsent.trans hprobes, .inr ⟨[], time, answer, more, rfl, hlast⟩⟩

/-- What becomes of a call that begins after some steps and before others: it returns the outcome
that it may use again, and sends nothing; or it sends one probe, returns what that found when it
comes to its end, and makes it the latest of its key. -/
structure Serves (s : CallSystem) (before : List CallStep) (time : Nat) (service : Service)
    (probe : ProbePolicy) (later : List CallStep) : Prop where
  reused : ∀ ok, Reusable before time service probe ok →
    s.calls[(keysAsked before).length]? = some (service.key, some ok) ∧
      s.probesOf (keysAsked before).length = []
  probed : (∀ ok, ¬ Reusable before time service probe ok) →
    s.probesOf (keysAsked before).length = [probeRequest? service probe] ∧
      ((s.calls[(keysAsked before).length]? = some (service.key, none) ∧
          ∀ t answer, .answered (keysAsked before).length t answer ∉ later) ∨
        ∃ mid t answer rest, later = mid ++ .answered (keysAsked before).length t answer :: rest ∧
          s.calls[(keysAsked before).length]? =
            some (service.key, some (answer.any ProbeAnswer.isPositive)) ∧
          (completed service.key (before ++ .asked time service probe :: mid ++
            [.answered (keysAsked before).length t answer])).getLast? =
              some (t, answer.any ProbeAnswer.isPositive))

/-- A call that sends nothing returns an outcome that is less than 300 seconds old, that of the
latest completed probe of its key. -/
theorem Serves.young {before later : List CallStep} {time : Nat} {service : Service}
    {probe : ProbePolicy} (h : s.Serves before time service probe later)
    (hsent : s.probesOf (keysAsked before).length = []) :
    ∃ since ok, (completed service.key before).getLast? = some (since, ok) ∧
      time < since + outcomeLifetime ∧
      s.calls[(keysAsked before).length]? = some (service.key, some ok) := by
  by_cases hreuse : ∃ ok, Reusable before time service probe ok
  · obtain ⟨ok, hok⟩ := hreuse
    obtain ⟨since, hlatest, hyoung⟩ := hok.2
    exact ⟨since, ok, hlatest, hyoung, (h.reused ok hok).1⟩
  · have hnot : ∀ ok, ¬ Reusable before time service probe ok := fun ok hok => hreuse ⟨ok, hok⟩
    have hone := (h.probed hnot).1
    rw [hsent] at hone
    cases hone

/-- A probe has a request whenever its URL can be read. -/
theorem probeRequest?_of_parse? {service : Service} (probe : ProbePolicy) {u : Url}
    (h : Url.parse? (probeUrl service.baseUrl) = some u) :
    ∃ r : HttpRequest, probeRequest? service probe = some r ∧ r.method = "GET" ∧
      r.target = u.target ∧ (r.cacheControl = some "no-cache" ↔ probe.cache = .reload) := by
  rw [probeRequest?, h]
  refine ⟨_, rfl, rfl, rfl, ?_⟩
  cases probe.cache <;> simp

/-- A call that finds nothing to use again asks for the model listing, and once. -/
theorem Serves.asks {before later : List CallStep} {time : Nat} {service : Service}
    {probe : ProbePolicy} (h : s.Serves before time service probe later)
    (hnot : ∀ ok, ¬ Reusable before time service probe ok) {u : Url}
    (hu : Url.parse? (probeUrl service.baseUrl) = some u) :
    ∃ r : HttpRequest, s.probesOf (keysAsked before).length = [some r] ∧ r.method = "GET" ∧
      r.target = u.target ∧ (r.cacheControl = some "no-cache" ↔ probe.cache = .reload) := by
  obtain ⟨r, hr, hrequest⟩ := probeRequest?_of_parse? probe hu
  exact ⟨r, hr ▸ (h.probed hnot).1, hrequest⟩

/-- Probes belong to calls that have begun. -/
def Numbered (s : CallSystem) : Prop := ∀ p ∈ s.probes, p.1 < s.calls.length

theorem Numbered.step (hs : s.Numbered) {a : CallStep} (h : s.step a = some t) : t.Numbered := by
  intro p hp
  cases a with
  | asked time service probe =>
    obtain ⟨-, -, ⟨ok, -, hcalls, hprobes⟩ | ⟨-, hcalls, hprobes⟩⟩ := step_asked h
    · rw [hprobes] at hp
      have hlt := hs p hp
      rw [hcalls, List.length_append]
      omega
    · rw [hcalls, List.length_append, List.length_singleton]
      rw [hprobes] at hp
      rcases List.mem_append.mp hp with hp | hp
      · have hlt := hs p hp
        omega
      · rw [List.mem_singleton.mp hp]
        omega
  | answered call time answer =>
    obtain ⟨key, -, -, -, hcalls, hprobes⟩ := step_answered h
    rw [hprobes] at hp
    rw [hcalls, List.length_set]
    exact hs p hp

theorem Numbered.run : ∀ {more : List CallStep} {s : CallSystem}, s.Numbered →
    s.run more = some t → t.Numbered
  | [], s, hs, h => by
    obtain rfl : s = t := Option.some.inj h
    exact hs
  | a :: more, s, hs, h => by
    obtain ⟨next, ha, hrest⟩ := exists_step_of_run h
    exact Numbered.run (hs.step ha) hrest

/-- Before a call begins nothing is sent for it. -/
theorem Numbered.probesOf_eq_nil (hs : s.Numbered) : s.probesOf s.calls.length = [] := by
  rw [probesOf, List.map_eq_nil_iff, List.filter_eq_nil_iff]
  intro p hp hsame
  have hlt := hs p hp
  rw [of_decide_eq_true hsame] at hlt
  exact Nat.lt_irrefl _ hlt

/-- **Every call is served by the history,** in every run from the start. -/
theorem serves_of_run {before later : List CallStep} {time : Nat} {service : Service}
    {probe : ProbePolicy}
    (h : ({} : CallSystem).run (before ++ .asked time service probe :: later) = some t) :
    t.Serves before time service probe later := by
  rw [run_append] at h
  obtain ⟨s, hs, hrest⟩ := Option.bind_eq_some_iff.mp h
  obtain ⟨next, hasked, hlater⟩ := exists_step_of_run hrest
  have hk : s.Keeps before := kept_eq_latest keeps_empty hs
  have hlength : (keysAsked before).length = s.calls.length := by
    rw [← hk.keys, List.length_map]
  have hnumbered : s.Numbered := Numbered.run (fun _ hp => absurd hp List.not_mem_nil) hs
  have hfresh : s.probesOf s.calls.length = [] := hnumbered.probesOf_eq_nil
  obtain ⟨-, -, ⟨ok, hok, hcalls, hprobes⟩ | ⟨hnone, hcalls, hprobes⟩⟩ := step_asked hasked
  · have hentry : next.calls[s.calls.length]? = some (service.key, some ok) := by
      rw [hcalls, List.getElem?_concat_length]
    obtain ⟨hreturned, hsent⟩ := run_returned hlater hentry
    refine ⟨fun ok' hok' => ?_, fun hnot => absurd (hk.reuse?_iff.mp hok) (hnot ok)⟩
    obtain rfl : ok = ok' := Option.some.inj (hok.symm.trans (hk.reuse?_iff.mpr hok'))
    rw [hlength]
    refine ⟨hreturned, ?_⟩
    rw [hsent, probesOf, hprobes]
    exact hfresh
  · have hentry : next.calls[s.calls.length]? = some (service.key, none) := by
      rw [hcalls, List.getElem?_concat_length]
    obtain ⟨hsent, hend⟩ := run_waiting hlater hentry
    refine ⟨fun ok hok => ?_, fun _ => ?_⟩
    · rw [hk.reuse?_iff.mpr hok] at hnone
      cases hnone
    · rw [hlength]
      constructor
      · calc t.probesOf s.calls.length
            = next.probesOf s.calls.length := hsent
          _ = s.probesOf s.calls.length ++ [probeRequest? service probe] := by
            rw [probesOf, hprobes, List.filter_append, List.map_append, probesOf]
            simp
          _ = [probeRequest? service probe] := by rw [hfresh, List.nil_append]
      · rcases hend with hwaits | ⟨mid, time', answer, rest, rfl, hreturned⟩
        · exact .inl hwaits
        · refine .inr ⟨mid, time', answer, rest, rfl, hreturned, getLast?_completed_answered ?_ _ _⟩
          have hkeys : keysAsked (before ++ .asked time service probe :: mid) =
              keysAsked before ++ service.key :: keysAsked mid := keysAsked_append _ _
          rw [hkeys, ← hlength, List.getElem?_append_right (Nat.le_refl _), Nat.sub_self]
          rfl

end CallSystem

/-! ### Calls one after the other -/

namespace Validator

/-- The steps of an inquiry that is call number `n`, if nothing else happens before it is
answered. -/
def stepsOf (v : Validator) (n : Nat) (q : Inquiry) : List CallStep :=
  .asked q.time q.service q.probe ::
    if (v.validate q).2.asked then [.answered n (q.time + q.took) q.answer] else []

/-- When an inquiry is answered. -/
def answeredAt (v : Validator) (q : Inquiry) : Nat :=
  if (v.validate q).2.asked then q.time + q.took else q.time

/-- The steps of inquiries made one after the other, of which the first is call number `n`. -/
def steps (v : Validator) (n : Nat) : List Inquiry → List CallStep
  | [] => []
  | q :: qs => v.stepsOf n q ++ (v.validate q).1.steps (n + 1) qs

/-- Each inquiry is made when the one before it has been answered. -/
def InTurn (v : Validator) (now : Nat) : List Inquiry → Prop
  | [] => True
  | q :: qs => now ≤ q.time ∧ (v.validate q).1.InTurn (v.answeredAt q) qs

/-- The probe that an inquiry sends as call number `n`. -/
def probeOf (v : Validator) (n : Nat) (q : Inquiry) : List (Nat × Option HttpRequest) :=
  if (v.validate q).2.asked then [(n, probeRequest? q.service q.probe)] else []

/-- An inquiry is a call that returns before anything else happens. -/
theorem run_stepsOf {s : CallSystem} {q : Inquiry} (h : s.now ≤ q.time) :
    s.run (s.validator.stepsOf s.calls.length q) = some
      { validator := (s.validator.validate q).1
        now := s.validator.answeredAt q
        calls := s.calls ++ [(q.service.key, some (s.validator.validate q).2.ok)]
        probes := s.probes ++ s.validator.probeOf s.calls.length q } := by
  unfold stepsOf answeredAt probeOf
  cases hreuse : s.validator.reuse? q with
  | some ok =>
    have hlook : s.validator.reuse? { q with answer := none, took := 0 } = some ok := hreuse
    have hvalidate : s.validator.validate q = (s.validator, ⟨ok, false⟩) := by
      rw [validate, hreuse]
    rw [hvalidate, CallSystem.run_cons, CallSystem.step, if_pos h, hlook]
    simp [CallSystem.run]
  | none =>
    have hlook : s.validator.reuse? { q with answer := none, took := 0 } = none := hreuse
    have hvalidate : s.validator.validate q =
        (s.validator.keep q.service.key (q.time + q.took) (q.answer.any ProbeAnswer.isPositive),
          ⟨q.answer.any ProbeAnswer.isPositive, true⟩) := by
      rw [validate, hreuse]
      rfl
    rw [hvalidate, CallSystem.run_cons, CallSystem.step, if_pos h, hlook]
    simp [CallSystem.run, CallSystem.step]

/-- The probes that inquiries send, the first of them as call number `n`. -/
def probesOf (v : Validator) (n : Nat) : List Inquiry → List (Nat × Option HttpRequest)
  | [] => []
  | q :: qs => v.probeOf n q ++ (v.validate q).1.probesOf (n + 1) qs

/-- **Inquiries made in turn are calls of which each returns before the next one begins.** -/
theorem run_steps : ∀ {qs : List Inquiry} {s : CallSystem}, s.validator.InTurn s.now qs →
    ∃ t, s.run (s.validator.steps s.calls.length qs) = some t ∧
      t.validator = (s.validator.validateAll qs).1 ∧
      t.calls = s.calls ++ (qs.zip (s.validator.validateAll qs).2).map
        (fun qr => (qr.1.service.key, some qr.2.ok)) ∧
      t.probes = s.probes ++ s.validator.probesOf s.calls.length qs
  | [], s, _ => ⟨s, rfl, rfl, (List.append_nil _).symm, (List.append_nil _).symm⟩
  | q :: qs, s, h => by
    obtain ⟨htime, hrest⟩ := h
    have hfirst := run_stepsOf htime
    obtain ⟨t, ht, hvalidator, hcalls, hprobes⟩ := run_steps
      (s := ⟨_, _, s.calls ++ [(q.service.key, some (s.validator.validate q).2.ok)],
        s.probes ++ s.validator.probeOf s.calls.length q⟩) hrest
    rw [List.length_append, List.length_singleton] at ht hprobes
    refine ⟨t, ?_, hvalidator, ?_, ?_⟩
    · rw [steps, CallSystem.run_append, hfirst, Option.bind_some]
      exact ht
    · rw [hcalls, validateAll, List.zip_cons_cons, List.map_cons, List.append_assoc]
      rfl
    · rw [hprobes, probesOf, List.append_assoc]

end Validator

/-! ### All together -/

namespace CallSystem

/-- **Calls are served by what the history of their key says,** however they overlap, and none uses
an outcome that is 300 seconds old or older. What a probe asks the server for is told by
`Serves.asks`. A validator that is asked in turn is the special case in which each call returns
before the next one begins. -/
theorem calls_served :
    (∀ before time service probe later t,
      ({} : CallSystem).run (before ++ .asked time service probe :: later) = some t →
        t.Serves before time service probe later ∧
          (t.probesOf (keysAsked before).length = [] →
            ∃ since ok, (completed service.key before).getLast? = some (since, ok) ∧
              time < since + outcomeLifetime ∧
              t.calls[(keysAsked before).length]? = some (service.key, some ok))) ∧
      (∀ qs, ({} : Validator).InTurn 0 qs →
        ∃ t, ({} : CallSystem).run (({} : Validator).steps 0 qs) = some t ∧
          t.validator = (({} : Validator).validateAll qs).1 ∧
          t.calls = (qs.zip (({} : Validator).validateAll qs).2).map
            (fun qr => (qr.1.service.key, some qr.2.ok)) ∧
          t.probes = ({} : Validator).probesOf 0 qs) ∧
      ∀ host host' port, SameHost host host' →
        EndpointKey.ofHostPort host port = EndpointKey.ofHostPort host' port := by
  refine ⟨fun before time service probe later t h => ?_, fun qs h => ?_,
    fun host host' port h => h.key_eq port⟩
  · exact ⟨serves_of_run h, (serves_of_run h).young⟩
  · exact Validator.run_steps (s := {}) h

def attic : Service := ⟨"attic", "nas.local", 11434⟩

/-- The same host, spelled otherwise. -/
def atticAgain : Service := ⟨"attic", "NAS.local.", 11434⟩

def listing : ProbeAnswer :=
  { status := 200, chunks := [Utf8.encode (Json.Node.ofMembers [("models", .array [])]).write] }

/-- A probe that finds a model listing, and a call an instant before this is too old. -/
def youngHistory : List CallStep :=
  [.asked 0 attic ⟨1500, .prefer⟩, .answered 0 10 (some listing)]

/-- The call at that instant, and the next one. -/
def agingHistory : List CallStep :=
  youngHistory ++ [.asked 300009 atticAgain ⟨1500, .prefer⟩, .asked 300010 attic ⟨1500, .prefer⟩]

theorem agingHistory_eq : agingHistory =
    (youngHistory ++ [.asked 300009 atticAgain ⟨1500, .prefer⟩]) ++
      [.asked 300010 attic ⟨1500, .prefer⟩] := rfl

theorem exists_run_agingHistory : ∃ t, ({} : CallSystem).run agingHistory = some t := by
  have hyoung : (({} : CallSystem).run youngHistory).map (·.now) = some 10 := by decide +kernel
  obtain ⟨s, hs, hnow⟩ := Option.map_eq_some_iff.mp hyoung
  have htime : s.now ≤ 300009 := by omega
  obtain ⟨next, hnext, hlater⟩ := exists_step_asked htime atticAgain ⟨1500, .prefer⟩
  have htime' : next.now ≤ 300010 := by omega
  obtain ⟨t, ht, -⟩ := exists_step_asked htime' attic ⟨1500, .prefer⟩
  refine ⟨t, ?_⟩
  rw [agingHistory, run_append, hs, Option.bind_some, run_cons, hnext, Option.bind_some, run_cons,
    ht]
  rfl

theorem calls_served_of_agingHistory :
    ∃ t, ({} : CallSystem).run agingHistory = some t ∧
      t.calls[1]? = some (atticAgain.key, some true) ∧ t.probesOf 1 = [] ∧
      t.calls[2]? = some (attic.key, none) ∧
      t.probesOf 2 = [probeRequest? attic ⟨1500, .prefer⟩] := by
  obtain ⟨t, ht⟩ := exists_run_agingHistory
  have hfirst := ht
  have hsecond := ht
  rw [agingHistory] at hfirst
  rw [agingHistory_eq] at hsecond
  have hkey : atticAgain.key = attic.key :=
    calls_served.2.2 "NAS.local." "nas.local" 11434
      ⟨"NAS.local".toList, "nas.local".toList, 1, 0, by decide, by decide, by decide⟩
  have hlatest : (completed attic.key youngHistory).getLast? = some (10, true) := by
    decide +kernel
  have hreusable : Reusable youngHistory 300009 atticAgain ⟨1500, .prefer⟩ true :=
    ⟨rfl, 10, hkey ▸ hlatest, by decide⟩
  have hold : ∀ ok, ¬ Reusable (youngHistory ++ [.asked 300009 atticAgain ⟨1500, .prefer⟩]) 300010
      attic ⟨1500, .prefer⟩ ok := fun ok ⟨_, since, hsince, hless⟩ => by
    rw [completed_concat, CallStep.completes, List.append_nil, hlatest] at hsince
    cases hsince
    exact absurd hless (by decide)
  obtain ⟨hreturned, hunsent⟩ := (calls_served.1 _ _ _ _ _ _ hfirst).1.reused true hreusable
  obtain ⟨hsent, hwaits⟩ := (calls_served.1 _ _ _ _ _ _ hsecond).1.probed hold
  refine ⟨t, ht, hreturned, hunsent, ?_, hsent⟩
  rcases hwaits with ⟨hwaits, -⟩ | ⟨mid, time, answer, rest, hnil, -⟩
  · exact hwaits
  · simp at hnil

end CallSystem
end LanInference
