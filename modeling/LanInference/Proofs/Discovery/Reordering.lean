/-
# Reports about different keys commute

A report of the current pass, or of a validation, is about one key. In normal power what it does
depends on what that key holds and whether it is pending, and on nothing else of the engine
(`KeyView`). So after any number of such reports each key is where the reports about it have brought
it, and the validations begun for it are those that they ask for (`Engine.Takes`); the order of
reports about different keys does not count. Under a budget it would: the keys compete for what is
left of it.

Key definitions: `KeyView`, `KeyView.take`, `KeyView.asks`, `Engine.view`, `Report.Concerns`,
`Engine.Takes`, `Reordering`.
Key theorems: `Engine.holding_inj`, `Engine.takes_onReport`, `World.takes_of_run`,
`World.Reachable.reordered`.
-/
import LanInference.Proofs.Discovery.Announcements

namespace LanInference

/-! ### One key -/

/-- What the engine knows of one key. -/
structure KeyView where
  held : Option Endpoint
  pending : Bool
  deriving DecidableEq, Repr

namespace KeyView

/-- The key after a report about it. -/
def take (v : KeyView) : Report → KeyView
  | .browse _ _ (.added _) => if v.held.isSome || v.pending then v else { v with pending := true }
  | .browse _ _ (.removed _) => ⟨none, false⟩
  | .validated _ service ok =>
    if v.pending then ⟨if ok then some (.ofService service) else v.held, false⟩ else v
  | .passEnded .. => v

/-- The services that a report about the key asks to validate. -/
def asks (v : KeyView) : Report → List Service
  | .browse _ _ (.added service) => if v.held.isSome || v.pending then [] else [service]
  | _ => []

/-- The services that reports about the key ask to validate, in order. -/
def asksAll : KeyView → List Report → List Service
  | _, [] => []
  | v, r :: rs => v.asks r ++ (v.take r).asksAll rs

theorem asksAll_append (rs rs' : List Report) : ∀ v : KeyView,
    v.asksAll (rs ++ rs') = v.asksAll rs ++ (rs.foldl take v).asksAll rs' := by
  induction rs with
  | nil => exact fun _ => rfl
  | cons r rs ih =>
    intro v
    rw [List.cons_append, asksAll, ih, asksAll, List.foldl_cons, List.append_assoc]

end KeyView

namespace Report

/-- The key that a report is about. The end of a pass is about none. -/
def key? : Report → Option EndpointKey
  | browse _ _ (.added service) | browse _ _ (.removed service) | validated _ service _ =>
    some service.key
  | passEnded .. => none

def isAbout (k : EndpointKey) (r : Report) : Bool := r.key? = some k

/-- Whether a report is an event of this pass or the result of a validation of its session. -/
def Concerns (generation pass : Nat) : Report → Prop
  | browse g p _ => g = generation ∧ p = pass
  | validated g _ _ => g = generation
  | passEnded .. => False

end Report

theorem KeyView.key_of_asks {v : KeyView} {r : Report} {service : Service}
    (h : service ∈ v.asks r) : r.key? = some service.key := by
  unfold asks at h
  split at h
  · split at h
    · cases h
    · rw [List.mem_singleton.mp h]
      rfl
  · cases h

/-- The validation that an effect asks for: for which session, of what, and how. -/
def Effect.validation? : Effect → Option (Nat × Service × ProbePolicy)
  | validate generation service probe => some (generation, service, probe)
  | _ => none

/-! ### The engine by its keys -/

namespace Engine

variable {e e' e'' : Engine} {s : ScanSession} {held held' : EndpointSet}
  {pending pending' : OrderedMap Unit} {generation pass : Nat} {probe : ProbePolicy} {r : Report}
  {rs rs' : List Report} {es es' : List Effect}

def view (e : Engine) (k : EndpointKey) : KeyView :=
  ⟨e.endpoints.find? k, e.session.any (·.pending.contains k.text)⟩

/-- The engine with these endpoints, and these pending keys of its session. -/
def holding (e : Engine) (s : ScanSession) (held : EndpointSet) (pending : OrderedMap Unit) :
    Engine :=
  { e with endpoints := held, session := some { s with pending } }

theorem holding_self (hs : e.session = some s) : e.holding s e.endpoints s.pending = e := by
  rw [holding]
  exact hs ▸ rfl

/-- What the engine knows of each key says which endpoints it holds and which keys are pending. -/
theorem holding_inj
    (h : ∀ k, (e.holding s held pending).view k = (e.holding s held' pending').view k) :
    e.holding s held pending = e.holding s held' pending' := by
  have hheld : held = held' := EndpointSet.ext_find? fun k => congrArg KeyView.held (h k)
  have hpending : pending = pending' := OrderedMap.ext_get? fun k => by
    have hsame : pending.contains k = pending'.contains k := congrArg KeyView.pending (h ⟨k⟩)
    unfold OrderedMap.contains at hsame
    cases hk : pending.get? k <;> cases hk' : pending'.get? k <;> simp_all
  rw [hheld, hpending]

/-- Reports bring each key where those about it bring it, and what is asked for it is what they ask
for. -/
structure Takes (generation : Nat) (probe : ProbePolicy) (rs : List Report) (e e' : Engine)
    (es : List Effect) : Prop where
  view : ∀ k, e'.view k = (rs.filter (·.isAbout k)).foldl KeyView.take (e.view k)
  asked : ∀ k, (es.filterMap Effect.validation?).filter (·.2.1.key = k) =
    ((e.view k).asksAll (rs.filter (·.isAbout k))).map (generation, ·, probe)

theorem Takes.nil (e : Engine) : Takes generation probe [] e e [] := ⟨fun _ => rfl, fun _ => rfl⟩

theorem Takes.append (h : Takes generation probe rs e e' es)
    (h' : Takes generation probe rs' e' e'' es') :
    Takes generation probe (rs ++ rs') e e'' (es ++ es') where
  view k := by rw [h'.view, h.view, List.filter_append, List.foldl_append]
  asked k := by
    rw [List.filterMap_append, List.filter_append, h.asked, h'.asked, h.view, List.filter_append,
      KeyView.asksAll_append, List.map_append]

/-- A report does what it does to its own key. -/
theorem takes_of_key {j : EndpointKey} (hr : r.key? = some j)
    (hview : e'.view j = (e.view j).take r) (hothers : ∀ k, k ≠ j → e'.view k = e.view k)
    (hasked : es.filterMap Effect.validation? = ((e.view j).asks r).map (generation, ·, probe)) :
    Takes generation probe [r] e e' es := by
  have habout : ∀ k, [r].filter (·.isAbout k) = if k = j then [r] else [] := fun k => by
    by_cases hk : k = j
    · simp [Report.isAbout, hr, hk]
    · simp [Report.isAbout, hr, hk, Ne.symm hk]
  refine ⟨fun k => ?_, fun k => ?_⟩
  · rw [habout]
    by_cases hk : k = j
    · rw [if_pos hk, hk, hview]
      rfl
    · rw [if_neg hk, hothers k hk]
      rfl
  · rw [habout, hasked, List.filter_map]
    by_cases hk : k = j
    · rw [if_pos hk, hk, KeyView.asksAll, KeyView.asksAll, List.append_nil]
      refine congrArg _ (List.filter_eq_self.mpr fun service hservice => ?_)
      exact decide_eq_true (Option.some.inj ((KeyView.key_of_asks hservice).symm.trans hr))
    · rw [if_neg hk]
      refine congrArg _ (List.filter_eq_nil_iff.mpr fun service hservice heq => hk ?_)
      have hkey := Option.some.inj ((KeyView.key_of_asks hservice).symm.trans hr)
      exact (of_decide_eq_true heq).symm.trans hkey

theorem takes_onAdded (hs : e.session = some s) (hlow : e.power.lowPowerMode = false)
    (service : Service) :
    Takes s.generation (e.policy s.userInitiated).probe
      [.browse generation pass (.added service)] e (e.onAdded s service).1
      (e.onAdded s service).2 := by
  have hknown : ((e.view service.key).held.isSome || (e.view service.key).pending) =
      (e.endpoints.contains service.key || s.pending.contains service.key.text) := by
    rw [view, hs]
    rfl
  unfold onAdded policy
  dsimp only
  rw [← hknown]
  split
  · rename_i h
    refine takes_of_key rfl ?_ (fun _ _ => rfl) ?_
    · rw [KeyView.take, if_pos h]
    · rw [KeyView.asks, if_pos h]
      rfl
  · rename_i h
    rw [PollingPolicy.unbounded_of_normal hlow, if_neg Bool.false_ne_true]
    refine takes_of_key rfl ?_ (fun k hk => ?_) ?_
    · rw [KeyView.take, if_neg h]
      simp [view, OrderedMap.contains_insert]
    · simp [view, hs, OrderedMap.contains_insert, EndpointKey.text_inj, hk]
    · rw [KeyView.asks, if_neg h]
      rfl

theorem takes_onRemoved (hs : e.session = some s) (service : Service) :
    Takes s.generation probe [.browse generation pass (.removed service)] e
      (e.onRemoved s service).1 (e.onRemoved s service).2 := by
  refine takes_of_key (j := service.key) rfl ?_ (fun k hk => ?_) ?_
  · simp [view, onRemoved, KeyView.take, EndpointSet.find?_remove, OrderedMap.contains_erase]
  · simp [view, onRemoved, hs, EndpointSet.find?_remove, OrderedMap.contains_erase,
      EndpointKey.text_inj, hk]
  · unfold onRemoved
    dsimp only
    split <;> rfl

theorem takes_validated (hs : e.session = some s) (m : Moment) (service : Service) (ok : Bool) :
    Takes s.generation probe [.validated s.generation service ok] e
      (e.onReport m (.validated s.generation service ok)).1
      (e.onReport m (.validated s.generation service ok)).2 := by
  have hpending : (e.view service.key).pending = s.pending.contains service.key.text := by
    rw [view, hs]
    rfl
  simp only [onReport, hs, true_and, ← hpending]
  split
  · rename_i h
    cases ok with
    | false =>
      rw [if_neg Bool.false_ne_true]
      refine takes_of_key (j := service.key) rfl ?_ (fun k hk => ?_) rfl
      · rw [KeyView.take, if_pos h]
        simp [view, OrderedMap.contains_erase]
      · simp [view, hs, OrderedMap.contains_erase, EndpointKey.text_inj, hk]
    | true =>
      rw [if_pos rfl]
      have hkey : (Endpoint.ofService service).key = service.key := rfl
      refine takes_of_key (j := service.key) rfl ?_ (fun k hk => ?_) ?_
      · rw [KeyView.take, if_pos h]
        simp [view, EndpointSet.find?_insert, hkey, OrderedMap.contains_erase]
      · simp [view, hs, EndpointSet.find?_insert, hkey, OrderedMap.contains_erase,
          EndpointKey.text_inj, hk]
      · dsimp only
        split <;> rfl
  · rename_i h
    refine takes_of_key (j := service.key) rfl ?_ (fun _ _ => rfl) rfl
    rw [KeyView.take, if_neg h]

/-- **A report does what it does to its own key,** and leaves the rest of the engine alone. -/
theorem takes_onReport (hp : s.pass = some pass) (hlow : e.power.lowPowerMode = false)
    (hr : r.Concerns s.generation pass) (m : Moment) (held : EndpointSet)
    (pending : OrderedMap Unit) :
    ∃ held' pending' es,
      (e.holding s held pending).onReport m r = (e.holding s held' pending', es) ∧
        Takes s.generation (e.policy s.userInitiated).probe [r] (e.holding s held pending)
          (e.holding s held' pending') es := by
  have hs : (e.holding s held pending).session = some { s with pending } := rfl
  have hlow' : (e.holding s held pending).power.lowPowerMode = false := hlow
  cases r with
  | browse g p event =>
    obtain ⟨rfl, rfl⟩ := hr
    cases event with
    | added service =>
      have heq : (e.holding s held pending).onReport m (.browse s.generation p (.added service)) =
          (e.holding s held pending).onAdded { s with pending } service := by
        simp [onReport, hs, hp]
      have htakes : Takes s.generation (e.policy s.userInitiated).probe
          [.browse s.generation p (.added service)] (e.holding s held pending)
          ((e.holding s held pending).onAdded { s with pending } service).1
          ((e.holding s held pending).onAdded { s with pending } service).2 :=
        takes_onAdded hs hlow' service
      have hform : ∃ pending', ((e.holding s held pending).onAdded { s with pending } service).1 =
          e.holding s held pending' := by
        unfold onAdded
        dsimp only
        split
        · exact ⟨pending, rfl⟩
        · split
          · exact ⟨pending, rfl⟩
          · exact ⟨_, rfl⟩
      obtain ⟨pending', hform⟩ := hform
      rw [hform] at htakes
      exact ⟨held, pending', _, heq.trans (Prod.ext hform rfl), htakes⟩
    | removed service =>
      have heq : (e.holding s held pending).onReport m (.browse s.generation p (.removed service)) =
          (e.holding s held pending).onRemoved { s with pending } service := by
        simp [onReport, hs, hp]
      exact ⟨_, _, _, heq, takes_onRemoved hs service⟩
  | passEnded => exact hr.elim
  | validated g service ok =>
    obtain rfl : g = s.generation := hr
    have htakes : Takes s.generation (e.policy s.userInitiated).probe
        [.validated s.generation service ok] (e.holding s held pending)
        ((e.holding s held pending).onReport m (.validated s.generation service ok)).1
        ((e.holding s held pending).onReport m (.validated s.generation service ok)).2 :=
      takes_validated hs m service ok
    have hform : ∃ held' pending', ((e.holding s held pending).onReport m
        (.validated s.generation service ok)).1 = e.holding s held' pending' := by
      simp only [onReport, hs]
      split
      · cases ok with
        | false => exact ⟨held, _, rfl⟩
        | true => exact ⟨_, _, rfl⟩
      · exact ⟨held, pending, rfl⟩
    obtain ⟨held', pending', hform⟩ := hform
    rw [hform] at htakes
    exact ⟨held', pending', _, Prod.ext hform rfl, htakes⟩

end Engine

/-! ### Deliveries -/

namespace World

variable {w w' : World} {e : Engine} {s : ScanSession} {generation pass : Nat}

theorem validationsAsked_after (w : World) (r : Engine × List Effect) :
    (w.after r).validationsAsked =
      (r.2.filterMap Effect.validation?).reverse ++ w.validationsAsked := by
  have hread : ∀ v : World, v.validationsAsked = v.record.filterMap fun x => x.2.validation? :=
    fun v => List.filterMap_congr fun x _ => by cases x.2 <;> rfl
  rw [hread, hread, filterMap_record_after]

/-- **Reports that are delivered in a row bring each key where those about it bring it.** -/
theorem takes_of_run (hp : s.pass = some pass) (hlow : e.power.lowPowerMode = false)
    {rs rest : List Report} {readings : List PowerState} {held : EndpointSet}
    {pending : OrderedMap Unit} (hrs : ∀ r ∈ rs, r.Concerns s.generation pass)
    (hlength : readings.length = rs.length) (ho : w.isOpen = true)
    (he : w.engine = e.holding s held pending) (hm : w.mailbox = rs ++ rest) :
    ∃ w' held' pending' es, w.run (readings.map .deliver) = some w' ∧
      w'.engine = e.holding s held' pending' ∧ w'.mailbox = rest ∧
      w'.validationsAsked = (es.filterMap Effect.validation?).reverse ++ w.validationsAsked ∧
      Engine.Takes s.generation (e.policy s.userInitiated).probe rs w.engine w'.engine es := by
  induction rs generalizing readings w held pending with
  | nil =>
    obtain rfl := List.eq_nil_of_length_eq_zero hlength
    exact ⟨w, held, pending, [], rfl, he, hm, rfl, .nil _⟩
  | cons r rs ih =>
    obtain ⟨reading, readings, rfl⟩ := List.exists_cons_of_length_eq_add_one hlength
    obtain ⟨held₁, pending₁, es, hreport, htakes⟩ := Engine.takes_onReport hp hlow
      (hrs r List.mem_cons_self) ⟨w.now, reading, reading⟩ held pending
    have hstep := step_deliver reading ho hm
    rw [he, hreport] at hstep
    obtain ⟨w', held', pending', es', hrun, hengine, hmailbox, hasked, hrest⟩ :=
      ih (w := { w with mailbox := rs ++ rest }.after (e.holding s held₁ pending₁, es))
        (fun x hx => hrs x (List.mem_cons_of_mem _ hx)) (Nat.succ.inj hlength)
        (by rw [after_isOpen]; exact ho) (after_engine _ _) (after_mailbox _ _)
    refine ⟨w', held', pending', es ++ es', ?_, hengine, hmailbox, ?_, ?_⟩
    · rw [List.map_cons, run_cons, hstep]
      exact hrun
    · rw [hasked, validationsAsked_after, List.filterMap_append, List.reverse_append,
        List.append_assoc]
      rfl
    · rw [after_engine] at hrest
      rw [he]
      exact htakes.append hrest

end World

/-! ### Two orders -/

/-- A permutation of reports that keeps the order of those about each key. -/
structure Reordering (rs rs' : List Report) : Prop where
  perm : rs.Perm rs'
  order : ∀ k, rs.filter (·.isAbout k) = rs'.filter (·.isAbout k)

/-- Lists of validations that agree on each key are permutations of each other. -/
theorem perm_of_filter_key {xs ys : List (Nat × Service × ProbePolicy)}
    (h : ∀ k, xs.filter (·.2.1.key = k) = ys.filter (·.2.1.key = k)) : xs.Perm ys := by
  refine List.perm_iff_count.mpr fun x => ?_
  have hcount : ∀ zs : List (Nat × Service × ProbePolicy),
      (zs.filter (·.2.1.key = x.2.1.key)).count x = zs.count x :=
    fun zs => List.count_filter (decide_eq_true rfl)
  rw [← hcount, h, hcount]

namespace World

variable {w : World} {generation pass : Nat}

/-- **The order of reports about different keys does not count.** While a pass runs in normal power,
its events and the results of its session's validations lead to the same engine in whatever order
they are delivered that keeps the order of those about each key, and ask for the same
validations. -/
theorem Reachable.reordered {floor : Nat} (h : Reachable floor w)
    (hc : w.engine.current = some (generation, pass))
    (hlow : w.engine.power.lowPowerMode = false) {rs rs' : List Report}
    (hrs : ∀ r ∈ rs, r.Concerns generation pass) (hre : Reordering rs rs') (rest : List Report)
    {readings readings' : List PowerState} (hlength : readings.length = rs.length)
    (hlength' : readings'.length = rs'.length) :
    ∃ w₁ w₂, { w with mailbox := rs ++ rest }.run (readings.map .deliver) = some w₁ ∧
      { w with mailbox := rs' ++ rest }.run (readings'.map .deliver) = some w₂ ∧
      w₁.engine = w₂.engine ∧ w₁.validationsAsked.Perm w₂.validationsAsked ∧
      w₁.mailbox = rest ∧ w₂.mailbox = rest := by
  obtain ⟨s, hs, rfl, hp⟩ := Engine.current_eq_some_iff.mp hc
  have hopen : w.isOpen = true := by
    by_contra hclosed
    have hnone := h.settled.2 (Bool.eq_false_iff.mpr hclosed)
    rw [hs] at hnone
    cases hnone
  have hsame := (Engine.holding_self hs).symm
  obtain ⟨w₁, held₁, pending₁, es₁, hrun₁, hengine₁, hmailbox₁, hasked₁, htakes₁⟩ :=
    takes_of_run (w := { w with mailbox := rs ++ rest }) hp hlow hrs hlength hopen hsame rfl
  obtain ⟨w₂, held₂, pending₂, es₂, hrun₂, hengine₂, hmailbox₂, hasked₂, htakes₂⟩ :=
    takes_of_run (w := { w with mailbox := rs' ++ rest }) hp hlow
      (fun r hr => hrs r (hre.perm.mem_iff.mpr hr)) hlength' hopen hsame rfl
  refine ⟨w₁, w₂, hrun₁, hrun₂, ?_, ?_, hmailbox₁, hmailbox₂⟩
  · rw [hengine₁, hengine₂]
    refine Engine.holding_inj fun k => ?_
    rw [← hengine₁, ← hengine₂, htakes₁.view, htakes₂.view, hre.order]
  · rw [hasked₁, hasked₂]
    refine List.Perm.append ?_ (List.Perm.refl _)
    refine (List.reverse_perm _).trans (List.Perm.trans ?_ (List.reverse_perm _).symm)
    refine perm_of_filter_key fun k => ?_
    rw [htakes₁.asked, htakes₂.asked, hre.order]

/-- Two services at one host. -/
def attic : Service := ⟨"attic", "10.0.0.5", 8080⟩

def barn : Service := ⟨"barn", "10.0.0.5", 8081⟩

theorem attic_key_ne : attic.key ≠ barn.key := by decide +kernel

/-- One service is found and confirmed, then another comes and goes. -/
def oneByOne : List Report :=
  [.browse 1 1 (.added attic), .validated 1 attic true, .browse 1 1 (.added barn),
    .browse 1 1 (.removed barn)]

def interleaved : List Report :=
  [.browse 1 1 (.added barn), .browse 1 1 (.added attic), .browse 1 1 (.removed barn),
    .validated 1 attic true]

theorem reordering_oneByOne : Reordering oneByOne interleaved where
  perm := by decide +kernel
  order k := by
    simp only [oneByOne, interleaved, List.filter_cons, List.filter_nil]
    by_cases ha : attic.key = k
    · have hb : barn.key ≠ k := fun hb => attic_key_ne (ha.trans hb.symm)
      simp [Report.isAbout, Report.key?, ha, hb]
    · simp [Report.isAbout, Report.key?, ha]

theorem reordered_of_oneByOne : ∃ w : World,
    (initial 10000 .nominal).run [.command (.start true) .nominal .nominal] = some w ∧
      w.engine.current = some (1, 1) ∧ w.engine.power.lowPowerMode = false ∧
      (∀ r ∈ oneByOne, r.Concerns 1 1) ∧ Reordering oneByOne interleaved ∧
      ∃ w₁ w₂, { w with mailbox := oneByOne ++ [] }.run
          (List.replicate 4 (.deliver .nominal)) = some w₁ ∧
        { w with mailbox := interleaved ++ [] }.run
          (List.replicate 4 (.deliver .nominal)) = some w₂ ∧
        w₁.engine = w₂.engine ∧ w₁.validationsAsked.Perm w₂.validationsAsked := by
  have hrun : ∃ w : World,
      (initial 10000 .nominal).run [.command (.start true) .nominal .nominal] = some w ∧
        w.engine.current = some (1, 1) ∧ w.engine.power.lowPowerMode = false := ⟨_, rfl, rfl, rfl⟩
  obtain ⟨w, hw, hc, hlow⟩ := hrun
  have hrs : ∀ r ∈ oneByOne, r.Concerns 1 1 := by simp [oneByOne, Report.Concerns]
  have hreachable : Reachable 10000 w := ⟨.nominal, _, hw⟩
  have hlength : (List.replicate 4 PowerState.nominal).length = oneByOne.length := rfl
  have hlength' : (List.replicate 4 PowerState.nominal).length = interleaved.length := rfl
  obtain ⟨w₁, w₂, h₁, h₂, hengine, hperm, -⟩ :=
    Reachable.reordered hreachable hc hlow hrs reordering_oneByOne [] hlength hlength'
  exact ⟨w, hw, hc, hlow, hrs, reordering_oneByOne, w₁, w₂, h₁, h₂, hengine, hperm⟩

end World
end LanInference
