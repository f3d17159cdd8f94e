/-
# The events are a change log

Whoever sees only the events of the announced instances knows what is announced: replayed in order
from nothing, each event that removes a service takes away a copy that an earlier event has added,
and after every report the copies that are left are the services announced then, one for each
instance. What an instance is announced as follows from the reports: the latest one that names it
decides, except that a report without an address says nothing (`standing`).

A report changes what one instance is announced as (`Instances.take_eq`), so one lemma about that
change carries the log (`replay?_moves`). A report that says again what stands makes no event: the
preferred address does not depend on the order of the addresses.

Key definitions: `BrowseEvent.replay?`, `replay?`, `Sighting`, `standing`, `Instances.serviceOf?`,
`Instances.Uneventful`.
Key theorems: `Instances.replay?_feed`, `Instances.get?_feed`, `Instances.take_of_uneventful`,
`Instances.change_log`.
-/
import Mathlib.Data.Multiset.AddSub
import LanInference.Proofs.Discovery.Instances
import LanInference.Proofs.Net.Preference

namespace LanInference

/-! ### Replaying events -/

/-- The live services after an event; nothing if it removes a service that is not alive. -/
def BrowseEvent.replay? (live : Multiset Service) : BrowseEvent → Option (Multiset Service)
  | added s => some (s ::ₘ live)
  | removed s => if s ∈ live then some (live.erase s) else none

/-- The live services after all of these events. -/
def replay? (live : Multiset Service) (events : List BrowseEvent) : Option (Multiset Service) :=
  events.foldlM BrowseEvent.replay? live

theorem replay?_append (live : Multiset Service) (xs ys : List BrowseEvent) :
    replay? live (xs ++ ys) = (replay? live xs).bind fun next => replay? next ys := by
  simp only [replay?, List.foldlM_append]
  rfl

/-- The services that something announces, and some that others do. -/
def beside (announced : Option Service) (others : Multiset Service) : Multiset Service :=
  announced.toList + others

/-- An instance that moves is taken from where it was and put where it is; the others stay. -/
theorem replay?_moves (before after : Option Service) (others : Multiset Service) :
    replay? (beside before others) (Instances.moves before after) = some (beside after others) := by
  unfold Instances.moves
  split
  · rename_i hsame
    rw [hsame]
    rfl
  · cases before <;> cases after <;> simp [replay?, beside, BrowseEvent.replay?]

/-! ### What the reports come to -/

/-- A report that an instance is somewhere. -/
structure Sighting where
  fullName : String
  addresses : List Address
  port : UInt16
  deriving Repr, DecidableEq

/-- What stands of the instance of a name after a report, by what stood before it. -/
def ResolverReport.noted (name : String) (before : Option Sighting) :
    ResolverReport → Option Sighting
  | resolved fullName addresses port =>
    if normalName fullName = name ∧ addresses ≠ [] then some ⟨fullName, addresses, port⟩ else before
  | removed fullName => if normalName fullName = name then none else before

/-- What stands of the instance of a name after these reports. -/
def standing (rs : List ResolverReport) (name : String) : Option Sighting :=
  rs.foldl (ResolverReport.noted name) none

theorem standing_concat (rs : List ResolverReport) (r : ResolverReport) (name : String) :
    standing (rs ++ [r]) name = r.noted name (standing rs name) := by
  simp [standing, List.foldl_append]

theorem addresses_of_noted {r : ResolverReport} {name : String} {before : Option Sighting}
    (h : ∀ x, before = some x → x.addresses ≠ []) {x : Sighting}
    (hx : r.noted name before = some x) : x.addresses ≠ [] := by
  cases r with
  | resolved fullName addresses port =>
    simp only [ResolverReport.noted] at hx
    split at hx
    · rename_i hthis
      rw [← Option.some.inj hx]
      exact hthis.2
    · exact h x hx
  | removed fullName =>
    simp only [ResolverReport.noted] at hx
    split at hx
    · cases hx
    · exact h x hx

/-- What stands has an address. -/
theorem addresses_of_standing (rs : List ResolverReport) (name : String) :
    ∀ x, standing rs name = some x → x.addresses ≠ [] := by
  induction rs using List.reverseRecOn with
  | nil => intro x hx; cases hx
  | append_singleton rs r ih =>
    intro x hx
    rw [standing_concat] at hx
    exact addresses_of_noted ih hx

namespace Instances

variable {is : Instances} {r : ResolverReport}

/-- The service of an instance that is somewhere. -/
def serviceOf? (is : Instances) (x : Sighting) : Option Service :=
  (Address.preferred? x.addresses).map fun a => .ofAddress (is.instanceName x.fullName) a x.port

/-- The services announced, one for each instance. -/
def live (is : Instances) : Multiset Service := is.announced.values

/-! ### One report -/

theorem ending_take (is : Instances) (r : ResolverReport) : (is.take r).1.ending = is.ending := by
  cases r with
  | resolved fullName addresses port =>
    simp only [take, resolved]
    split
    · rfl
    · split <;> rfl
  | removed fullName =>
    simp only [take, removed]
    split <;> rfl

/-- A report changes what is announced as it changes what stands. -/
theorem get?_take {stands : String → Option Sighting}
    (h : ∀ name, is.announced.get? name = (stands name).bind is.serviceOf?)
    (r : ResolverReport) (name : String) :
    (is.take r).1.announced.get? name = (r.noted name (stands name)).bind is.serviceOf? := by
  cases r with
  | resolved fullName addresses port =>
    cases haddress : Address.preferred? addresses with
    | none =>
      have hnil : addresses = [] := Address.preferred?_eq_none_iff.mp haddress
      simp only [take, resolved, ResolverReport.noted, hnil, ne_eq, not_true, and_false,
        if_false]
      exact h name
    | some address =>
      have hsome : addresses ≠ [] := by
        rintro rfl
        cases haddress
      have hservice : is.serviceOf? ⟨fullName, addresses, port⟩ =
          some (.ofAddress (is.instanceName fullName) address port) := by
        rw [serviceOf?, haddress, Option.map_some]
      have hannounced : (is.resolved fullName addresses port).1.announced =
          is.announced.insert (normalName fullName)
            (.ofAddress (is.instanceName fullName) address port) := by
        simp only [resolved, haddress]
        split <;> rfl
      show (is.resolved fullName addresses port).1.announced.get? name = _
      rw [hannounced, OrderedMap.get?_insert, ResolverReport.noted]
      by_cases hname : name = normalName fullName
      · rw [if_pos hname, if_pos ⟨hname.symm, hsome⟩, Option.bind_some, hservice]
      · rw [if_neg hname, if_neg fun hthis => hname hthis.1.symm, h name]
  | removed fullName =>
    show (is.removed fullName).1.announced.get? name = _
    simp only [removed, ResolverReport.noted]
    split
    · rename_i hnone
      by_cases hname : normalName fullName = name
      · rw [if_pos hname, ← hname]
        exact hnone
      · rw [if_neg hname, h name]
    · rw [OrderedMap.get?_erase]
      by_cases hname : name = normalName fullName
      · rw [if_pos hname, if_pos hname.symm]
        rfl
      · rw [if_neg hname, if_neg (Ne.symm hname), h name]

theorem live_eq_beside (is : Instances) (name : String) :
    is.live = beside (is.announced.get? name) (is.announced.erase name).values := by
  rw [live, beside, Multiset.coe_add, Multiset.coe_eq_coe]
  exact is.announced.values_perm name

/-- **The events of a report lead from what was announced to what is.** -/
theorem replay?_take (is : Instances) (r : ResolverReport) :
    replay? is.live (is.take r).2 = some (is.take r).1.live := by
  obtain ⟨name, after, hget, hevents⟩ := is.take_eq r
  have hothers : (is.take r).1.announced.erase name = is.announced.erase name := by
    refine OrderedMap.ext_get? fun m => ?_
    rw [OrderedMap.get?_erase, OrderedMap.get?_erase, hget]
    by_cases hm : m = name
    · rw [if_pos hm, if_pos hm]
    · rw [if_neg hm, if_neg hm, if_neg hm]
  rw [hevents, is.live_eq_beside name, (is.take r).1.live_eq_beside name, hothers, hget,
    if_pos rfl, replay?_moves]

/-! ### All reports -/

theorem feed_append : ∀ (xs ys : List ResolverReport) (is : Instances),
    is.feed (xs ++ ys) = (((is.feed xs).1.feed ys).1, (is.feed xs).2 ++ ((is.feed xs).1.feed ys).2)
  | [], _, _ => rfl
  | x :: xs, ys, is => by
    simp only [List.cons_append, feed, feed_append xs ys, List.append_assoc]

theorem feed_concat (is : Instances) (rs : List ResolverReport) (r : ResolverReport) :
    is.feed (rs ++ [r]) =
      (((is.feed rs).1.take r).1, (is.feed rs).2 ++ ((is.feed rs).1.take r).2) := by
  simp [feed_append, feed]

/-- **The events of reports lead from what was announced to what is.** -/
theorem replay?_feed : ∀ (rs : List ResolverReport) (is : Instances),
    replay? is.live (is.feed rs).2 = some (is.feed rs).1.live
  | [], _ => rfl
  | r :: rs, is => by
    rw [feed, replay?_append, replay?_take, Option.bind_some, replay?_feed rs]

theorem ending_feed (is : Instances) (rs : List ResolverReport) :
    (is.feed rs).1.ending = is.ending := by
  induction rs using List.reverseRecOn with
  | nil => rfl
  | append_singleton rs r ih => rw [feed_concat, ending_take, ih]

/-- The name of an instance depends on the ending of the service type alone. -/
theorem instanceName_feed (is : Instances) (rs : List ResolverReport) :
    (is.feed rs).1.instanceName = is.instanceName := by
  unfold instanceName
  rw [ending_feed]

theorem serviceOf?_feed (is : Instances) (rs : List ResolverReport) :
    (is.feed rs).1.serviceOf? = is.serviceOf? := by
  unfold serviceOf?
  rw [instanceName_feed]

/-- **An instance is announced as what stands of it.** -/
theorem get?_feed (serviceType : String) (rs : List ResolverReport) (name : String) :
    ((ofType serviceType).feed rs).1.announced.get? name =
      (standing rs name).bind (ofType serviceType).serviceOf? := by
  induction rs using List.reverseRecOn generalizing name with
  | nil => rfl
  | append_singleton rs r ih =>
    have hstands : ∀ name, ((ofType serviceType).feed rs).1.announced.get? name =
        (standing rs name).bind ((ofType serviceType).feed rs).1.serviceOf? := by
      rw [serviceOf?_feed]
      exact ih
    rw [feed_concat, get?_take hstands, standing_concat, serviceOf?_feed]

/-- The instances announced are those of which something stands. -/
theorem mem_keys_feed (serviceType : String) (rs : List ResolverReport) (name : String) :
    name ∈ ((ofType serviceType).feed rs).1.announced.keys ↔ (standing rs name).isSome = true := by
  rw [OrderedMap.mem_keys_iff, OrderedMap.contains, get?_feed]
  cases hx : standing rs name with
  | none => simp
  | some x =>
    have hsome : Address.preferred? x.addresses ≠ none := fun hnone =>
      addresses_of_standing rs name x hx (Address.preferred?_eq_none_iff.mp hnone)
    obtain ⟨a, ha⟩ := Option.ne_none_iff_exists'.mp hsome
    simp [serviceOf?, ha]

/-! ### Reports that say nothing new -/

/-- A report that changes nothing: it says again what stands, with the same addresses in any order
and however often, or it has no address, or it removes an instance of which nothing stands. -/
inductive Uneventful (is : Instances) (stands : String → Option Sighting) : ResolverReport → Prop
  | again {fullName : String} {addresses : List Address} {port : UInt16} {x : Sighting}
      (hx : stands (normalName fullName) = some x)
      (hname : is.instanceName fullName = is.instanceName x.fullName)
      (haddresses : ∀ a, a ∈ addresses ↔ a ∈ x.addresses) (hport : port = x.port) :
      Uneventful is stands (.resolved fullName addresses port)
  | nowhere (fullName : String) (port : UInt16) : Uneventful is stands (.resolved fullName [] port)
  | unknown {fullName : String} (hx : stands (normalName fullName) = none) :
      Uneventful is stands (.removed fullName)

theorem insert_self {m : OrderedMap Service} {name : String} {s : Service}
    (h : m.get? name = some s) : m.insert name s = m := by
  refine OrderedMap.ext_get? fun n => ?_
  rw [OrderedMap.get?_insert]
  by_cases hn : n = name
  · rw [if_pos hn, hn, h]
  · rw [if_neg hn]

theorem take_of_uneventful {stands : String → Option Sighting}
    (h : ∀ name, is.announced.get? name = (stands name).bind is.serviceOf?)
    (hr : is.Uneventful stands r) : is.take r = (is, []) := by
  cases hr with
  | @again fullName addresses port x hx hname haddresses hport =>
    have hpreferred : Address.preferred? addresses = Address.preferred? x.addresses :=
      Address.preferred?_congr haddresses
    cases haddress : Address.preferred? addresses with
    | none => simp [take, resolved, haddress]
    | some address =>
      have hheld : is.announced.get? (normalName fullName) =
          some (.ofAddress (is.instanceName fullName) address port) := by
        rw [h, hx, Option.bind_some, serviceOf?, ← hpreferred, haddress, Option.map_some, hname,
          hport]
      simp only [take, resolved, haddress, hheld, insert_self hheld, if_true]
  | nowhere fullName port => rfl
  | @unknown fullName hx =>
    have hnone : is.announced.get? (normalName fullName) = none := by
      rw [h, hx]
      rfl
    simp only [take, removed, hnone]

/-! ### All together -/

/-- **The events of announced instances are a faithful change log,** for every service type and
after any reports. The log only grows; replayed from nothing it never removes what is not alive and
leaves exactly the announced services, one for each name of which a report stands; and a report that
says nothing new makes no event and changes nothing. -/
theorem change_log (serviceType : String) (rs : List ResolverReport) :
    let start := ofType serviceType
    (∀ before, before <+: rs → (start.feed before).2 <+: (start.feed rs).2) ∧
      (∃ names : List String, names.Nodup ∧
        (∀ name, name ∈ names ↔ (standing rs name).isSome = true) ∧
        replay? 0 (start.feed rs).2 = some (start.feed rs).1.live ∧
        (start.feed rs).1.live =
          names.filterMap (fun name => (standing rs name).bind start.serviceOf?) ∧
        (start.feed rs).1.size = names.length ∧
        (start.feed rs).1.size = Multiset.card (start.feed rs).1.live) ∧
      ∀ r, start.Uneventful (standing rs) r →
        (start.feed rs).1.take r = ((start.feed rs).1, []) := by
  intro start
  have hget : ∀ name, (start.feed rs).1.announced.get? name =
      (standing rs name).bind start.serviceOf? := get?_feed serviceType rs
  refine ⟨?_, ⟨(start.feed rs).1.announced.keys, ?_, mem_keys_feed serviceType rs,
    replay?_feed rs start, ?_, ?_, ?_⟩, fun r hr => ?_⟩
  · rintro before ⟨later, rfl⟩
    rw [feed_append]
    exact List.prefix_append _ _
  · exact nodup_of_ascending (start.feed rs).1.announced.keys_ascending
  · rw [live, ← OrderedMap.filterMap_keys]
    simp only [hget]
  · rw [size, OrderedMap.size, OrderedMap.keys, List.length_map]
  · rw [size, OrderedMap.size, live, Multiset.coe_card, OrderedMap.values, List.length_map]
  · have hstands : ∀ name, (start.feed rs).1.announced.get? name =
        (standing rs name).bind (start.feed rs).1.serviceOf? := by
      rw [serviceOf?_feed]
      exact hget
    refine take_of_uneventful hstands ?_
    cases hr with
    | again hx hname haddresses hport =>
      exact .again hx (by rw [instanceName_feed, hname]) haddresses hport
    | nowhere fullName port => exact .nowhere fullName port
    | unknown hx => exact .unknown hx

def studioAddress : Address := .v4 ⟨192, 168, 1, 20⟩

def linkAddress : Address := .v6 ⟨[0xFE80, 0, 0, 0, 0, 0, 0, 1], rfl⟩

/-- An instance that is found and found again under another spelling of its name. -/
def studioReports : List ResolverReport :=
  [.resolved "Studio Mac._http._tcp.local." [studioAddress] 11434,
    .resolved "studio mac._HTTP._tcp.local" [linkAddress, studioAddress] 11434]

theorem change_log_of_studio :
    standing studioReports "studio mac._http._tcp.local" =
        some ⟨"studio mac._HTTP._tcp.local", [linkAddress, studioAddress], 11434⟩ ∧
      ((ofType "_http._tcp.local").feed studioReports).1.take
          (.resolved "studio mac._http._tcp.local.." [studioAddress, linkAddress, studioAddress]
            11434) =
        (((ofType "_http._tcp.local").feed studioReports).1, []) := by
  have hnormal : normalName "studio mac._http._tcp.local.." = "studio mac._http._tcp.local" := by
    decide +kernel
  have hstands : standing studioReports "studio mac._http._tcp.local" =
      some ⟨"studio mac._HTTP._tcp.local", [linkAddress, studioAddress], 11434⟩ := by
    decide +kernel
  have hname : (ofType "_http._tcp.local").instanceName "studio mac._http._tcp.local.." =
      (ofType "_http._tcp.local").instanceName "studio mac._HTTP._tcp.local" := by
    decide +kernel
  have haddresses : ∀ a, a ∈ [studioAddress, linkAddress, studioAddress] ↔
      a ∈ [linkAddress, studioAddress] := by
    intro a
    simp only [List.mem_cons, List.not_mem_nil, or_false]
    constructor
    · rintro (h | h | h)
      · exact .inr h
      · exact .inl h
      · exact .inr h
    · rintro (h | h)
      · exact .inr (.inl h)
      · exact .inl h
  rw [← hnormal] at hstands ⊢
  exact ⟨hstands, (change_log "_http._tcp.local" studioReports).2.2 _
    (.again hstands hname haddresses rfl)⟩

end Instances
end LanInference
