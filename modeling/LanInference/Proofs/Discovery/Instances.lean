/-
# What announced instances come to

Announced instances turn what a resolver reports into events about services. A report changes what
one instance is announced as, and its events say how (`Instances.take_eq`). For one key the events
tell whether it was added last. A key that was added last is announced; the converse holds as long
as no two instances share the key, for when one of them leaves, the other is still announced.

Key definitions: `BrowseEvent.tells`, `addedLast`, `ResolverReport`, `Instances.feed`,
`Instances.Announces`, `Instances.Single`.
Key theorems: `Instances.take_eq`, `Instances.told_of_take`, `Instances.announces_feed`,
`Instances.announces_feed_iff`.
-/
import Mathlib.Data.List.Infix
import LanInference.Discovery.Instances

namespace LanInference

/-- Whether a key is known after an event, by whether it was known before. -/
def BrowseEvent.tells (k : EndpointKey) (known : Bool) : BrowseEvent → Bool
  | added s => decide (s.key = k) || known
  | removed s => decide (s.key ≠ k) && known

/-- Whether the last event about a key is that a service has been added. -/
def addedLast (k : EndpointKey) (events : List BrowseEvent) : Bool :=
  events.foldl (BrowseEvent.tells k) false

/-- What a resolver reports of an instance. -/
inductive ResolverReport where
  | resolved (fullName : String) (addresses : List Address) (port : UInt16)
  | removed (fullName : String)

namespace Instances

def take (is : Instances) : ResolverReport → Instances × List BrowseEvent
  | .resolved fullName addresses port => is.resolved fullName addresses port
  | .removed fullName => is.removed fullName

/-- The instances announced after some reports, and the events that come of them. -/
def feed (is : Instances) : List ResolverReport → Instances × List BrowseEvent
  | [] => (is, [])
  | r :: rs =>
    let (next, events) := is.take r
    let (last, later) := next.feed rs
    (last, events ++ later)

/-- Whether the instance of a name is announced with a key. -/
def isAt (is : Instances) (name : String) (k : EndpointKey) : Bool :=
  (is.announced.get? name).any (·.key = k)

def Announces (is : Instances) (k : EndpointKey) : Prop := ∃ name, is.isAt name k = true

/-- No two instances are announced with a key. -/
def Single (is : Instances) (k : EndpointKey) : Prop :=
  ∀ m n, is.isAt m k = true → is.isAt n k = true → m = n

/-- The events of an instance that was announced as one service and is now as another. -/
def moves (before after : Option Service) : List BrowseEvent :=
  if before = after then [] else before.toList.map .removed ++ after.toList.map .added

variable {is : Instances} {k : EndpointKey} {known : Bool}

/-- A report changes what one instance is announced as, and the events say how. -/
theorem take_eq (is : Instances) (r : ResolverReport) : ∃ name after,
    (∀ m, (is.take r).1.announced.get? m = if m = name then after else is.announced.get? m) ∧
      (is.take r).2 = moves (is.announced.get? name) after := by
  cases r with
  | resolved fullName addresses port =>
    refine ⟨normalName fullName, ?_⟩
    unfold take resolved
    dsimp only
    cases Address.preferred? addresses with
    | none => exact ⟨is.announced.get? (normalName fullName), by simp +contextual, by simp [moves]⟩
    | some address =>
      refine ⟨some (.ofAddress (is.instanceName fullName) address port), ?_⟩
      dsimp only
      cases hold : is.announced.get? (normalName fullName) with
      | none =>
        exact ⟨OrderedMap.get?_insert _ _ _, by simp [moves]⟩
      | some old =>
        refine ⟨OrderedMap.get?_insert _ _ _, ?_⟩
        simp [moves]
  | removed fullName =>
    refine ⟨normalName fullName, none, ?_⟩
    unfold take removed
    dsimp only
    cases hold : is.announced.get? (normalName fullName) with
    | none =>
      refine ⟨fun m => ?_, by simp [moves]⟩
      by_cases hm : m = normalName fullName
      · rw [if_pos hm, hm]
        exact hold
      · rw [if_neg hm]
    | some old => exact ⟨OrderedMap.get?_erase _ _, by simp [moves]⟩

theorem tells_moves {before after : Option Service} (h : before ≠ after) (known : Bool) :
    (moves before after).foldl (BrowseEvent.tells k) known =
      (after.any (·.key = k) || (!before.any (·.key = k) && known)) := by
  rw [moves, if_neg h]
  cases before <;> cases after <;> simp [BrowseEvent.tells]

/-- What a report comes to for a key: nothing changes, or one instance moves and the others stay. -/
theorem told_of_take (is : Instances) (r : ResolverReport) (k : EndpointKey) :
    ((∀ m, (is.take r).1.isAt m k = is.isAt m k) ∧ (is.take r).2 = []) ∨
      ∃ name, (∀ m, m ≠ name → (is.take r).1.isAt m k = is.isAt m k) ∧
        ∀ known, (is.take r).2.foldl (BrowseEvent.tells k) known =
          ((is.take r).1.isAt name k || (!is.isAt name k && known)) := by
  obtain ⟨name, after, hget, hevents⟩ := is.take_eq r
  by_cases hsame : is.announced.get? name = after
  · refine .inl ⟨fun m => ?_, by rw [hevents, moves, if_pos hsame]⟩
    rw [isAt, hget, isAt]
    split
    · rename_i hm
      rw [hm, hsame]
    · rfl
  · refine .inr ⟨name, fun m hm => ?_, fun known => ?_⟩
    · rw [isAt, hget, if_neg hm, isAt]
    · rw [hevents, tells_moves hsame, isAt, hget, if_pos rfl, isAt]

/-- A key that is known is announced, before a report and after it. -/
theorem announces_take (r : ResolverReport) (h : known = true → is.Announces k)
    (hknown : (is.take r).2.foldl (BrowseEvent.tells k) known = true) :
    (is.take r).1.Announces k := by
  rcases is.told_of_take r k with ⟨hsame, hnone⟩ | ⟨name, hothers, htold⟩
  · rw [hnone] at hknown
    obtain ⟨m, hm⟩ := h hknown
    exact ⟨m, (hsame m).trans hm⟩
  · rw [htold, Bool.or_eq_true, Bool.and_eq_true, Bool.not_eq_true'] at hknown
    rcases hknown with hnow | ⟨hbefore, hknown⟩
    · exact ⟨name, hnow⟩
    · obtain ⟨m, hm⟩ := h hknown
      have hother : m ≠ name := by
        rintro rfl
        rw [hbefore] at hm
        cases hm
      exact ⟨m, (hothers m hother).trans hm⟩

/-- A key that at most one instance has is known exactly if it is announced. -/
theorem announces_take_iff (r : ResolverReport) (hsingle : is.Single k)
    (h : known = true ↔ is.Announces k) :
    (is.take r).2.foldl (BrowseEvent.tells k) known = true ↔ (is.take r).1.Announces k := by
  refine ⟨announces_take r h.mp, ?_⟩
  rintro ⟨m, hm⟩
  rcases is.told_of_take r k with ⟨hsame, hnone⟩ | ⟨name, hothers, htold⟩
  · rw [hnone]
    exact h.mpr ⟨m, (hsame m).symm.trans hm⟩
  · rw [htold]
    by_cases hname : m = name
    · rw [← hname, hm, Bool.true_or]
    · have hbefore : is.isAt m k = true := (hothers m hname).symm.trans hm
      have hfree : is.isAt name k = false := by
        by_contra hshared
        exact hname (hsingle m name hbefore (by simpa using hshared))
      rw [hfree, h.mpr ⟨m, hbefore⟩, Bool.not_false, Bool.true_and, Bool.or_true]

/-- **Whatever the last event adds is announced.** -/
theorem announces_feed : ∀ (rs : List ResolverReport) {is : Instances} {known : Bool},
    (known = true → is.Announces k) →
    (is.feed rs).2.foldl (BrowseEvent.tells k) known = true → (is.feed rs).1.Announces k
  | [], _, _, h, hknown => h hknown
  | r :: rs, is, known, h, hknown => by
    rw [feed, List.foldl_append] at hknown
    exact announces_feed rs (announces_take r h) hknown

/-- **A key that instances never share is announced exactly if the last event about it adds it.** -/
theorem announces_feed_iff : ∀ (rs : List ResolverReport) {is : Instances} {known : Bool},
    (∀ before, before <+: rs → (is.feed before).1.Single k) → (known = true ↔ is.Announces k) →
    ((is.feed rs).2.foldl (BrowseEvent.tells k) known = true ↔ (is.feed rs).1.Announces k)
  | [], _, _, _, h => h
  | r :: rs, is, known, hsingle, h => by
    rw [feed, List.foldl_append]
    have hlater : ∀ before, before <+: rs → ((is.take r).1.feed before).1.Single k :=
      fun before hbefore => hsingle (r :: before) (List.cons_prefix_cons.mpr ⟨rfl, hbefore⟩)
    exact announces_feed_iff rs hlater (announces_take_iff r (hsingle [] List.nil_prefix) h)

theorem not_announces_ofType (serviceType : String) (k : EndpointKey) :
    ¬ (ofType serviceType).Announces k := by
  rintro ⟨name, hat⟩
  cases hat

end Instances

end LanInference
