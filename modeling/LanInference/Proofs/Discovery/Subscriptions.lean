/-
# What subscribers come to see

A turn of the engine publishes exactly if it changes what the endpoints look like, and then it
publishes what they look like now (`Engine.Turn.publishing`). So the snapshot published last is the
current one, and each differs from the one before it. A poll of a subscription yields what has been
published since the poll before, and of more than the buffer holds only the newest; the first poll
also yields the snapshot that was current when the subscription was made. Whatever is skipped, the
last snapshot that a poll leaves its subscriber with is the current one.

Key definitions: `Effect.snapshot?`, `Subscription.newest`, `World.polls`, `World.shown`,
`World.Heard`, `World.Subscribed`.
Key theorems: `Engine.Turn.publishing`, `Subscription.foldl_push`, `World.airs_of_step`,
`World.polls_yield`, `World.Reachable.subscribed`.
-/
import Mathlib.Data.List.Chain
import LanInference.Proofs.Discovery.Bookkeeping

namespace LanInference

/-! ### What is published -/

/-- The snapshot that an effect publishes. -/
def Effect.snapshot? : Effect → Option Snapshot
  | publish snapshot => some snapshot
  | _ => none

namespace Engine

variable {now : Nat} {r : Option Report} {e e' : Engine} {es : List Effect} {s : ScanSession}

theorem endPass_unpublished (s : ScanSession) : s.endPass.2.filterMap Effect.snapshot? = [] :=
  s.filterMap_endPass fun _ => rfl

theorem cancelSession_unpublished (e : Engine) :
    e.cancelSession.2.filterMap Effect.snapshot? = [] :=
  e.filterMap_cancelSession fun _ => rfl

/-- A poll publishes nothing and leaves the endpoints alone. -/
theorem Polls.unpublished (h : Polls now e s e' es) :
    es.filterMap Effect.snapshot? = [] ∧ e'.endpoints = e.endpoints := by
  cases h with
  | pause => exact ⟨endPass_unpublished s, rfl⟩
  | skip => exact ⟨rfl, rfl⟩
  | run =>
    refine ⟨?_, rfl⟩
    show (s.endPass.2 ++ _).filterMap Effect.snapshot? = []
    rw [List.filterMap_append, endPass_unpublished]
    rfl

/-- What a turn publishes: nothing if the endpoints stay, and otherwise what they look like now,
which is not what they looked like before. -/
inductive Publishing (e e' : Engine) (es : List Effect) : Prop
  | silent (hp : es.filterMap Effect.snapshot? = []) (he : e'.endpoints = e.endpoints)
  | loud (hp : es.filterMap Effect.snapshot? = [e'.endpoints.snapshot])
      (he : e'.endpoints.snapshot ≠ e.endpoints.snapshot)

/-- Sets of different sizes look different. -/
theorem snapshot_ne_of_size {s t : EndpointSet} (h : s.size ≠ t.size) :
    s.snapshot ≠ t.snapshot := by
  intro hsame
  have hlength := congrArg List.length hsame
  rw [EndpointSet.length_snapshot, EndpointSet.length_snapshot] at hlength
  exact h hlength

theorem publishing_of_start {userInitiated : Bool} {p : PowerState}
    (h : Polls now (e.renewed userInitiated p) (e.freshSession userInitiated) e' es) :
    Publishing e e' (e.cancelSession.2 ++ e.clearing userInitiated ++ es) := by
  obtain ⟨hes, hendpoints⟩ := h.unpublished
  have hall : (e.cancelSession.2 ++ e.clearing userInitiated ++ es).filterMap Effect.snapshot? =
      (e.clearing userInitiated).filterMap Effect.snapshot? := by
    rw [List.filterMap_append, List.filterMap_append, cancelSession_unpublished, hes,
      List.nil_append, List.append_nil]
  have hheld : e'.endpoints = if userInitiated then .empty else e.endpoints := hendpoints
  by_cases hclears : (userInitiated && !e.endpoints.byKey.isEmpty) = true
  · obtain ⟨huser, hsome⟩ := Bool.and_eq_true_iff.mp hclears
    rw [huser, if_pos rfl] at hheld
    refine .loud ?_ ?_
    · rw [hall, clearing, if_pos hclears, hheld]
      rfl
    · rw [hheld]
      refine snapshot_ne_of_size fun hsize => ?_
      have hnil : e.endpoints.byKey.entries = [] := List.length_eq_zero_iff.mp hsize.symm
      simp [OrderedMap.isEmpty, hnil] at hsome
  · refine .silent ?_ ?_
    · rw [hall, clearing, if_neg hclears]
      rfl
    · rw [hheld]
      cases userInitiated with
      | false => rfl
      | true =>
        have hnil : e.endpoints.byKey.entries = [] := by simpa [OrderedMap.isEmpty] using hclears
        rcases he : e.endpoints with ⟨held⟩
        rw [he] at hnil
        exact congrArg EndpointSet.mk (OrderedMap.ext hnil.symm)

theorem publishing_of_drop (e : Engine) (s : ScanSession) (service : Service) :
    Publishing e (e.onRemoved s service).1 (e.onRemoved s service).2 := by
  have hgiven := EndpointSet.isSome_remove e.endpoints service.key
  by_cases hheld : e.endpoints.contains service.key = true
  · have hsize := EndpointSet.size_remove e.endpoints service.key
    have hpos : 0 < e.endpoints.size := OrderedMap.size_pos hheld
    rw [if_pos hheld] at hsize
    rw [hheld] at hgiven
    refine .loud ?_ (snapshot_ne_of_size ?_)
    · simp only [onRemoved, hgiven, if_true]
      rfl
    · show (e.endpoints.remove service.key).1.size ≠ e.endpoints.size
      omega
  · rw [Bool.not_eq_true] at hheld
    rw [hheld] at hgiven
    refine .silent ?_ (EndpointSet.remove_of_free hheld)
    simp only [onRemoved, hgiven, Bool.false_eq_true, if_false]
    rfl

/-- **A turn publishes exactly if it changes what the endpoints look like.** -/
theorem Turn.publishing (h : Turn now r e e' es) (ho : e.ledger.Orderly) : Publishing e e' es := by
  cases h with
  | stop => exact .silent e.cancelSession_unpublished rfl
  | start userInitiated p hpolls => exact publishing_of_start hpolls
  | timer p hs _ hpolls => exact .silent hpolls.unpublished.1 hpolls.unpublished.2
  | resume p hs _ hpolls => exact .silent hpolls.unpublished.1 hpolls.unpublished.2
  | @background _ s p => exact .silent (endPass_unpublished s) rfl
  | drop => exact publishing_of_drop e _ _
  | rest | read | await | rearm | ask | fail | succeed | refuse => exact .silent rfl rfl
  | @accept _ s service hs hpending =>
    have hfree : e.endpoints.contains service.key = false :=
      ho.disjoint _ _ (ledger_session hs) service.key hpending
    have hsize := EndpointSet.size_insert e.endpoints (.ofService service)
    rw [if_neg (Bool.not_eq_true _ ▸ hfree)] at hsize
    have hchanged : (e.endpoints.insert (.ofService service)).2 = true :=
      EndpointSet.insert_changes hfree
    refine .loud ?_ (snapshot_ne_of_size ?_)
    · rw [if_pos hchanged]
      rfl
    · show (e.endpoints.insert (.ofService service)).1.size ≠ e.endpoints.size
      omega

end Engine

/-! ### The buffer of a subscription -/

namespace Subscription

/-- The newest of a list of snapshots, as many as the buffer holds. -/
def newest (l : List Snapshot) : List Snapshot := l.drop (l.length - subscriptionBuffer)

theorem newest_of_length_le {l : List Snapshot} (h : l.length ≤ subscriptionBuffer) :
    newest l = l := by
  rw [newest, Nat.sub_eq_zero_of_le h, List.drop_zero]

/-- What the buffer has let go does not matter for what it holds later. -/
theorem newest_newest_append (l m : List Snapshot) : newest (newest l ++ m) = newest (l ++ m) := by
  by_cases h : l.length ≤ subscriptionBuffer
  · rw [newest_of_length_le h]
  · have hdrop : newest l ++ m = (l ++ m).drop (l.length - subscriptionBuffer) :=
      (List.drop_append_of_le_length (Nat.sub_le _ _)).symm
    rw [hdrop, newest, newest, List.drop_drop]
    congr 1
    simp only [List.length_drop, List.length_append]
    omega

theorem newest_sublist (l : List Snapshot) : (newest l).Sublist l := List.drop_sublist _ l

/-- The newest snapshot of all is kept. -/
theorem getLast?_newest (l : List Snapshot) : (newest l).getLast? = l.getLast? := by
  rw [newest, List.getLast?_drop]
  by_cases h : l.length ≤ l.length - subscriptionBuffer
  · have hnil : l.length = 0 := by
      unfold subscriptionBuffer at h
      omega
    rw [if_pos h, List.length_eq_zero_iff.mp hnil]
    rfl
  · rw [if_neg h]

/-- A subscription that has the newest of what it has not been polled for still has them when more
is published. -/
theorem foldl_push : ∀ (published : List Snapshot) {s : Subscription} {unseen : List Snapshot},
    s.waiting = newest unseen →
    published.foldl push s = { s with waiting := newest (unseen ++ published) }
  | [], s, unseen, h => by
    rw [List.append_nil, ← h]
    rfl
  | x :: published, s, unseen, h => by
    have hpush : (s.push x).waiting = newest (unseen ++ [x]) := by
      show newest (s.waiting ++ [x]) = newest (unseen ++ [x])
      rw [h, newest_newest_append]
    rw [List.foldl_cons, foldl_push published hpush, List.append_assoc]
    rfl

end Subscription

theorem OrderedMap.get?_mapValues {α β : Type} (f : α → β) (m : OrderedMap α) (k : String) :
    (m.mapValues f).get? k = (m.get? k).map f := by
  unfold get? mapValues
  rw [List.find?_map, Option.map_map, Option.map_map]
  rfl

namespace World

variable {w w' : World} {a : Action} {name : String}

/-! ### What an action publishes -/

theorem published_after (w : World) (r : Engine × List Effect) :
    (w.after r).published = (r.2.filterMap Effect.snapshot?).reverse ++ w.published := by
  have hread : ∀ v : World, v.published = v.record.filterMap fun x => x.2.snapshot? := fun v =>
    List.filterMap_congr fun x _ => by cases x.2 <;> rfl
  rw [hread, hread, filterMap_record_after]

theorem subscription_foldl (name : String) : ∀ (es : List Effect) (w : World),
    (es.foldl perform w).subscriptions.get? name =
      (w.subscriptions.get? name).map ((es.filterMap Effect.snapshot?).foldl Subscription.push)
  | [], w => Option.map_id'.symm
  | x :: es, w => by
    rw [List.foldl_cons, subscription_foldl name es]
    cases x with
    | publish snapshot =>
      show ((w.subscriptions.mapValues (·.push snapshot)).get? name).map _ = _
      rw [OrderedMap.get?_mapValues, Option.map_map]
      rfl
    | startPass | cancelPass | validate => rfl

theorem subscription_after (w : World) (r : Engine × List Effect) (name : String) :
    (w.after r).subscriptions.get? name = (w.subscriptions.get? name).map
      ((r.2.filterMap Effect.snapshot?).foldl Subscription.push) :=
  subscription_foldl name r.2 { w with engine := r.1 }

/-- What an action comes to for a subscription that it neither makes nor ends: it is polled, or
snapshots are published and wait in it. -/
structure Airs (name : String) (a : Action) (w w' : World) (published : List Snapshot) : Prop where
  published_eq : w'.published.reverse = w.published.reverse ++ published
  subscription_eq : w'.subscriptions.get? name = (w.subscriptions.get? name).map fun s =>
    if a = .poll name then s.poll.1 else published.foldl Subscription.push s
  silent : a = .poll name → published = []

theorem Airs.length_eq {published : List Snapshot} (h : Airs name a w w' published) :
    w'.published.length = w.published.length + published.length := by
  have hlength := congrArg List.length h.published_eq
  rwa [List.length_reverse, List.length_append, List.length_reverse] at hlength

/-- A poll publishes nothing. -/
theorem Airs.of_poll {published : List Snapshot} (h : Airs name a w w' published)
    (hpoll : a = .poll name) : w'.published = w.published := by
  have hsame := h.published_eq
  rw [h.silent hpoll, List.append_nil] at hsame
  exact List.reverse_injective hsame

theorem drop_published (w : World) : w.published.reverse.drop w.published.length = [] :=
  List.drop_of_length_le (by rw [List.length_reverse])

theorem airs_of_quiet (hrecord : w'.record = w.record)
    (hsame : w'.subscriptions.get? name = w.subscriptions.get? name) (hpoll : a ≠ .poll name) :
    Airs name a w w' [] := by
  refine ⟨?_, ?_, fun _ => rfl⟩
  · rw [List.append_nil, published, hrecord]
    rfl
  · simp [hsame, hpoll]

theorem airs_of_after {v : World} {r : Engine × List Effect} (hrecord : v.record = w.record)
    (hsame : v.subscriptions = w.subscriptions) (hrecord' : w'.record = (v.after r).record)
    (hsame' : w'.subscriptions = (v.after r).subscriptions) (hpoll : a ≠ .poll name) :
    Airs name a w w' (r.2.filterMap Effect.snapshot?) := by
  have hbefore : v.published = w.published := by
    rw [published, hrecord]
    rfl
  have hafter : w'.published = (v.after r).published := by
    rw [published, hrecord']
    rfl
  refine ⟨?_, ?_, fun hsame => absurd hsame hpoll⟩
  · rw [hafter, published_after, List.reverse_append, List.reverse_reverse, hbefore]
  · rw [hsame', subscription_after, hsame]
    simp only [hpoll, if_false]

theorem airs_of_step (h : w.step a = some w') (hmade : a ≠ .subscribe name)
    (hended : a ≠ .unsubscribe name) : ∃ published, Airs name a w w' published := by
  unfold step at h
  cases a with
  | command | shutdown =>
    dsimp only at h
    split at h
    · cases h
      exact ⟨_, airs_of_after (v := w) rfl rfl rfl rfl (by simp)⟩
    · cases h
  | deliver reading =>
    dsimp only at h
    split at h
    · rename_i r rest hm
      split at h
      · cases h
        exact ⟨_, airs_of_after (v := { w with mailbox := rest }) rfl rfl rfl rfl (by simp)⟩
      · cases h
    · cases h
  | timer reading =>
    dsimp only at h
    split at h
    · split at h
      · cases h
        exact ⟨_, airs_of_after (v := w) rfl rfl rfl rfl (by simp)⟩
      · cases h
    · cases h
  | browse | passEnds | validated =>
    obtain ⟨t, _, rfl⟩ := Option.map_eq_some_iff.mp h
    exact ⟨[], airs_of_quiet rfl rfl (by simp)⟩
  | elapse time =>
    cases h
    exact ⟨[], airs_of_quiet rfl rfl (by simp)⟩
  | subscribe other =>
    have hother : name ≠ other := fun hsame => hmade (hsame ▸ rfl)
    dsimp only at h
    split at h
    · cases h
      exact ⟨[], airs_of_quiet rfl (by rw [OrderedMap.get?_insert, if_neg hother]) (by simp)⟩
    · cases h
  | unsubscribe other =>
    have hother : name ≠ other := fun hsame => hended (hsame ▸ rfl)
    cases h
    exact ⟨[], airs_of_quiet rfl (by rw [OrderedMap.get?_erase, if_neg hother]) (by simp)⟩
  | poll other =>
    obtain ⟨s, hs, rfl⟩ := Option.map_eq_some_iff.mp h
    by_cases hother : name = other
    · subst hother
      refine ⟨[], (List.append_nil _).symm, ?_, fun _ => rfl⟩
      rw [OrderedMap.get?_insert, if_pos rfl, hs, Option.map_some, if_pos rfl]
    · have hpoll : Action.poll other ≠ .poll name := fun hsame =>
        hother (Action.poll.inj hsame).symm
      exact ⟨[], airs_of_quiet rfl (by rw [OrderedMap.get?_insert, if_neg hother]) hpoll⟩

/-! ### Polls along a run -/

/-- The polls of a subscription along a run: for each, what was published since the one before it,
and what it yields. The one before the run came when `n` snapshots had been published. -/
def polls (name : String) : World → Nat → List Action → List (List Snapshot × List Snapshot)
  | _, _, [] => []
  | w, n, a :: as =>
    match w.step a with
    | none => []
    | some w' =>
      if a = .poll name then
        (w.published.reverse.drop n, w.yields name) :: polls name w' w.published.length as
      else polls name w' n as

/-- What polls yield, by what was published since the poll before each of them. The first also
yields what the subscription starts with. -/
def shown (start : List Snapshot) : List (List Snapshot) → List (List Snapshot)
  | [] => []
  | unseen :: later => (start ++ Subscription.newest unseen) :: later.map Subscription.newest

theorem shown_nil (unseen : List (List Snapshot)) :
    shown [] unseen = unseen.map Subscription.newest := by
  cases unseen <;> rfl

/-- Neither makes the subscription anew nor ends it. -/
def Keeps (name : String) (as : List Action) : Prop :=
  ∀ a ∈ as, a ≠ .subscribe name ∧ a ≠ .unsubscribe name

theorem Keeps.of_cons {as : List Action} (h : Keeps name (a :: as)) : Keeps name as :=
  fun x hx => h x (List.mem_cons_of_mem _ hx)

theorem airs_of_keeps {as : List Action} (h : Keeps name (a :: as)) (hstep : w.step a = some w') :
    ∃ published, Airs name a w w' published :=
  airs_of_step hstep (h a List.mem_cons_self).1 (h a List.mem_cons_self).2

/-- **Each poll yields the newest of what was published since the one before it.** -/
theorem polls_yield : ∀ (as : List Action) {w : World} {n : Nat} {s : Subscription},
    w.subscriptions.get? name = some s →
    s.waiting = Subscription.newest (w.published.reverse.drop n) → n ≤ w.published.length →
    Keeps name as →
    (polls name w n as).map (·.2) = shown s.first.toList ((polls name w n as).map (·.1))
  | [], _, _, _, _, _, _, _ => rfl
  | a :: as, w, n, s, hs, hwaiting, hn, hkeeps => by
    rw [polls]
    cases hstep : w.step a with
    | none => rfl
    | some w' =>
      obtain ⟨published, hairs⟩ := airs_of_keeps hkeeps hstep
      have hsub := hairs.subscription_eq
      rw [hs, Option.map_some] at hsub
      dsimp only
      by_cases hpoll : a = .poll name
      · -- After the poll nothing waits, and it has published nothing.
        have hsame := hairs.of_poll hpoll
        rw [if_pos hpoll] at hsub
        have hnone : s.poll.1.waiting =
            Subscription.newest (w'.published.reverse.drop w.published.length) := by
          rw [hsame, drop_published]
          rfl
        have hrest := polls_yield as hsub hnone (Nat.le_of_eq (by rw [hsame])) hkeeps.of_cons
        have hyields : w.yields name = s.first.toList ++ s.waiting := by
          rw [yields, hs]
          rfl
        rw [if_pos hpoll, List.map_cons, List.map_cons, shown, hrest, hyields, hwaiting]
        exact congrArg _ (shown_nil _)
      · have hlength : n ≤ w.published.reverse.length := by rwa [List.length_reverse]
        have hdrop : w'.published.reverse.drop n = w.published.reverse.drop n ++ published := by
          rw [hairs.published_eq, List.drop_append_of_le_length hlength]
        rw [if_neg hpoll, Subscription.foldl_push published hwaiting, ← hdrop] at hsub
        rw [if_neg hpoll]
        exact polls_yield as
          (s := { s with waiting := Subscription.newest (w'.published.reverse.drop n) }) hsub rfl
          (hairs.length_eq ▸ Nat.le_add_right_of_le hn) hkeeps.of_cons

/-- The polls cut what is published into pieces, and after the last poll nothing is left. -/
theorem polls_cut : ∀ (as : List Action) {w w' : World} {n : Nat}, w.run as = some w' →
    n ≤ w.published.length → Keeps name as →
    ∃ later rest, w'.published.reverse = w.published.reverse ++ later ∧
      ((polls name w n as).map (·.1)).flatten ++ rest = w.published.reverse.drop n ++ later ∧
      (as.getLast? = some (.poll name) → rest = [] ∧ polls name w n as ≠ [])
  | [], w, w', n, hrun, _, _ => by
    cases hrun
    exact ⟨[], w.published.reverse.drop n, (List.append_nil _).symm, (List.append_nil _).symm,
      fun hlast => nomatch hlast⟩
  | a :: as, w, w', n, hrun, hn, hkeeps => by
    rw [run_cons] at hrun
    obtain ⟨v, hstep, hrun⟩ := Option.bind_eq_some_iff.mp hrun
    obtain ⟨published, hairs⟩ := airs_of_keeps hkeeps hstep
    have hlength := hairs.length_eq
    rw [polls, hstep]
    dsimp only
    by_cases hpoll : a = .poll name
    · have hsame := hairs.of_poll hpoll
      obtain ⟨later, rest, hlater, hcut, hlast⟩ := polls_cut as (n := w.published.length) hrun
        (by omega) hkeeps.of_cons
      rw [hsame] at hlater hcut
      rw [drop_published, List.nil_append] at hcut
      refine ⟨later, rest, hlater, ?_, fun hend => ⟨?_, ?_⟩⟩
      · rw [if_pos hpoll, List.map_cons, List.flatten_cons, List.append_assoc, hcut]
      · cases as with
        | nil =>
          cases hrun
          rw [hsame] at hlater
          rw [List.self_eq_append_right.mp hlater] at hcut
          exact (List.append_eq_nil_iff.mp hcut).2
        | cons b bs => exact (hlast (by rwa [List.getLast?_cons_cons] at hend)).1
      · rw [if_pos hpoll]
        exact List.cons_ne_nil _ _
    · obtain ⟨later, rest, hlater, hcut, hlast⟩ := polls_cut as (n := n) hrun (by omega)
        hkeeps.of_cons
      have hdrop : v.published.reverse.drop n = w.published.reverse.drop n ++ published := by
        rw [hairs.published_eq, List.drop_append_of_le_length (by rwa [List.length_reverse])]
      rw [if_neg hpoll]
      refine ⟨published ++ later, rest, ?_, ?_, fun hend => hlast ?_⟩
      · rw [hlater, hairs.published_eq, List.append_assoc]
      · rw [hcut, hdrop, List.append_assoc]
      · cases as with
        | nil => exact absurd (Option.some.inj hend) hpoll
        | cons b bs => rwa [List.getLast?_cons_cons] at hend

/-- A subscription stays until it is ended. -/
theorem subscription_run : ∀ (as : List Action) {w w' : World} {s : Subscription},
    w.subscriptions.get? name = some s → w.run as = some w' → Keeps name as →
    ∃ s', w'.subscriptions.get? name = some s'
  | [], w, w', s, hs, hrun, _ => by
    cases hrun
    exact ⟨s, hs⟩
  | a :: as, w, w', s, hs, hrun, hkeeps => by
    rw [run_cons] at hrun
    obtain ⟨v, hstep, hrun⟩ := Option.bind_eq_some_iff.mp hrun
    obtain ⟨published, hairs⟩ := airs_of_keeps hkeeps hstep
    have hsub := hairs.subscription_eq
    rw [hs, Option.map_some] at hsub
    exact subscription_run as hsub hrun hkeeps.of_cons

theorem flatten_newest_sublist : ∀ unseen : List (List Snapshot),
    (unseen.map Subscription.newest).flatten.Sublist unseen.flatten
  | [] => List.Sublist.refl _
  | l :: ls => (Subscription.newest_sublist l).append (flatten_newest_sublist ls)

theorem getLast?_flatten_newest : ∀ unseen : List (List Snapshot),
    (unseen.map Subscription.newest).flatten.getLast? = unseen.flatten.getLast?
  | [] => rfl
  | l :: ls => by
    rw [List.map_cons, List.flatten_cons, List.flatten_cons, List.getLast?_append,
      List.getLast?_append, getLast?_flatten_newest ls, Subscription.getLast?_newest]

theorem flatten_shown (current : Snapshot) {unseen : List (List Snapshot)} (h : unseen ≠ []) :
    (shown [current] unseen).flatten = current :: (unseen.map Subscription.newest).flatten := by
  cases unseen with
  | nil => exact absurd rfl h
  | cons l ls => rfl

/-! ### Reachable worlds -/

/-- The snapshot published last, or the empty one, is the current one, and each snapshot differs
from the one before it. -/
structure Aired (w : World) : Prop where
  current : (w.published ++ [[]]).head? = some w.engine.endpoints.snapshot
  differ : (w.published ++ [[]]).IsChain (· ≠ ·)

theorem Aired.of_eq (h : w.Aired) (hrecord : w'.record = w.record)
    (hendpoints : w'.engine.endpoints = w.engine.endpoints) : w'.Aired := by
  have hsame : w'.published = w.published := by
    rw [published, hrecord]
    rfl
  refine ⟨?_, ?_⟩
  · rw [hsame, hendpoints]
    exact h.current
  · rw [hsame]
    exact h.differ

theorem Aired.after {e : Engine} {es : List Effect} (h : w.Aired)
    (hp : Engine.Publishing w.engine e es) : (w.after (e, es)).Aired := by
  have hpublished := published_after w (e, es)
  cases hp with
  | silent hnone he =>
    rw [hnone] at hpublished
    refine ⟨?_, ?_⟩
    · rw [hpublished, after_engine, he]
      exact h.current
    · rw [hpublished]
      exact h.differ
  | loud hone hne =>
    have hcons : (w.after (e, es)).published ++ [[]] =
        e.endpoints.snapshot :: (w.published ++ [[]]) := by
      rw [hpublished, hone]
      rfl
    refine ⟨?_, ?_⟩
    · rw [hcons, after_engine]
      rfl
    · rw [hcons]
      refine List.IsChain.cons h.differ fun y hy => ?_
      rw [h.current, Option.mem_some_iff] at hy
      rwa [← hy]

theorem Aired.change (h : w.Aired) (hb : w.Bookkept) (hc : Change w a w') : w'.Aired := by
  cases hc with
  | @turn a r rest e es ho hm ha hturn =>
    have hrest : { w with mailbox := rest }.Aired := h.of_eq rfl rfl
    exact hrest.after (hturn.publishing hb.ledger)
  | sees | passEnds | validated | aside => exact h.of_eq rfl rfl
  | shutdown =>
    have hended : w.engine.cancelSession.1.endpoints = w.engine.endpoints :=
      congrArg Ledger.held w.engine.ledger_cancelSession
    exact (h.after (.silent w.engine.cancelSession_unpublished hended)).of_eq rfl rfl

theorem Reachable.aired {floor : Nat} (h : Reachable floor w) : w.Aired := by
  have hboth : w.Bookkept ∧ w.Aired := by
    refine h.induct (P := fun w => w.Bookkept ∧ w.Aired) (fun reading => ⟨?_, rfl, ?_⟩)
      fun hb hc => ⟨hb.1.change hc, hb.2.change hb.1 hc⟩
    · exact Reachable.bookkept ⟨reading, [], rfl⟩
    · exact List.IsChain.singleton _
  exact hboth.2

/-- What a subscriber comes to see whose subscription is made to `w`, over a run to `w'`, by its
polls: all but the first poll yield the newest of what was published since the one before, and the
first also the snapshot current when the subscription was made. So it sees that snapshot and then
some of those published later, in their order, and after a poll the last one it has seen is the
current. -/
structure Heard (name : String) (w : World) (as : List Action) (w' : World)
    (polls : List (List Snapshot × List Snapshot)) : Prop where
  yields : polls.map (·.2) = shown [w.engine.endpoints.snapshot] (polls.map (·.1))
  cut : (polls.map (·.1)).flatten <+: w'.published.reverse.drop w.published.length
  subsequence : polls ≠ [] → ∃ later,
    (polls.map (·.2)).flatten = w.engine.endpoints.snapshot :: later ∧
      later.Sublist (w'.published.reverse.drop w.published.length)
  latest : as.getLast? = some (.poll name) →
    (polls.map (·.2)).flatten.getLast? = some w'.engine.endpoints.snapshot
  open_ended : ∃ v, w'.step (.poll name) = some v

/-- What holds of the snapshots published in a world, and of what its subscribers come to see. -/
structure Subscribed (w : World) : Prop extends Aired w where
  heard : ∀ name w₁ as w', w.step (.subscribe name) = some w₁ → w₁.run as = some w' →
    Keeps name as → Heard name w as w' (polls name w₁ w.published.length as)

/-- What is published after a subscription is made ends in the current snapshot. -/
theorem Aired.getLast?_later {later : List Snapshot} (h : w.Aired) (h' : w'.Aired)
    (hlater : w'.published.reverse = w.published.reverse ++ later) :
    (w.engine.endpoints.snapshot :: later).getLast? = some w'.engine.endpoints.snapshot := by
  have hlast : ∀ v : World, v.Aired →
      ([] :: v.published.reverse).getLast? = some v.engine.endpoints.snapshot := by
    intro v hv
    rw [← hv.current, ← List.getLast?_reverse, List.reverse_append]
    rfl
  have hw := hlast w h
  have hw' := hlast w' h'
  rw [hlater] at hw'
  rw [List.getLast?_cons, Option.some.injEq] at hw
  rw [List.getLast?_cons, ← hw', List.getLast?_cons, List.getLast?_append, ← hw]
  cases later.getLast? <;> rfl

/-- **A subscriber comes to see the snapshot that was current when it subscribed, then snapshots
published later, in their order and skipping some only if more than the buffer holds were waiting,
and with every poll the current one.** -/
theorem Reachable.subscribed {floor : Nat} (h : Reachable floor w) : w.Subscribed := by
  refine ⟨h.aired, fun name w₁ as w' hstep hrun hkeeps => ?_⟩
  have hw₁ : w₁ = { w with subscriptions :=
      w.subscriptions.insert name (.start w.engine.endpoints.snapshot) } := by
    unfold World.step at hstep
    dsimp only at hstep
    split at hstep
    · exact (Option.some.inj hstep).symm
    · cases hstep
  have hsame : w₁.published = w.published := by
    rw [hw₁]
    rfl
  have hstart : w₁.subscriptions.get? name = some (.start w.engine.endpoints.snapshot) := by
    rw [hw₁, OrderedMap.get?_insert, if_pos rfl]
  have hreach : Reachable floor w' := (h.step hstep).run hrun
  have hyield : (polls name w₁ w.published.length as).map (·.2) =
      shown [w.engine.endpoints.snapshot]
        ((polls name w₁ w.published.length as).map (·.1)) :=
    polls_yield as hstart (by rw [hsame, drop_published]; rfl) (Nat.le_of_eq (by rw [hsame])) hkeeps
  obtain ⟨later, rest, hlater, hcut, hlast⟩ := polls_cut as (n := w.published.length) hrun
    (Nat.le_of_eq (by rw [hsame])) hkeeps
  rw [hsame] at hlater hcut
  rw [drop_published, List.nil_append] at hcut
  have hdrop : w'.published.reverse.drop w.published.length = later := by
    rw [hlater, ← List.length_reverse, List.drop_left]
  refine ⟨hyield, ?_, fun hsome => ?_, fun hend => ?_, ?_⟩
  · rw [hdrop, ← hcut]
    exact List.prefix_append _ _
  · refine ⟨_, (congrArg _ hyield).trans (flatten_shown _ (by simpa using hsome)), ?_⟩
    rw [hdrop, ← hcut]
    exact (flatten_newest_sublist _).trans (List.sublist_append_left _ _)
  · obtain ⟨hrest, hsome⟩ := hlast hend
    rw [hrest, List.append_nil] at hcut
    have hlatest := h.aired.getLast?_later hreach.aired hlater
    rw [hyield, flatten_shown _ (by simpa using hsome), List.getLast?_cons, getLast?_flatten_newest,
      hcut, ← List.getLast?_cons]
    exact hlatest
  · obtain ⟨s, hs⟩ := subscription_run as hstart hrun hkeeps
    exact ⟨_, by rw [World.step, hs, Option.map_some]⟩

/-- A subscriber is shown the current snapshot, then a service comes and goes nine times. -/
def flicker : List Action :=
  .poll "wall" :: (List.range 9).flatMap (fun n =>
    [.browse 1 (.added ⟨"desk", "10.0.0.5", 8080⟩), .deliver .nominal, .validated n true,
      .deliver .nominal, .browse 1 (.removed ⟨"desk", "10.0.0.5", 8080⟩), .deliver .nominal]) ++
    [.poll "wall"]

/-- Of the eighteen snapshots published between its polls the subscriber misses the two oldest. -/
theorem subscribed_of_flicker :
    ∃ w w₁ w' : World,
      (initial 10000 .nominal).run [.command (.start true) .nominal .nominal] = some w ∧
      w.step (.subscribe "wall") = some w₁ ∧ w₁.run flicker = some w' ∧
      (polls "wall" w₁ w.published.length flicker).map (fun p => (p.1.length, p.2.length)) =
        [(0, 1), (18, 16)] ∧
      Heard "wall" w flicker w' (polls "wall" w₁ w.published.length flicker) := by
  have hall : (((initial 10000 .nominal).run [.command (.start true) .nominal .nominal]).bind
      fun w => (w.step (.subscribe "wall")).bind fun w₁ => (w₁.run flicker).map fun _ =>
        (polls "wall" w₁ w.published.length flicker).map fun p => (p.1.length, p.2.length)) =
      some [(0, 1), (18, 16)] := by decide +kernel
  obtain ⟨w, hw, hall⟩ := Option.bind_eq_some_iff.mp hall
  obtain ⟨w₁, hw₁, hall⟩ := Option.bind_eq_some_iff.mp hall
  obtain ⟨w', hw', hpolls⟩ := Option.map_eq_some_iff.mp hall
  have hkeeps : Keeps "wall" flicker := by
    unfold Keeps
    decide +kernel
  exact ⟨w, w₁, w', hw, hw₁, hw', hpolls,
    (@Reachable.subscribed w 10000 ⟨.nominal, _, hw⟩).heard "wall" w₁ flicker w' hw₁ hw' hkeeps⟩

end World
end LanInference
