/-
# A watcher reports the changes it samples

A watcher of period `e` samples at 0, e, 2e, … and compares each sample with the one before. It
keeps the last reading that it reported and not the last sample, but a sample that is not reported
equals the one before, so the two equal the same readings (`Watcher.Holds`). What is reported is
therefore what changes from one sample to the next (`changesUpTo`): a change that is undone between
two samples is missed, and a level that is no number is reported at every sample.

Key definitions: `changeAt`, `changesUpTo`, `Stretch`, `readingAt`, `tickCount`, `sampled`,
`Watcher.Holds`, `Watcher.follow`, `Watcher.Follows`.
Key theorems: `lastChange_congr`, `isChain_changesUpTo`, `Watcher.Holds.samples`,
`Watcher.Follows.advance`, `Watcher.reports_sampled_changes`.
-/
import Mathlib.Data.List.Chain
import LanInference.Power.Watch
import LanInference.Proofs.Power.Level

namespace LanInference

/-! ### Equality of readings -/

namespace PowerState

/-- A reading equals itself unless its level is no number. -/
theorem same_self (s : PowerState) : s.same s = !s.battery.isNaN := by simp [same]

/-- Equal readings equal the same readings. -/
theorem same_congr {s t : PowerState} (h : s.same t = true) (q : PowerState) :
    q.same s = q.same t := by
  simp only [same, Bool.and_eq_true, beq_iff_eq] at h
  obtain ⟨⟨⟨⟨hbattery, hlow⟩, hback⟩, hmode⟩, hinterval⟩ := h
  simp only [same, Level.eq_congr hbattery, hlow, hback, hmode, hinterval]

end PowerState

/-! ### The changes of a sequence of samples -/

section Changes

variable (s : Nat → PowerState)

/-- The sample after the one at `k`, if it differs from it. -/
def changeAt (k : Nat) : Option PowerState :=
  if (s (k + 1)).same (s k) then none else some (s (k + 1))

/-- The changes on the way to the sample at `n`. -/
def changesUpTo (n : Nat) : List PowerState := (List.range n).filterMap (changeAt s)

/-- The last change on the way to the sample at `n`, or the first sample. -/
def lastChange (n : Nat) : PowerState := (changesUpTo s n).getLast?.getD (s 0)

variable {s}

theorem changeAt_of_same {k : Nat} (h : (s (k + 1)).same (s k) = true) : changeAt s k = none :=
  if_pos h

theorem changeAt_of_not_same {k : Nat} (h : ¬ (s (k + 1)).same (s k) = true) :
    changeAt s k = some (s (k + 1)) :=
  if_neg h

theorem changesUpTo_add (m n : Nat) :
    changesUpTo s (m + n) = changesUpTo s m ++ (List.range' m n).filterMap (changeAt s) := by
  have hsplit : List.range (m + n) = List.range m ++ List.range' m n := by
    rw [List.range_eq_range', List.range_eq_range', ← List.range'_append_1, Nat.zero_add]
  rw [changesUpTo, hsplit, List.filterMap_append]
  rfl

theorem changesUpTo_succ (n : Nat) :
    changesUpTo s (n + 1) = changesUpTo s n ++ (changeAt s n).toList := by
  rw [changesUpTo_add, List.range'_one, List.filterMap_cons, List.filterMap_nil]
  cases changeAt s n <;> rfl

/-- The last change equals the same readings as the sample does. -/
theorem lastChange_congr (n : Nat) (q : PowerState) :
    q.same (lastChange s n) = q.same (s n) := by
  induction n with
  | zero => rfl
  | succ n ih =>
    unfold lastChange
    rw [changesUpTo_succ]
    by_cases h : (s (n + 1)).same (s n) = true
    · rw [changeAt_of_same h, Option.toList_none, List.append_nil, PowerState.same_congr h]
      exact ih
    · rw [changeAt_of_not_same h, Option.toList_some, List.getLast?_concat]
      rfl

/-- **A change differs from the one before.** -/
theorem isChain_changesUpTo (n : Nat) :
    (s 0 :: changesUpTo s n).IsChain fun r r' => r'.same r = false := by
  induction n with
  | zero => exact .singleton _
  | succ n ih =>
    rw [changesUpTo_succ, ← List.cons_append, List.isChain_append]
    refine ⟨ih, by cases changeAt s n <;> simp, ?_⟩
    -- The last change need not be the last sample, but the new one differs from both alike.
    intro r hr r' hr'
    by_cases h : (s (n + 1)).same (s n) = true
    · rw [changeAt_of_same h] at hr'
      cases hr'
    · rw [changeAt_of_not_same h] at hr'
      obtain rfl : s (n + 1) = r' := by simpa using hr'
      obtain rfl : lastChange s n = r := by simpa [List.getLast?_cons, lastChange] using hr
      rw [lastChange_congr]
      exact Bool.eq_false_iff.mpr h

end Changes

/-! ### What the source gives over time -/

/-- A stretch of time in which the source gives one reading. Stretches of a millisecond give any
readings whatever over time. -/
structure Stretch where
  reading : PowerState
  time : Nat
  deriving Repr, DecidableEq

section History

variable (first : PowerState) (e : Nat)

def duration : List Stretch → Nat
  | [] => 0
  | x :: xs => x.time + duration xs

/-- The reading at a time: at a bound of two stretches the earlier one counts, and before all
stretches there is `first`. -/
def readingAt (first : PowerState) : List Stretch → Nat → PowerState
  | [], _ => first
  | x :: xs, t => if t ≤ x.time then x.reading else readingAt x.reading xs (t - x.time)

/-- How many of the times 0, e, 2e, … lie within the stretches. -/
def tickCount (xs : List Stretch) : Nat :=
  match xs with
  | [] => 0
  | _ :: _ => duration xs / e + 1

/-- The reading at the start, then that at 0, e, 2e, …. -/
def sampled (xs : List Stretch) : Nat → PowerState
  | 0 => first
  | k + 1 => readingAt first xs (k * e)

variable {first e} {xs : List Stretch} {x : Stretch} {k : Nat}

theorem duration_concat : duration (xs ++ [x]) = duration xs + x.time := by
  induction xs with
  | nil => exact Nat.add_comm x.time 0
  | cons y ys ih => rw [List.cons_append, duration, duration, ih, Nat.add_assoc]

theorem tickCount_concat : tickCount e (xs ++ [x]) = (duration xs + x.time) / e + 1 := by
  rw [← duration_concat]
  cases xs <;> rfl

/-- A tick within the stretches is no later than their end. -/
theorem lt_tickCount_iff (he : 0 < e) : k < tickCount e xs ↔ xs ≠ [] ∧ k * e ≤ duration xs := by
  cases xs with
  | nil => simp [tickCount]
  | cons x xs =>
    simp only [tickCount, Nat.lt_succ_iff, ne_eq, reduceCtorEq, not_false_eq_true, true_and]
    exact Nat.le_div_iff_mul_le he

/-- The last stretch gives the readings from the end of the others on. -/
theorem readingAt_concat (t : Nat) :
    readingAt first (xs ++ [x]) t =
      if xs ≠ [] ∧ t ≤ duration xs then readingAt first xs t else x.reading := by
  induction xs generalizing first t with
  | nil => simp [readingAt]
  | cons y ys ih =>
    rw [List.cons_append, readingAt, readingAt, ih, duration]
    by_cases ht : t ≤ y.time
    · have hle : t ≤ y.time + duration ys := ht.trans (Nat.le_add_right _ _)
      simp [ht, hle]
    · cases ys with
      | nil => simp [ht, duration]
      | cons z zs =>
        have hiff : t - y.time ≤ duration (z :: zs) ↔ t ≤ y.time + duration (z :: zs) := by omega
        simp [ht, hiff]

/-- The samples within the stretches stay as they are when another stretch follows. -/
theorem sampled_concat_of_le (he : 0 < e) (hk : k ≤ tickCount e xs) :
    sampled first e (xs ++ [x]) k = sampled first e xs k := by
  cases k with
  | zero => rfl
  | succ k => rw [sampled, readingAt_concat, if_pos ((lt_tickCount_iff he).mp hk), sampled]

/-- The samples after the stretches are of the stretch that follows. -/
theorem sampled_concat_of_ge (he : 0 < e) (hk : tickCount e xs ≤ k) :
    sampled first e (xs ++ [x]) (k + 1) = x.reading := by
  have hnot : ¬ (xs ≠ [] ∧ k * e ≤ duration xs) := fun h =>
    absurd ((lt_tickCount_iff he).mpr h) (Nat.not_lt.mpr hk)
  rw [sampled, readingAt_concat, if_neg hnot]

/-- The changes within the stretches stay as they are when another stretch follows. -/
theorem changesUpTo_concat (he : 0 < e) :
    changesUpTo (sampled first e (xs ++ [x])) (tickCount e xs) =
      changesUpTo (sampled first e xs) (tickCount e xs) := by
  refine List.filterMap_congr fun k hk => ?_
  have hlt : k < tickCount e xs := List.mem_range.mp hk
  rw [changeAt, changeAt, sampled_concat_of_le he hlt, sampled_concat_of_le he hlt.le]

end History

/-! ### The watcher -/

namespace Watcher

/-- What the watcher last reported equals the same readings as the sample at `k` does. -/
def Holds (w : Watcher) (s : Nat → PowerState) (k : Nat) : Prop :=
  ∀ q : PowerState, q.same w.last = q.same (s k)

section Samples

variable {w : Watcher} {s : Nat → PowerState} {k n : Nat} {r : PowerState}

/-- A sample reports what has changed since the one before. -/
theorem Holds.sample (h : w.Holds s k) (hr : s (k + 1) = r) :
    (w.sample r).2 = changeAt s k ∧ (w.sample r).1.Holds s (k + 1) := by
  unfold Watcher.sample
  rw [h r, ← hr]
  by_cases hsame : (s (k + 1)).same (s k) = true
  · rw [if_pos hsame, changeAt_of_same hsame]
    exact ⟨rfl, fun q => (h q).trans (PowerState.same_congr hsame q).symm⟩
  · rw [if_neg hsame, changeAt_of_not_same hsame]
    exact ⟨rfl, fun _ => rfl⟩

/-- Samples of one reading report the changes among them. -/
theorem Holds.samples (h : w.Holds s k) (hr : ∀ j, k ≤ j → s (j + 1) = r) :
    (samples r n w).2 = (List.range' k n).filterMap (changeAt s) ∧
      (samples r n w).1.Holds s (k + n) := by
  induction n generalizing w k with
  | zero => exact ⟨rfl, h⟩
  | succ n ih =>
    obtain ⟨hreport, hholds⟩ := h.sample (hr k le_rfl)
    obtain ⟨hreports, hend⟩ := ih hholds fun j hj => hr j (by omega)
    rw [Watcher.samples, List.range'_succ, List.filterMap_cons]
    refine ⟨?_, by rw [show k + (n + 1) = k + 1 + n by omega]; exact hend⟩
    show (w.sample r).2.toList ++ (Watcher.samples r n (w.sample r).1).2 = _
    rw [hreport, hreports]
    cases changeAt s k <;> rfl

/-- A sample changes nothing but the last report. -/
theorem sample_kept (w : Watcher) (r : PowerState) :
    (w.sample r).1.period = w.period ∧ (w.sample r).1.running = w.running := by
  unfold Watcher.sample
  split <;> exact ⟨rfl, rfl⟩

theorem samples_kept (w : Watcher) (r : PowerState) (n : Nat) :
    (Watcher.samples r n w).1.period = w.period ∧
      (Watcher.samples r n w).1.running = w.running := by
  induction n generalizing w with
  | zero => exact ⟨rfl, rfl⟩
  | succ n ih =>
    obtain ⟨hperiod, hrunning⟩ := ih (w.sample r).1
    obtain ⟨hperiod', hrunning'⟩ := w.sample_kept r
    exact ⟨hperiod.trans hperiod', hrunning.trans hrunning'⟩

end Samples

/-- The watcher after the stretches, and its reports. -/
def follow (w : Watcher) (xs : List Stretch) : Watcher × List PowerState :=
  xs.foldl (fun p x =>
    let (w, reports) := p.1.advance x.reading x.time
    (w, p.2 ++ reports)) (w, [])

theorem follow_concat (w : Watcher) (xs : List Stretch) (x : Stretch) :
    w.follow (xs ++ [x]) =
      (((w.follow xs).1.advance x.reading x.time).1,
        (w.follow xs).2 ++ ((w.follow xs).1.advance x.reading x.time).2) := by
  rw [follow, List.foldl_concat]
  rfl

/-- A cancelled watcher does nothing. -/
theorem follow_cancel (w : Watcher) (xs : List Stretch) : w.cancel.follow xs = (w.cancel, []) := by
  induction xs using List.reverseRecOn with
  | nil => rfl
  | append_singleton xs x ih =>
    rw [follow_concat, ih]
    rfl

/-- A watcher that started with `first` and has seen the stretches. -/
structure Follows (first : PowerState) (e : Nat) (xs : List Stretch) (w : Watcher) : Prop where
  period : w.period = e
  running : w.running = true
  /-- The next tick is the one after those in the stretches. -/
  untilNext : w.untilNext + duration xs = tickCount e xs * e
  holds : w.Holds (sampled first e xs) (tickCount e xs)

section Following

variable {first : PowerState} {e : Nat} {xs : List Stretch} {w : Watcher}

theorem follows_start : Follows first e [] (start e first) where
  period := rfl
  running := rfl
  untilNext := (Nat.zero_mul e).symm
  holds _ := rfl

/-- The samples due in a stretch are the ticks in it. -/
theorem Follows.due (he : 0 < e) (h : Follows first e xs w) (x : Stretch) :
    tickCount e xs + w.due x.time = tickCount e (xs ++ [x]) := by
  have hnext := h.untilNext
  rw [tickCount_concat, Watcher.due, h.period]
  split
  next hlt =>
    cases xs with
    | nil =>
      have hnow : w.untilNext = 0 := by simpa [duration, tickCount] using hnext
      omega
    | cons y ys =>
      have hcount : tickCount e (y :: ys) = duration (y :: ys) / e + 1 := rfl
      rw [hcount] at hnext ⊢
      have hlow : duration (y :: ys) / e * e ≤ duration (y :: ys) + x.time :=
        (Nat.div_mul_le_self _ _).trans (Nat.le_add_right _ _)
      have hhigh : duration (y :: ys) + x.time < (duration (y :: ys) / e + 1) * e := by omega
      rw [Nat.div_eq_of_lt_le hlow hhigh]
  next hge =>
    have hsum : duration xs + x.time = (x.time - w.untilNext) + tickCount e xs * e := by omega
    rw [hsum, Nat.add_mul_div_right _ _ he]
    omega

/-- **In a stretch the watcher reports the changes at the ticks in it.** -/
theorem Follows.advance (he : 0 < e) (h : Follows first e xs w) (x : Stretch) :
    Follows first e (xs ++ [x]) (w.advance x.reading x.time).1 ∧
      (w.advance x.reading x.time).2 =
        (List.range' (tickCount e xs) (tickCount e (xs ++ [x]) - tickCount e xs)).filterMap
          (changeAt (sampled first e (xs ++ [x]))) := by
  have hdue := h.due he x
  have hbefore : w.Holds (sampled first e (xs ++ [x])) (tickCount e xs) := by
    intro q
    rw [sampled_concat_of_le he le_rfl]
    exact h.holds q
  obtain ⟨hreports, hafter⟩ := hbefore.samples (n := w.due x.time) fun _ hj =>
    sampled_concat_of_ge he hj
  obtain ⟨hperiod, hrunning⟩ := w.samples_kept x.reading (w.due x.time)
  rw [Watcher.advance, if_pos h.running]
  refine ⟨⟨hperiod.trans h.period, hrunning.trans h.running, ?next, ?holds⟩, ?reports⟩
  case next =>
    have hnext := h.untilNext
    have hend : duration xs + x.time < tickCount e (xs ++ [x]) * e := by
      rw [tickCount_concat]
      exact Nat.lt_mul_of_div_lt (Nat.lt_succ_self _) he
    rw [← hdue, Nat.add_mul] at hend
    rw [duration_concat, h.period, ← hdue, Nat.add_mul]
    show w.untilNext + w.due x.time * e - x.time + _ = _
    omega
  case holds => rwa [hdue] at hafter
  case reports => rw [hreports, ← hdue, Nat.add_sub_cancel_left]

/-- After the stretches the watcher has seen them, and has reported their changes. -/
theorem follows_follow (he : 0 < e) (first : PowerState) (xs : List Stretch) :
    Follows first e xs ((start e first).follow xs).1 ∧
      ((start e first).follow xs).2 = changesUpTo (sampled first e xs) (tickCount e xs) := by
  induction xs using List.reverseRecOn with
  | nil => exact ⟨follows_start, rfl⟩
  | append_singleton xs x ih =>
    obtain ⟨hfollows, hreports⟩ := ih
    obtain ⟨hfollows', hreports'⟩ := hfollows.advance he x
    rw [follow_concat]
    refine ⟨hfollows', ?_⟩
    rw [hreports, hreports', ← hfollows.due he x, Nat.add_sub_cancel_left, changesUpTo_add,
      changesUpTo_concat he]

/-- **A watcher reports exactly the sampled changes.** Whatever the source gave over time, the
reports are the changes from one sample to the next, in order; those of a further stretch are the
changes at the ticks in it, and a cancelled watcher reports nothing more. A report differs from the
one before, and after every tick whose level is a number the last report, or the reading at the
start, equals the sample. -/
theorem reports_sampled_changes (first : PowerState) (e : Nat) (he : 0 < e) (xs : List Stretch) :
    let w := (start e first).follow xs
    w.2 = changesUpTo (sampled first e xs) (tickCount e xs) ∧
    (∀ x : Stretch, (w.1.advance x.reading x.time).2 =
      (List.range' (tickCount e xs) (tickCount e (xs ++ [x]) - tickCount e xs)).filterMap
        (changeAt (sampled first e (xs ++ [x])))) ∧
    (∀ ys : List Stretch, (w.1.cancel.follow ys).2 = []) ∧
    ((first :: w.2).IsChain fun r r' => r'.same r = false) ∧
    ∀ k ≤ tickCount e xs, (sampled first e xs k).battery.isNaN = false →
      (sampled first e xs k).same (lastChange (sampled first e xs) k) = true := by
  intro w
  obtain ⟨hfollows, hreports⟩ := follows_follow he first xs
  refine ⟨hreports, fun x => (hfollows.advance he x).2, fun ys => ?_, ?_, ?_⟩
  · rw [follow_cancel]
  · show (first :: w.2).IsChain _
    rw [hreports]
    exact isChain_changesUpTo (s := sampled first e xs) _
  · intro k _ hnumber
    rw [lastChange_congr, PowerState.same_self, hnumber]
    rfl

/-- Low power that comes and goes between two samples, low power that lasts, and a level that is no
number for two samples. -/
def flickering : List Stretch :=
  [⟨.nominal, 12000⟩, ⟨PowerState.nominal.withLowPower true, 2000⟩, ⟨.nominal, 3000⟩,
    ⟨PowerState.nominal.withLowPower true, 6000⟩, ⟨PowerState.nominal.withBattery .nan, 10000⟩]

theorem reports_sampled_changes_of_flickering :
    0 < 5000 ∧ tickCount 5000 flickering = 7 ∧
    ((start 5000 .nominal).follow flickering).2 =
      [PowerState.nominal.withLowPower true, PowerState.nominal.withBattery .nan,
        PowerState.nominal.withBattery .nan] ∧
    (((start 5000 .nominal).follow flickering).1.cancel.follow flickering).2 = [] ∧
    (sampled .nominal 5000 flickering 5).same
      (lastChange (sampled .nominal 5000 flickering) 5) = true := by
  obtain ⟨hreports, -, hcancelled, -, hlast⟩ :=
    reports_sampled_changes .nominal 5000 (by decide) flickering
  exact ⟨by decide, rfl, hreports.trans (by decide +kernel), hcancelled flickering,
    hlast 5 (by decide +kernel) (by decide +kernel)⟩

end Following

end Watcher
end LanInference
