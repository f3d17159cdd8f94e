/-
# What a store answers to a sequence of calls

A store is used through six calls: its four operations, recovering all texts, and opening it again.
What it answers to a sequence of calls is all that a user of it sees. Two machines answer alike if
they are in a relation that one call keeps (`answers_eq_of_step`). The machine that stores are
compared with is one finite map from ids to texts, which is still there after a reopening.

Recovering gives the texts of the listed ids, or the error of the first one that has no answer.

Key definitions: `StoreCall`, `StoreAnswer`, `answers`, `after`, `RecoveryStore.ask`,
`FiniteMap.ask`, `Replaces`.
Key theorems: `recover_of_readable`, `recover_eq_error_iff`, `Replaces.recover`,
`answers_eq_of_step`, `MemoryStore.answers_eq_map`.
-/
import LanInference.Proofs.Recovery.Reliable
import LanInference.Recovery.FileStore

namespace LanInference

/-! ### Recovering -/

section Recovering

variable {σ τ : Type} [RecoveryStore σ] [RecoveryStore τ]

/-- The store answers when it is asked for this id. -/
def Readable (s : σ) (id : String) : Prop := ∃ text, RecoveryStore.get s id = .ok text

theorem get_of_readable {s : σ} {id : String} (h : Readable s id) :
    RecoveryStore.get s id = .ok (storedText s id) := by
  obtain ⟨text, htext⟩ := h
  rw [storedText, htext]

/-- The ids on which two stores answer the same give the same texts. -/
theorem collectTexts_congr {s : σ} {t : τ} : ∀ {ids : List String} (found : OrderedMap String),
    (∀ id ∈ ids, RecoveryStore.get s id = RecoveryStore.get t id) →
      collectTexts s found ids = collectTexts t found ids
  | [], _, _ => rfl
  | id :: ids, found, h => by
    unfold collectTexts
    rw [h id List.mem_cons_self]
    have ih := fun found => collectTexts_congr (s := s) (t := t) found
      fun j (hj : j ∈ ids) => h j (List.mem_cons_of_mem _ hj)
    split
    · rfl
    · exact ih found
    · exact ih _

/-- If all ids are readable, each has its text in what is recovered. -/
theorem collectTexts_of_readable {s : σ} : ∀ {ids : List String} (found : OrderedMap String),
    (∀ id ∈ ids, Readable s id) →
      ∃ texts, collectTexts s found ids = .ok texts ∧ ∀ id, texts.get? id =
        if id ∈ ids then (storedText s id).or (found.get? id) else found.get? id
  | [], found, _ => ⟨found, rfl, fun _ => rfl⟩
  | id :: ids, found, h => by
    have hid := get_of_readable (h id List.mem_cons_self)
    have ih := fun found => collectTexts_of_readable (s := s) found
      fun j (hj : j ∈ ids) => h j (List.mem_cons_of_mem _ hj)
    unfold collectTexts
    rw [hid]
    cases htext : storedText s id with
    | none =>
      obtain ⟨texts, hok, hget⟩ := ih found
      refine ⟨texts, hok, fun j => ?_⟩
      rw [hget]
      by_cases hj : j = id
      · simp [hj, htext]
      · simp [hj]
    | some text =>
      obtain ⟨texts, hok, hget⟩ := ih (found.insert id text)
      refine ⟨texts, hok, fun j => ?_⟩
      rw [hget, OrderedMap.get?_insert]
      by_cases hj : j = id
      · simp [hj, htext]
      · simp [hj]

/-- From ascending ids the error is that of the least one that is not readable. -/
theorem collectTexts_eq_error_iff {s : σ} {e : RecoveryError} :
    ∀ {ids : List String} (found : OrderedMap String), ids.Pairwise (· < ·) →
      (collectTexts s found ids = .error e ↔
        ∃ id ∈ ids, RecoveryStore.get s id = .error e ∧ ∀ j ∈ ids, j < id → Readable s j)
  | [], _, _ => by simp [collectTexts]
  | id :: ids, found, h => by
    obtain ⟨hleast, hids⟩ := List.pairwise_cons.mp h
    have ih := fun found => collectTexts_eq_error_iff (s := s) (e := e) found hids
    -- If the first id is readable, it is not the one that fails.
    have hrest : Readable s id →
        ((∃ i ∈ ids, RecoveryStore.get s i = .error e ∧ ∀ j ∈ ids, j < i → Readable s j) ↔
          ∃ i ∈ id :: ids, RecoveryStore.get s i = .error e ∧
            ∀ j ∈ id :: ids, j < i → Readable s j) := by
      intro hreadable
      constructor
      · rintro ⟨i, hi, herr, hbelow⟩
        refine ⟨i, List.mem_cons_of_mem _ hi, herr, fun j hj hlt => ?_⟩
        rcases List.mem_cons.mp hj with rfl | hj
        · exact hreadable
        · exact hbelow j hj hlt
      · rintro ⟨i, hi, herr, hbelow⟩
        rcases List.mem_cons.mp hi with rfl | hi
        · obtain ⟨text, htext⟩ := hreadable
          rw [htext] at herr
          cases herr
        · exact ⟨i, hi, herr, fun j hj hlt => hbelow j (List.mem_cons_of_mem _ hj) hlt⟩
    unfold collectTexts
    cases hget : RecoveryStore.get s id with
    | error e' =>
      dsimp only
      constructor
      · intro heq
        cases heq
        refine ⟨id, List.mem_cons_self, hget, fun j hj hlt => ?_⟩
        rcases List.mem_cons.mp hj with rfl | hj
        · exact absurd hlt (String.lt_irrefl _)
        · exact absurd hlt (String.lt_asymm (hleast j hj))
      · rintro ⟨i, hi, herr, hbelow⟩
        rcases List.mem_cons.mp hi with rfl | hi
        · rw [hget] at herr
          cases herr
          rfl
        · obtain ⟨text, htext⟩ := hbelow id List.mem_cons_self (hleast i hi)
          rw [hget] at htext
          cases htext
    | ok text =>
      rw [← hrest ⟨text, hget⟩]
      cases text with
      | none => exact ih found
      | some text => exact ih (found.insert id text)

theorem readable_of_collectTexts {s : σ} {texts : OrderedMap String} :
    ∀ {ids : List String} {found : OrderedMap String}, collectTexts s found ids = .ok texts →
      ∀ id ∈ ids, Readable s id
  | [], _, _, _, hid => absurd hid List.not_mem_nil
  | id :: ids, found, h, j, hj => by
    unfold collectTexts at h
    cases hget : RecoveryStore.get s id with
    | error e =>
      rw [hget] at h
      cases h
    | ok text =>
      rcases List.mem_cons.mp hj with rfl | hj
      · exact ⟨text, hget⟩
      · rw [hget] at h
        cases text with
        | none => exact readable_of_collectTexts h j hj
        | some text => exact readable_of_collectTexts h j hj

theorem recover_congr {s : σ} {t : τ} (hlist : RecoveryStore.list s = RecoveryStore.list t)
    (hget : ∀ id, RecoveryStore.get s id = RecoveryStore.get t id) :
    recoverPartialResponses s = recoverPartialResponses t := by
  unfold recoverPartialResponses
  rw [hlist]
  split
  · rfl
  · exact collectTexts_congr .empty fun id _ => hget id

variable {s : σ} {ids : List String}

/-- **If all listed ids are readable, the texts recovered are theirs.** -/
theorem recover_of_readable (hlist : RecoveryStore.list s = .ok ids)
    (h : ∀ id ∈ ids, Readable s id) :
    ∃ texts, recoverPartialResponses s = .ok texts ∧
      ∀ id, texts.get? id = if id ∈ ids then storedText s id else none := by
  obtain ⟨texts, hok, hget⟩ := collectTexts_of_readable .empty h
  refine ⟨texts, by rw [recoverPartialResponses, hlist]; exact hok, fun id => ?_⟩
  rw [hget, OrderedMap.get?_empty, Option.or_none]

/-- What is recovered, if it is recovered. -/
theorem readable_of_recover (hlist : RecoveryStore.list s = .ok ids) {texts : OrderedMap String}
    (h : recoverPartialResponses s = .ok texts) :
    (∀ id ∈ ids, Readable s id) ∧
      ∀ id, texts.get? id = if id ∈ ids then storedText s id else none := by
  have hcollect : collectTexts s .empty ids = .ok texts := by
    rw [recoverPartialResponses, hlist] at h
    exact h
  have hall := readable_of_collectTexts hcollect
  obtain ⟨texts', hok, hget⟩ := recover_of_readable hlist hall
  have hsame : texts' = texts := Except.ok.inj (hok.symm.trans h)
  exact ⟨hall, hsame ▸ hget⟩

/-- **Recovering fails with the error of the least listed id that is not readable.** -/
theorem recover_eq_error_iff (hlist : RecoveryStore.list s = .ok ids) (hasc : ids.Pairwise (· < ·))
    {e : RecoveryError} :
    recoverPartialResponses s = .error e ↔
      ∃ id ∈ ids, RecoveryStore.get s id = .error e ∧ ∀ j ∈ ids, j < id → Readable s j := by
  rw [recoverPartialResponses, hlist]
  exact collectTexts_eq_error_iff .empty hasc

/-- The store answers as another, but for a text under this id. -/
structure Replaces (s s' : σ) (id text : String) : Prop where
  get_id : RecoveryStore.get s' id = .ok (some text)
  get_other : ∀ other, other ≠ id → RecoveryStore.get s' other = RecoveryStore.get s other
  list : ∃ ids ids', RecoveryStore.list s = .ok ids ∧ RecoveryStore.list s' = .ok ids' ∧
    ids.Pairwise (· < ·) ∧ ids'.Pairwise (· < ·) ∧ ∀ other, other ∈ ids' ↔ other = id ∨ other ∈ ids

namespace Replaces

variable {s' : σ} {id text : String} {texts : OrderedMap String}

theorem storedText_eq (h : Replaces s s' id text) (other : String) :
    storedText s' other = if other = id then some text else storedText s other := by
  unfold storedText
  by_cases hother : other = id
  · rw [if_pos hother, hother, h.get_id]
  · rw [if_neg hother, h.get_other other hother]

theorem readable (h : Replaces s s' id text) {other : String}
    (hbefore : other ≠ id → Readable s other) : Readable s' other := by
  by_cases hother : other = id
  · exact ⟨some text, hother ▸ h.get_id⟩
  · obtain ⟨t, ht⟩ := hbefore hother
    exact ⟨t, (h.get_other other hother).trans ht⟩

/-- If the texts could be recovered before, they can be now, with the new one. -/
theorem recover (h : Replaces s s' id text) (hok : recoverPartialResponses s = .ok texts) :
    recoverPartialResponses s' = .ok (texts.insert id text) := by
  obtain ⟨ids, ids', hids, hids', -, -, hlisted⟩ := h.list
  obtain ⟨hall, hwas⟩ := readable_of_recover hids hok
  obtain ⟨texts', hok', his⟩ := recover_of_readable hids' fun other hother =>
    h.readable fun hne => hall other (((hlisted other).mp hother).resolve_left hne)
  rw [hok']
  refine congrArg Except.ok (OrderedMap.ext_get? fun other => ?_)
  simp only [his, OrderedMap.get?_insert, hwas, h.storedText_eq, hlisted]
  by_cases hother : other = id <;> simp [hother]

/-- The only error that can go away is that of the id itself. -/
theorem recover_error (h : Replaces s s' id text) {e : RecoveryError}
    (herr : recoverPartialResponses s = .error e) :
    RecoveryStore.get s id = .error e ∨ recoverPartialResponses s' = .error e := by
  obtain ⟨ids, ids', hids, hids', hasc, hasc', hlisted⟩ := h.list
  obtain ⟨bad, hbad, hget, hbelow⟩ := (recover_eq_error_iff hids hasc).mp herr
  by_cases hsame : bad = id
  · exact .inl (hsame ▸ hget)
  · refine .inr ((recover_eq_error_iff hids' hasc').mpr ⟨bad, (hlisted bad).mpr (.inr hbad),
      (h.get_other bad hsame).trans hget, fun other hother hlt => h.readable fun hne => ?_⟩)
    exact hbelow other (((hlisted other).mp hother).resolve_left hne) hlt

/-- What is recovered under the listed ids. -/
theorem recovered (h : Replaces s s' id text) (hok : recoverPartialResponses s' = .ok texts)
    (hids : RecoveryStore.list s = .ok ids) (other : String) : texts.get? other =
      if other = id then some text else if other ∈ ids then storedText s other else none := by
  obtain ⟨ids₀, ids', hids₀, hids', -, -, hlisted⟩ := h.list
  obtain rfl : ids = ids₀ := Except.ok.inj (hids.symm.trans hids₀)
  obtain ⟨-, his⟩ := readable_of_recover hids' hok
  simp only [his, h.storedText_eq, hlisted]
  by_cases hother : other = id <;> simp [hother]

end Replaces

end Recovering

/-! ### Calls and answers -/

/-- A call of a recovery store. -/
inductive StoreCall where
  | put (id text : String)
  | get (id : String)
  | remove (id : String)
  | list
  | recover
  /-- The store is opened again. -/
  | reopen
  deriving Repr, DecidableEq

namespace StoreCall

/-- The id that a call is about. -/
def id? : StoreCall → Option String
  | put id _ | get id | remove id => some id
  | list | recover | reopen => none

end StoreCall

/-- What a call answers. -/
inductive StoreAnswer where
  | done (result : Except RecoveryError Unit)
  | text (result : Except RecoveryError (Option String))
  | ids (result : Except RecoveryError (List String))
  | texts (result : Except RecoveryError (OrderedMap String))

section Machines

variable {τ υ : Type}

/-- The answers of a machine to calls in order. -/
def answers (ask : τ → StoreCall → τ × StoreAnswer) (t : τ) : List StoreCall → List StoreAnswer
  | [] => []
  | c :: cs => (ask t c).2 :: answers ask (ask t c).1 cs

/-- The machine after calls in order. -/
def after (ask : τ → StoreCall → τ × StoreAnswer) (t : τ) : List StoreCall → τ
  | [] => t
  | c :: cs => after ask (ask t c).1 cs

variable {askT : τ → StoreCall → τ × StoreAnswer} {askU : υ → StoreCall → υ × StoreAnswer}
  {R : τ → υ → Prop} {A : StoreCall → Prop}

/-- **Machines in a relation `R` that each call in `A` keeps, with the same answer, answer alike to
all sequences of such calls.** -/
theorem answers_eq_of_step
    (step : ∀ {t u} (c : StoreCall), R t u → A c →
      (askT t c).2 = (askU u c).2 ∧ R (askT t c).1 (askU u c).1) :
    ∀ {calls : List StoreCall} {t : τ} {u : υ}, (∀ c ∈ calls, A c) → R t u →
      answers askT t calls = answers askU u calls ∧ R (after askT t calls) (after askU u calls)
  | [], _, _, _, h => ⟨rfl, h⟩
  | c :: cs, t, u, hall, h => by
    obtain ⟨hsame, hnext⟩ := step c h (hall c List.mem_cons_self)
    obtain ⟨hrest, hlast⟩ :=
      answers_eq_of_step step (fun x hx => hall x (List.mem_cons_of_mem _ hx)) hnext
    exact ⟨by rw [answers, answers, hsame, hrest], hlast⟩

end Machines

/-- A call of a store, where `reopen` says what is left of it when it is opened again. -/
def RecoveryStore.ask {σ : Type} [RecoveryStore σ] (reopen : σ → σ) (s : σ) :
    StoreCall → σ × StoreAnswer
  | .put id text => let (s, r) := RecoveryStore.put s id text; (s, .done r)
  | .get id => (s, .text (RecoveryStore.get s id))
  | .remove id => let (s, r) := RecoveryStore.remove s id; (s, .done r)
  | .list => (s, .ids (RecoveryStore.list s))
  | .recover => (s, .texts (recoverPartialResponses s))
  | .reopen => (reopen s, .done (.ok ()))

/-- A store of files is opened again in the directory as it is. -/
def FileStore.ask : FileStore → StoreCall → FileStore × StoreAnswer :=
  RecoveryStore.ask fun s => openIn s.directory

/-- A store in memory is lost when it is opened again. -/
def MemoryStore.ask : MemoryStore → StoreCall → MemoryStore × StoreAnswer :=
  RecoveryStore.ask fun _ => {}

/-- A call of one finite map from valid ids to texts. -/
def FiniteMap.ask (m : OrderedMap String) : StoreCall → OrderedMap String × StoreAnswer
  | .put id text =>
    if FileStore.isValidId id then (m.insert id text, .done (.ok ()))
    else (m, .done (.error (.invalidId id)))
  | .get id =>
    (m, .text (if FileStore.isValidId id then .ok (m.get? id) else .error (.invalidId id)))
  | .remove id =>
    if FileStore.isValidId id then (m.erase id, .done (.ok ()))
    else (m, .done (.error (.invalidId id)))
  | .list => (m, .ids (.ok m.keys))
  | .recover => (m, .texts (.ok m))
  | .reopen => (m, .done (.ok ()))

/-! ### The store in memory -/

namespace MemoryStore

/-- All the texts of a store in memory are recovered. -/
theorem recover_eq (s : MemoryStore) : recoverPartialResponses s = .ok s.texts := by
  have hlist : RecoveryStore.list s = .ok s.texts.keys := rfl
  obtain ⟨texts, hok, hget⟩ := recover_of_readable hlist fun id _ => ⟨s.texts.get? id, rfl⟩
  rw [hok, OrderedMap.eq_of_get?_of_keys hget]

/-- Under valid ids a store in memory is the finite map of its texts, until it is opened again. -/
theorem answers_eq_map (s : MemoryStore) {calls : List StoreCall}
    (h : ∀ c ∈ calls, c ≠ .reopen ∧ ∀ id ∈ c.id?, FileStore.isValidId id = true) :
    answers ask s calls = answers FiniteMap.ask s.texts calls := by
  refine (answers_eq_of_step (R := fun t m => t.texts = m)
    (A := fun c => c ≠ .reopen ∧ ∀ id ∈ c.id?, FileStore.isValidId id = true)
    (fun {t m} c hR hc => ?_) h rfl).1
  subst hR
  obtain ⟨hstays, hid⟩ := hc
  cases c with
  | put id text => simp [ask, RecoveryStore.ask, FiniteMap.ask, hid id rfl, RecoveryStore.put]
  | get id => simp [ask, RecoveryStore.ask, FiniteMap.ask, hid id rfl, RecoveryStore.get]
  | remove id => simp [ask, RecoveryStore.ask, FiniteMap.ask, hid id rfl, RecoveryStore.remove]
  | list => exact ⟨rfl, rfl⟩
  | recover => exact ⟨congrArg StoreAnswer.texts (recover_eq t), rfl⟩
  | reopen => exact absurd rfl hstays

end MemoryStore
end LanInference
