/-
# A store of files is one finite map

In a directory that only a store has written, each data name is bound to the text that one finite
map gives its id (`FileStore.Holds`). A call keeps this and is answered from the map, so a store
that starts in an empty directory answers every sequence of calls as the map does, and opening it
again changes nothing.

Key definitions: `FileStore.Holds`.
Key theorems: `FileStore.isValidId_iff`, `FileStore.Holds.ask`, `FileStore.answers_eq_finiteMap`.
-/
import LanInference.Proofs.Recovery.Writes
import LanInference.Proofs.Text.Order

namespace LanInference

open Directory

/-! ### Ids -/

namespace FileStore

theorem isValidId_iff {id : String} : isValidId id = true ↔
    1 ≤ id.toList.length ∧ id.toList.length ≤ 128 ∧
      ∀ c ∈ id.toList, c.isAlphanum = true ∨ c = '-' ∨ c = '_' := by
  simp only [isValidId, isIdChar, Bool.and_eq_true, decide_eq_true_eq, List.all_eq_true,
    Bool.or_eq_true, beq_iff_eq, or_assoc, and_assoc, Nat.one_le_iff_ne_zero, ne_eq,
    List.length_eq_zero_iff]

/-! ### What a directory holds -/

/-- The directory holds the texts of a map under valid ids, and nothing is in the way in it. -/
structure Holds (s : FileStore) (m : OrderedMap String) : Prop where
  there : s.directory ≠ missing
  valid : ∀ {id}, m.contains id = true → isValidId id = true
  data : ∀ id, s.directory.find? (dataName id) =
    (m.get? id).map fun text => .file (Utf8.encode text.toList)
  temp : ∀ id, s.directory.refusal? (tempName id) = none

theorem holds_openIn {d : Directory} (h : d = missing ∨ d = .empty) :
    (openIn d).Holds .empty := by
  have hopen : openIn d = ⟨.empty⟩ := by
    rcases h with rfl | rfl <;> rfl
  rw [hopen]
  exact ⟨by decide, fun h => by simp at h, fun _ => rfl, fun _ => rfl⟩

namespace Holds

variable {s t : FileStore} {m : OrderedMap String}

theorem of_alike (h : s.Holds m) (hst : t.directory.Alike s.directory) : t.Holds m where
  there hm := h.there (hst.there.mp hm)
  valid := h.valid
  data id := (hst.data id).trans (h.data id)
  temp id := (hst.temp id).mpr (h.temp id)

theorem writable (h : s.Holds m) (id : String) : s.directory.Writable id where
  there := h.there
  temp := h.temp id
  data := by
    rw [refusal?, h.data]
    cases m.get? id <;> rfl

theorem bind_data (h : s.Holds m) {id : String} (hid : isValidId id = true) (text : String) :
    (⟨s.directory.bindEntry (dataName id) (.file (Utf8.encode text.toList))⟩ : FileStore).Holds
      (m.insert id text) where
  there := bindEntry_ne_missing h.there _ _
  valid {other} hother := by
    rw [OrderedMap.contains_insert, Bool.or_eq_true, decide_eq_true_eq] at hother
    rcases hother with rfl | hother
    · exact hid
    · exact h.valid hother
  data other := by
    rw [find?_bindEntry h.there, OrderedMap.get?_insert, h.data other]
    by_cases hother : other = id <;> simp [hother, dataName_inj]
  temp other := by
    rw [refusal?_bindEntry h.there, if_neg (dataName_ne_tempName id other).symm]
    exact h.temp other

theorem unbind_data (h : s.Holds m) (id : String) :
    (⟨s.directory.unbind (dataName id)⟩ : FileStore).Holds (m.erase id) where
  there := unbind_ne_missing h.there _
  valid {other} hother := by
    rw [OrderedMap.contains_erase, Bool.and_eq_true] at hother
    exact h.valid hother.2
  data other := by
    rw [find?_unbind, OrderedMap.get?_erase, h.data other]
    by_cases hother : other = id <;> simp [hother, dataName_inj]
  temp other := by
    rw [refusal?_unbind, if_neg (dataName_ne_tempName id other).symm]
    exact h.temp other

theorem get (h : s.Holds m) {id : String} (hid : isValidId id = true) :
    s.get id = .ok (m.get? id) := by
  have hdata := h.data id
  cases htext : m.get? id with
  | none =>
    rw [htext] at hdata
    exact get_of_none hid hdata
  | some text =>
    rw [htext] at hdata
    exact get_of_file hid hdata

theorem put (h : s.Holds m) {id : String} (hid : isValidId id = true) (text : String) :
    (s.put id text).2 = .ok () ∧ (s.put id text).1.Holds (m.insert id text) := by
  obtain ⟨d', hput, halike⟩ := put_of_writable hid (h.writable id) text
  have hput' : s.put id text = (⟨d'⟩, .ok ()) := hput
  rw [hput']
  exact ⟨rfl, (h.bind_data hid text).of_alike halike⟩

theorem remove (h : s.Holds m) {id : String} (hid : isValidId id = true) :
    (s.remove id).2 = .ok () ∧ (s.remove id).1.Holds (m.erase id) := by
  have hdata := h.data id
  cases htext : m.get? id with
  | none =>
    have hsame : m.erase id = m := OrderedMap.ext_get? fun other => by
      rw [OrderedMap.get?_erase]
      by_cases hother : other = id
      · rw [if_pos hother, hother, htext]
      · rw [if_neg hother]
    rw [htext] at hdata
    rw [remove_of_none hid hdata, hsame]
    exact ⟨rfl, h⟩
  | some text =>
    rw [htext] at hdata
    rw [remove_of_free hid (by simp [hdata]) (refusal?_of_file hdata)]
    exact ⟨rfl, h.unbind_data id⟩

theorem list (h : s.Holds m) : s.list = .ok m.keys := by
  obtain ⟨ids, hids, hasc, hmem⟩ := list_of_there h.there
  have hkeys : ids = m.keys := eq_of_ascending hasc m.keys_ascending fun id => by
    rw [hmem, Shown, h.data, Option.isSome_map, OrderedMap.mem_keys_iff]
    exact ⟨fun hshown => hshown.2, fun hin => ⟨head?_dataName_of_valid (h.valid hin), hin⟩⟩
  rw [hids, hkeys]

theorem recover (h : s.Holds m) : recoverPartialResponses s = .ok m := by
  have hget : ∀ id ∈ m.keys, RecoveryStore.get s id = .ok (m.get? id) := fun id hid =>
    h.get (h.valid (OrderedMap.mem_keys_iff.mp hid))
  obtain ⟨texts, hok, htexts⟩ := recover_of_readable (s := s) h.list fun id hid => ⟨_, hget id hid⟩
  have hall : texts = m := OrderedMap.eq_of_get?_of_keys fun id => by
    rw [htexts]
    by_cases hid : id ∈ m.keys
    · rw [if_pos hid, if_pos hid, storedText, hget id hid]
    · rw [if_neg hid, if_neg hid]
  rw [hok, hall]

/-- **A call is answered from the map, and leaves in the directory what it leaves in the map.** -/
theorem ask (h : s.Holds m) (c : StoreCall) :
    (FileStore.ask s c).2 = (FiniteMap.ask m c).2 ∧
      (FileStore.ask s c).1.Holds (FiniteMap.ask m c).1 := by
  cases c with
  | put id text =>
    by_cases hid : isValidId id = true
    · obtain ⟨hok, hholds⟩ := h.put hid text
      rw [FiniteMap.ask, if_pos hid]
      exact ⟨congrArg StoreAnswer.done hok, hholds⟩
    · rw [FiniteMap.ask, if_neg hid]
      have hrefused : RecoveryStore.put s id text = (s, .error (.invalidId id)) :=
        put_of_invalid hid s text
      rw [FileStore.ask, RecoveryStore.ask, hrefused]
      exact ⟨rfl, h⟩
  | get id =>
    refine ⟨congrArg StoreAnswer.text ?_, h⟩
    by_cases hid : isValidId id = true
    · rw [if_pos hid]
      exact h.get hid
    · rw [if_neg hid]
      exact get_of_invalid hid s
  | remove id =>
    by_cases hid : isValidId id = true
    · obtain ⟨hok, hholds⟩ := h.remove hid
      rw [FiniteMap.ask, if_pos hid]
      exact ⟨congrArg StoreAnswer.done hok, hholds⟩
    · rw [FiniteMap.ask, if_neg hid]
      have hrefused : RecoveryStore.remove s id = (s, .error (.invalidId id)) :=
        remove_of_invalid hid s
      rw [FileStore.ask, RecoveryStore.ask, hrefused]
      exact ⟨rfl, h⟩
  | list => exact ⟨congrArg StoreAnswer.ids h.list, h⟩
  | recover => exact ⟨congrArg StoreAnswer.texts h.recover, h⟩
  | reopen =>
    have hopen : (FileStore.ask s .reopen).1 = s := openIn_of_there h.there
    refine ⟨rfl, ?_⟩
    rw [hopen]
    exact h

end Holds

/-- The ids that a store lists are in the order of their bytes. -/
theorem Holds.answers_sorted {s : FileStore} {m : OrderedMap String} (h : s.Holds m)
    {calls : List StoreCall} {ids : List String}
    (hids : StoreAnswer.ids (.ok ids) ∈ answers FileStore.ask s calls) :
    ids.Pairwise fun i j => Utf8.encode i.toList < Utf8.encode j.toList := by
  induction calls generalizing s m with
  | nil => cases hids
  | cons c cs ih =>
    rcases List.mem_cons.mp hids with heq | hrest
    · cases c with
      | list =>
        have hkeys : ids = m.keys := by
          have hsame := heq.trans (congrArg StoreAnswer.ids h.list)
          simpa using hsame
        have hasc : ids.Pairwise (· < ·) := hkeys ▸ m.keys_ascending
        exact hasc.imp fun hlt => Utf8.encode_lt_encode hlt
      | put | get | remove | recover | reopen => cases heq
    · exact ih (h.ask c).2 hrest

/-- **A store that starts in a missing or empty directory answers as one finite map from valid ids
to texts that survives reopening.** It lists the ids in the order of their bytes; any other id is
refused and leaves the directory as it is; and the store in memory answers as the same map until it
is opened again. -/
theorem answers_eq_finiteMap {d : Directory} (hd : d = missing ∨ d = .empty) :
    (∀ calls, answers ask (openIn d) calls = answers FiniteMap.ask .empty calls) ∧
    (∀ calls ids, .ids (.ok ids) ∈ answers ask (openIn d) calls →
      ids.Pairwise fun i j => Utf8.encode i.toList < Utf8.encode j.toList) ∧
    (∀ id, ¬ (1 ≤ id.toList.length ∧ id.toList.length ≤ 128 ∧
        ∀ c ∈ id.toList, c.isAlphanum = true ∨ c = '-' ∨ c = '_') →
      ∀ s : FileStore, (∀ text, s.put id text = (s, .error (.invalidId id))) ∧
        s.get id = .error (.invalidId id) ∧ s.remove id = (s, .error (.invalidId id))) ∧
    (∀ (s : MemoryStore) (calls : List StoreCall),
      (∀ c ∈ calls, c ≠ .reopen ∧ ∀ id ∈ c.id?, isValidId id = true) →
        answers MemoryStore.ask s calls = answers FiniteMap.ask s.texts calls) := by
  refine ⟨fun calls => ?_, fun calls ids => (holds_openIn hd).answers_sorted, fun id hid s => ?_,
    fun s calls => s.answers_eq_map⟩
  · exact (answers_eq_of_step (R := fun (s : FileStore) m => s.Holds m) (A := fun _ => True)
      (fun c hR _ => hR.ask c) (fun _ _ => trivial) (holds_openIn hd)).1
  · rw [← isValidId_iff] at hid
    exact ⟨put_of_invalid hid s, get_of_invalid hid s, remove_of_invalid hid s⟩

/-- A text written into a directory that was missing is recovered after a reopening. -/
theorem answers_of_missing_directory : (missing = missing ∨ missing = Directory.empty) ∧
    answers ask (openIn missing) [.put "a-1" "hi", .put "a.1" "no", .reopen, .list, .recover] =
      [.done (.ok ()), .done (.error (.invalidId "a.1")), .done (.ok ()), .ids (.ok ["a-1"]),
        .texts (.ok (OrderedMap.empty.insert "a-1" "hi"))] :=
  ⟨.inl rfl, (answers_eq_finiteMap (.inl rfl)).1 _⟩

end FileStore
end LanInference
