/-
# The files of a recovery store

Different ids have different data files, and no data file has the name of a temporary file. So all
that a store shows is what its data names belong to: the text of an id is in its own data file, and
the ids listed are those whose data names belong to something. Temporary files matter only to
writes, and to those only if one of them cannot be replaced (`Directory.Alike`).

Key definitions: `FileStore.Shown`, `Directory.Alike`.
Key theorems: `FileStore.idOfName?_eq_some_iff`, `FileStore.dataName_ne_tempName`,
`FileStore.directory_openIn`, `FileStore.list_of_there`, `Directory.Alike.list_eq`,
`Directory.Alike.bind_temp`.
-/
import Mathlib.Data.List.Nodup
import LanInference.Proofs.Text.Utf8
import LanInference.Recovery.FileStore

namespace LanInference

/-- Ascending lists with the same members are equal. -/
theorem eq_of_ascending {xs ys : List String} (hx : xs.Pairwise (· < ·)) (hy : ys.Pairwise (· < ·))
    (h : ∀ x, x ∈ xs ↔ x ∈ ys) : xs = ys := by
  have hperm : xs.Perm ys :=
    (List.perm_ext_iff_of_nodup (nodup_of_ascending hx) (nodup_of_ascending hy)).mpr h
  exact hperm.eq_of_pairwise (fun _ _ _ _ hab hba => absurd hba (String.lt_asymm hab)) hx hy

namespace FileStore

/-! ### Names -/

theorem toList_dataName (id : String) : (dataName id).toList = id.toList ++ ending.toList :=
  String.toList_append

theorem toList_tempName (id : String) :
    (tempName id).toList = '.' :: (id.toList ++ ".tmp".toList) := by
  rw [tempName, String.toList_append, String.toList_append]
  rfl

theorem dataName_inj {i j : String} : dataName i = dataName j ↔ i = j := by
  rw [← String.toList_inj, toList_dataName, toList_dataName, List.append_left_inj,
    String.toList_inj]

/-- No data file has the name of a temporary file: their last letters differ. -/
theorem dataName_ne_tempName (i j : String) : dataName i ≠ tempName j := by
  intro h
  have hlast := congrArg (fun s : String => s.toList.getLast?) h
  simp only [toList_dataName, toList_tempName] at hlast
  rw [← List.cons_append, List.getLast?_append_of_ne_nil _ (by decide),
    List.getLast?_append_of_ne_nil _ (by decide)] at hlast
  revert hlast
  decide

/-- The names that give an id are data names that do not start with a dot. -/
theorem idOfName?_eq_some_iff {name id : String} :
    idOfName? name = some id ↔ name = dataName id ∧ name.toList.head? ≠ some '.' := by
  unfold idOfName?
  dsimp only
  constructor
  · intro h
    split at h
    · rename_i hc
      obtain ⟨hhead, _, hdrop⟩ := hc
      cases h
      refine ⟨String.toList_inj.mp ?_, hhead⟩
      rw [toList_dataName, String.toList_ofList]
      exact (List.take_append_drop _ _).symm.trans (congrArg _ hdrop)
    · cases h
  · rintro ⟨rfl, hhead⟩
    have hkept : (dataName id).toList.length - ending.toList.length = id.toList.length := by
      rw [toList_dataName, List.length_append, Nat.add_sub_cancel]
    rw [hkept, if_pos]
    · rw [toList_dataName, List.take_left, String.ofList_toList]
    · refine ⟨hhead, ?_, ?_⟩
      · rw [toList_dataName, List.length_append]
        exact Nat.le_add_left _ _
      · rw [toList_dataName, List.drop_left]

/-- The data name of a valid id does not start with a dot. -/
theorem head?_dataName_of_valid {id : String} (h : isValidId id = true) :
    (dataName id).toList.head? ≠ some '.' := by
  simp only [isValidId, Bool.and_eq_true, decide_eq_true_eq] at h
  obtain ⟨⟨hne, _⟩, hchars⟩ := h
  rw [toList_dataName, List.head?_append_of_ne_nil _ hne]
  intro hhead
  have hdot := List.all_eq_true.mp hchars '.' (List.mem_of_head? hhead)
  revert hdot
  decide

/-! ### Ids that are refused -/

theorem put_of_invalid {id : String} (h : isValidId id ≠ true) (s : FileStore) (text : String) :
    s.put id text = (s, .error (.invalidId id)) := if_neg h

theorem get_of_invalid {id : String} (h : isValidId id ≠ true) (s : FileStore) :
    s.get id = .error (.invalidId id) := if_neg h

theorem remove_of_invalid {id : String} (h : isValidId id ≠ true) (s : FileStore) :
    s.remove id = (s, .error (.invalidId id)) := if_neg h

/-! ### Opening -/

/-- A directory that is there is opened as it is. -/
theorem openIn_of_there {d : Directory} (h : d ≠ .missing) : openIn d = ⟨d⟩ := by
  obtain ⟨es, hes⟩ := Directory.ne_missing_iff.mp h
  rw [openIn, hes]
  rfl

/-- **Opening leaves a directory as it is.** Only one that is missing is made, and that is empty. -/
theorem directory_openIn (d : Directory) :
    (openIn d).directory = if d = .missing then .empty else d := by
  by_cases h : d = .missing
  · rw [if_pos h, h]
    rfl
  · rw [if_neg h, openIn_of_there h]

theorem openIn_ne_missing (d : Directory) : (openIn d).directory ≠ .missing := by
  rw [directory_openIn]
  split
  · decide
  · assumption

/-! ### What is read and removed -/

theorem get_congr {s t : FileStore} {id : String}
    (h : s.directory.find? (dataName id) = t.directory.find? (dataName id)) :
    s.get id = t.get id := by
  unfold FileStore.get Directory.read
  rw [h]

theorem get_of_read {s : FileStore} {id text : String} (hid : isValidId id = true)
    (h : s.directory.read (dataName id) = .ok (Utf8.encode text.toList)) :
    s.get id = .ok (some text) := by
  rw [FileStore.get, if_pos hid, h]
  dsimp only
  rw [Utf8.decode?_encode]
  exact congrArg (fun t => Except.ok (some t)) String.ofList_toList

theorem get_of_file {s : FileStore} {id text : String} (hid : isValidId id = true)
    (h : s.directory.find? (dataName id) = some (.file (Utf8.encode text.toList))) :
    s.get id = .ok (some text) :=
  get_of_read hid (by rw [Directory.read, h])

theorem get_of_none {s : FileStore} {id : String} (hid : isValidId id = true)
    (h : s.directory.find? (dataName id) = none) : s.get id = .ok none := by
  rw [FileStore.get, if_pos hid, Directory.read, h]

theorem remove_of_none {s : FileStore} {id : String} (hid : isValidId id = true)
    (h : s.directory.find? (dataName id) = none) : s.remove id = (s, .ok ()) := by
  rw [FileStore.remove, if_pos hid, Directory.unlink, if_pos h]

/-- What can be replaced can be removed. -/
theorem remove_of_free {s : FileStore} {id : String} (hid : isValidId id = true)
    (h : s.directory.find? (dataName id) ≠ none)
    (hfree : s.directory.refusal? (dataName id) = none) :
    s.remove id = (⟨s.directory.unbind (dataName id)⟩, .ok ()) := by
  rw [FileStore.remove, if_pos hid, Directory.unlink_eq_ok h hfree]

/-- A removal that is not refused unbinds the data name of its id, and no other. -/
theorem remove_unbinds {s : FileStore} {id : String} (hid : isValidId id = true)
    (h : s.directory.refusal? (dataName id) = none) :
    (s.remove id).2 = .ok () ∧ ∀ name, (s.remove id).1.directory.find? name =
      if name = dataName id then none else s.directory.find? name := by
  by_cases hnone : s.directory.find? (dataName id) = none
  · rw [remove_of_none hid hnone]
    refine ⟨rfl, fun name => ?_⟩
    split
    · rename_i hname
      exact hname ▸ hnone
    · rfl
  · rw [remove_of_free hid hnone h]
    exact ⟨rfl, fun name => Directory.find?_unbind s.directory (dataName id) name⟩

/-- A removal that the directory refuses changes nothing. -/
theorem remove_of_refused {s : FileStore} {id : String} (hid : isValidId id = true)
    (h : s.directory.refusal? (dataName id) ≠ none) : s.remove id = (s, .error .io) := by
  obtain ⟨e, he⟩ := Option.ne_none_iff_exists'.mp h
  rw [FileStore.remove, if_pos hid, Directory.unlink_eq_error he]
  cases e with
  | notFound => exact absurd he (s.directory.refusal?_ne_notFound _)
  | inTheWay | refused => rfl

/-! ### What is listed -/

/-- Whether the store lists an id: its data name belongs to something, and does not start with a
dot. -/
def Shown (s : FileStore) (id : String) : Prop :=
  (dataName id).toList.head? ≠ some '.' ∧ (s.directory.find? (dataName id)).isSome = true

theorem list_of_missing {s : FileStore} (h : s.directory = .missing) : s.list = .error .io := by
  rw [list, h]
  rfl

/-- **The ids listed are those that are shown, in ascending order.** -/
theorem list_of_there {s : FileStore} (h : s.directory ≠ .missing) :
    ∃ ids, s.list = .ok ids ∧ ids.Pairwise (· < ·) ∧ ∀ id, id ∈ ids ↔ s.Shown id := by
  obtain ⟨es, hes⟩ := Directory.ne_missing_iff.mp h
  refine ⟨(s.directory.names.filterMap idOfName?).mergeSort fun a b => a ≤ b, ?_, ?_, fun id => ?_⟩
  · rw [list, hes]
    rfl
  · -- Different names give different ids, so that sorting leaves no equal neighbours.
    have hnodup : (s.directory.names.filterMap idOfName?).Nodup := by
      refine List.Nodup.filterMap (fun a b id ha hb => ?_)
        (nodup_of_ascending s.directory.names_ascending)
      rw [(idOfName?_eq_some_iff.mp ha).1, (idOfName?_eq_some_iff.mp hb).1]
    have htrans : ∀ a b c : String, decide (a ≤ b) = true → decide (b ≤ c) = true →
        decide (a ≤ c) = true := fun a b c hab hbc =>
      decide_eq_true (String.le_trans (of_decide_eq_true hab) (of_decide_eq_true hbc))
    have htotal : ∀ a b : String, (decide (a ≤ b) || decide (b ≤ a)) = true := fun a b => by
      simpa using String.le_total a b
    have hsorted := List.pairwise_mergeSort htrans htotal
      (s.directory.names.filterMap idOfName?)
    refine hsorted.imp₂ (fun a b hle hne => ?_) ((List.mergeSort_perm _ _).nodup_iff.mpr hnodup)
    by_contra hnot
    exact hne (String.le_antisymm (of_decide_eq_true hle) (String.not_lt.mp hnot))
  · rw [List.mem_mergeSort, List.mem_filterMap]
    constructor
    · rintro ⟨name, hname, hid⟩
      obtain ⟨rfl, hhead⟩ := idOfName?_eq_some_iff.mp hid
      exact ⟨hhead, Directory.mem_names_iff.mp hname⟩
    · rintro ⟨hhead, hfind⟩
      exact ⟨dataName id, Directory.mem_names_iff.mpr hfind, idOfName?_eq_some_iff.mpr ⟨rfl, hhead⟩⟩

end FileStore

/-! ### Directories that a store cannot tell apart -/

namespace Directory

open FileStore

/-- Each data name belongs to the same in both directories, and each temporary name can be taken in
both or in neither. -/
structure Alike (d d' : Directory) : Prop where
  there : d = missing ↔ d' = missing
  data : ∀ id, d.find? (dataName id) = d'.find? (dataName id)
  temp : ∀ id, d.refusal? (tempName id) = none ↔ d'.refusal? (tempName id) = none

variable {d d' d'' : Directory}

theorem Alike.refl (d : Directory) : d.Alike d := ⟨Iff.rfl, fun _ => rfl, fun _ => Iff.rfl⟩

theorem Alike.symm (h : d.Alike d') : d'.Alike d :=
  ⟨h.there.symm, fun id => (h.data id).symm, fun id => (h.temp id).symm⟩

theorem Alike.trans (h : d.Alike d') (h' : d'.Alike d'') : d.Alike d'' :=
  ⟨h.there.trans h'.there, fun id => (h.data id).trans (h'.data id),
    fun id => (h.temp id).trans (h'.temp id)⟩

theorem Alike.get_eq (h : d.Alike d') (id : String) :
    (⟨d⟩ : FileStore).get id = (⟨d'⟩ : FileStore).get id :=
  get_congr (h.data id)

theorem Alike.list_eq (h : d.Alike d') : (⟨d⟩ : FileStore).list = (⟨d'⟩ : FileStore).list := by
  by_cases hd : d = missing
  · rw [list_of_missing (s := ⟨d⟩) hd, list_of_missing (s := ⟨d'⟩) (h.there.mp hd)]
  · obtain ⟨ids, hids, hasc, hmem⟩ := list_of_there (s := ⟨d⟩) hd
    obtain ⟨ids', hids', hasc', hmem'⟩ := list_of_there (s := ⟨d'⟩) fun hd' => hd (h.there.mpr hd')
    have hsame : ids = ids' := eq_of_ascending hasc hasc' fun id => by
      rw [hmem, hmem', Shown, Shown, h.data id]
    rw [hids, hids', hsame]

/-- A temporary file more or less makes no difference, nor does what is in it. -/
theorem Alike.bind_temp (h : d ≠ missing) {id : String}
    (ht : d.refusal? (tempName id) = none) (bytes : List UInt8) :
    (d.bindEntry (tempName id) (.file bytes)).Alike d := by
  refine ⟨⟨fun hd => absurd hd (bindEntry_ne_missing h _ _), fun hd => absurd hd h⟩, fun j => ?_,
    fun j => ?_⟩
  · rw [find?_bindEntry h, if_neg (dataName_ne_tempName j id)]
  · rw [refusal?_bindEntry h]
    by_cases hj : tempName j = tempName id
    · rw [if_pos hj, hj]
      exact iff_of_true rfl ht
    · rw [if_neg hj]

theorem Alike.unbind_temp {id : String} (ht : d.refusal? (tempName id) = none) :
    (d.unbind (tempName id)).Alike d := by
  refine ⟨?_, fun j => ?_, fun j => ?_⟩
  · by_cases hd : d = missing
    · simp [hd, unbind, missing]
    · exact ⟨fun h => absurd h (unbind_ne_missing hd _), fun h => absurd h hd⟩
  · rw [find?_unbind, if_neg (dataName_ne_tempName j id)]
  · rw [refusal?_unbind]
    by_cases hj : tempName j = tempName id
    · rw [if_pos hj, hj]
      exact iff_of_true rfl ht
    · rw [if_neg hj]

theorem Alike.bind_data (h : d.Alike d') (hd : d ≠ missing) (id : String) (e : DirectoryEntry) :
    (d.bindEntry (dataName id) e).Alike (d'.bindEntry (dataName id) e) := by
  have hd' : d' ≠ missing := fun hm => hd (h.there.mpr hm)
  refine ⟨⟨fun hm => absurd hm (bindEntry_ne_missing hd _ _),
    fun hm => absurd hm (bindEntry_ne_missing hd' _ _)⟩, fun j => ?_, fun j => ?_⟩
  · rw [find?_bindEntry hd, find?_bindEntry hd', h.data j]
  · rw [refusal?_bindEntry hd, refusal?_bindEntry hd', if_neg (dataName_ne_tempName id j).symm,
      if_neg (dataName_ne_tempName id j).symm]
    exact h.temp j

theorem Alike.unbind_data (h : d.Alike d') (id : String) :
    (d.unbind (dataName id)).Alike (d'.unbind (dataName id)) := by
  refine ⟨?_, fun j => ?_, fun j => ?_⟩
  · by_cases hd : d = missing
    · rw [hd, h.there.mp hd]
    · exact ⟨fun hm => absurd hm (unbind_ne_missing hd _),
        fun hm => absurd hm (unbind_ne_missing (fun hm' => hd (h.there.mpr hm')) _)⟩
  · rw [find?_unbind, find?_unbind, h.data j]
  · rw [refusal?_unbind, refusal?_unbind, if_neg (dataName_ne_tempName id j).symm,
      if_neg (dataName_ne_tempName id j).symm]
    exact h.temp j

end Directory
end LanInference
