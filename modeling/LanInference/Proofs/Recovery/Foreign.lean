/-
# Files that others put into a recovery directory

A recovery directory may hold any files with any names. Those whose names are not data names, and
those whose names start with a dot, are neither listed nor read. But listing goes by the ending of a
name alone, and reading by the id: a file such as `my notes.partial` is listed under an id that no
read takes. Such a file blocks the recovery of all the texts, those of the store among them; where
there is none, recovery succeeds and gives exactly the texts of the files with valid ids.

Key definitions: `Directory.OnlyTexts`, `FileStore.Blocks`, `FileStore.RecoversTexts`.
Key theorems: `FileStore.get_of_shown`, `FileStore.recoversTexts`,
`FileStore.recover_blocked_by_notes`.
-/
import LanInference.Proofs.Recovery.Writes

namespace LanInference

open Directory

/-- The directory is there, and every name in it belongs to a file that holds a text. -/
structure Directory.OnlyTexts (d : Directory) : Prop where
  there : d ≠ missing
  read_of_find? : ∀ {name : String}, (d.find? name).isSome = true →
    ∃ text : String, d.read name = .ok (Utf8.encode text.toList)

theorem Directory.onlyTexts_empty : Directory.empty.OnlyTexts where
  there := by decide
  read_of_find? h := by cases h

/-- One more file with a text. -/
theorem Directory.OnlyTexts.bindEntry {d : Directory} (h : d.OnlyTexts) (name text : String) :
    (d.bindEntry name (.file (Utf8.encode text.toList))).OnlyTexts where
  there := bindEntry_ne_missing h.there _ _
  read_of_find? {other} hfind := by
    have hbound := find?_bindEntry h.there name (.file (Utf8.encode text.toList)) other
    rw [hbound] at hfind
    rw [Directory.read, hbound]
    split at hfind
    · rename_i hname
      exact ⟨text, by rw [if_pos hname]⟩
    · rename_i hname
      rw [if_neg hname]
      exact h.read_of_find? hfind

namespace FileStore

variable {s : FileStore} {id : String}

/-- The store lists an id that it refuses to read. -/
def Blocks (s : FileStore) (id : String) : Prop := s.Shown id ∧ isValidId id ≠ true

/-- A listed id is read if it is valid, and refused otherwise. -/
theorem get_of_shown (h : s.directory.OnlyTexts) (hshown : s.Shown id) :
    (isValidId id = true ∧ ∃ text, s.get id = .ok (some text)) ∨
      (s.Blocks id ∧ s.get id = .error (.invalidId id)) := by
  by_cases hid : isValidId id = true
  · obtain ⟨text, htext⟩ := h.read_of_find? hshown.2
    exact .inl ⟨hid, text, get_of_read hid htext⟩
  · exact .inr ⟨⟨hshown, hid⟩, get_of_invalid hid s⟩

theorem readable_of_shown (h : s.directory.OnlyTexts) (hshown : s.Shown id)
    (hfree : ¬ s.Blocks id) : Readable s id := by
  rcases get_of_shown h hshown with ⟨-, text, htext⟩ | ⟨hblocks, -⟩
  · exact ⟨some text, htext⟩
  · exact absurd hblocks hfree

theorem not_readable_of_blocks (h : s.Blocks id) : ¬ Readable s id := by
  rintro ⟨text, htext⟩
  have hrefused : RecoveryStore.get s id = .error (.invalidId id) := get_of_invalid h.2 s
  rw [hrefused] at htext
  cases htext

/-- A listed valid id has a text exactly if its data file holds that text. -/
theorem storedText_eq_some_iff (h : s.directory.OnlyTexts) (hid : isValidId id = true)
    {text : String} : storedText s id = some text ↔
      s.directory.read (dataName id) = .ok (Utf8.encode text.toList) := by
  have hget : ∀ {t : String}, s.directory.read (dataName id) = .ok (Utf8.encode t.toList) →
      storedText s id = some t := fun ht => by
    have hread : RecoveryStore.get s id = .ok (some _) := get_of_read hid ht
    rw [storedText, hread]
  refine ⟨fun hstored => ?_, hget⟩
  by_cases hfind : s.directory.find? (dataName id) = none
  · have hnone : RecoveryStore.get s id = .ok none := get_of_none hid hfind
    rw [storedText, hnone] at hstored
    cases hstored
  · obtain ⟨t, ht⟩ := h.read_of_find? (Option.isSome_iff_ne_none.mpr hfind)
    rw [hget ht] at hstored
    cases hstored
    exact ht

/-- What a store shows of a directory of texts. An id that is listed and refused is all that can
make recovery fail, and it does; without one, what is recovered is the texts of the data files with
valid ids. -/
structure RecoversTexts (s : FileStore) : Prop where
  listed : ∃ ids, s.list = .ok ids ∧ ids.Pairwise (· < ·) ∧ (∀ id, id ∈ ids ↔ s.Shown id) ∧
    ∀ id ∈ ids, (isValidId id = true ∧ ∃ text, s.get id = .ok (some text)) ∨
      (s.Blocks id ∧ s.get id = .error (.invalidId id))
  succeeds_iff : (∃ texts, recoverPartialResponses s = .ok texts) ↔ ∀ id, ¬ s.Blocks id
  recovered : ∀ {texts}, recoverPartialResponses s = .ok texts → ∀ id text,
    texts.get? id = some text ↔ isValidId id = true ∧
      s.directory.read (dataName id) = .ok (Utf8.encode text.toList)
  refused : ∀ {e}, recoverPartialResponses s = .error e →
    ∃ id, e = .invalidId id ∧ s.Blocks id ∧ ∀ other, s.Blocks other → id ≤ other

/-- **Recovery succeeds unless a file has a data name whose id no read takes.** -/
theorem recoversTexts (h : s.directory.OnlyTexts) : s.RecoversTexts := by
  obtain ⟨ids, hids, hasc, hmem⟩ := list_of_there h.there
  refine ⟨⟨ids, hids, hasc, hmem, fun id hid => get_of_shown h ((hmem id).mp hid)⟩, ?_, ?_, ?_⟩
  · constructor
    · rintro ⟨texts, hok⟩ id hblocks
      have hall := (readable_of_recover hids hok).1
      exact not_readable_of_blocks hblocks (hall id ((hmem id).mpr hblocks.1))
    · intro hfree
      obtain ⟨texts, hok, -⟩ := recover_of_readable (s := s) hids fun id hid =>
        readable_of_shown h ((hmem id).mp hid) (hfree id)
      exact ⟨texts, hok⟩
  · intro texts hok id text
    obtain ⟨hall, hget⟩ := readable_of_recover hids hok
    rw [hget]
    by_cases hlisted : id ∈ ids
    · have hid : isValidId id = true := by
        by_contra hid
        exact not_readable_of_blocks ⟨(hmem id).mp hlisted, hid⟩ (hall id hlisted)
      rw [if_pos hlisted, storedText_eq_some_iff h hid]
      exact ⟨fun hread => ⟨hid, hread⟩, fun hread => hread.2⟩
    · rw [if_neg hlisted]
      constructor
      · intro hnone
        cases hnone
      · rintro ⟨hid, hread⟩
        have hfind := isSome_find?_of_read hread
        exact absurd ((hmem id).mpr ⟨head?_dataName_of_valid hid, hfind⟩) hlisted
  · intro e herr
    obtain ⟨id, hid, hget, hbelow⟩ := (recover_eq_error_iff hids hasc).mp herr
    rcases get_of_shown h ((hmem id).mp hid) with ⟨-, text, htext⟩ | ⟨hblocks, hrefused⟩
    · have hread : RecoveryStore.get s id = .ok (some text) := htext
      rw [hread] at hget
      cases hget
    · have hsame : RecoveryStore.get s id = .error (.invalidId id) := hrefused
      rw [hsame] at hget
      cases hget
      refine ⟨id, rfl, hblocks, fun other hother => String.not_lt.mp fun hlt => ?_⟩
      exact not_readable_of_blocks hother (hbelow other ((hmem other).mpr hother.1) hlt)

/-- A text of the store, what is left of an interrupted write, and a file that others put there. -/
def besideNotes : FileStore :=
  ⟨((Directory.empty.bindEntry "real.partial" (.file (Utf8.encode "ok".toList))).bindEntry
    ".x.tmp" (.file (Utf8.encode "half".toList))).bindEntry
      "notes.txt" (.file (Utf8.encode "hi".toList))⟩

theorem onlyTexts_besideNotes : besideNotes.directory.OnlyTexts :=
  ((onlyTexts_empty.bindEntry "real.partial" "ok").bindEntry ".x.tmp" "half").bindEntry
    "notes.txt" "hi"

/-- Of the three files, the text of the first is recovered. -/
theorem recoversTexts_besideNotes : besideNotes.directory.OnlyTexts ∧ besideNotes.RecoversTexts ∧
    recoverPartialResponses besideNotes = .ok (OrderedMap.empty.insert "real" "ok") :=
  ⟨onlyTexts_besideNotes, recoversTexts onlyTexts_besideNotes, by decide +kernel⟩

/-- A text of the store, and a file of others whose name ends as data names do. -/
def besideForeign : FileStore :=
  ⟨(Directory.empty.bindEntry "real.partial" (.file (Utf8.encode "ok".toList))).bindEntry
    "my notes.partial" (.file (Utf8.encode "hi".toList))⟩

/-- The foreign file is listed under an id that is refused, and the text of the store is not
recovered. -/
theorem recover_blocked_by_notes : besideForeign.directory.OnlyTexts ∧
    besideForeign.list = .ok ["my notes", "real"] ∧
    besideForeign.get "my notes" = .error (.invalidId "my notes") ∧
    besideForeign.get "real" = .ok (some "ok") ∧
    recoverPartialResponses besideForeign = .error (.invalidId "my notes") := by
  have hlist : besideForeign.list = .ok ["my notes", "real"] := by
    have hids : besideForeign.directory.names.filterMap idOfName? = ["my notes", "real"] := rfl
    rw [list, hids, List.mergeSort_of_pairwise (by decide)]
    rfl
  have hrecover : recoverPartialResponses besideForeign = .error (.invalidId "my notes") := by
    have hids : RecoveryStore.list besideForeign = .ok ["my notes", "real"] := hlist
    rw [recoverPartialResponses, hids]
    rfl
  exact ⟨(onlyTexts_empty.bindEntry "real.partial" "ok").bindEntry "my notes.partial" "hi",
    hlist, rfl, rfl, hrecover⟩

end FileStore
end LanInference
