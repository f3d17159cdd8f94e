/-
# Recovery loses nothing

The recovery command reads all texts before it shows the first one, so a file that cannot be read
stops it with nothing shown and nothing cleared. Otherwise each pending text has a line of its own:
an id holds no tab, and JSON has no newline and no tab in it, so that the output can be taken apart
again into exactly the entries that were pending, whatever their texts are. Entries are cleared one
by one, each after its line is shown. A directory may let a file be read and not be removed, and
there clearing stops: what was cleared by then has been shown, and so has the entry it stopped at.

Key definitions: `Directory.Pending`, `entryOn?`, `ShowsEntries`, `clearAll`, `AllRemoved`,
`Directory.Cleared`, `Directory.Unread`, `Directory.ShownAll`, `Directory.ShownUpTo`,
`Directory.Recovered`, `Directory.HoldsBack`.
Key theorems: `showsEntries_entryLines`, `showEntries_clear`, `FileStore.cleared_clearAll`,
`Directory.PendingTexts.shownAll`, `Directory.PendingTexts.shownUpTo`,
`Surroundings.recover_loses_nothing`.
-/
import LanInference.CommandLine.Commands
import LanInference.Proofs.Json.Records
import LanInference.Proofs.Recovery.Calls
import LanInference.Proofs.Recovery.Files

namespace LanInference

open FileStore Directory

/-! ### Pending texts -/

/-- A directory has this text under the id: in the id's data file, as UTF-8. -/
def Directory.Pending (d : Directory) (id text : String) : Prop :=
  isValidId id = true ∧ ∃ bytes, d.read (dataName id) = .ok bytes ∧
    Utf8.decode? bytes = some text.toList

namespace FileStore

variable {s : FileStore} {id text : String}

/-- A store gives the pending texts of its directory. -/
theorem get_eq_some_iff : s.get id = .ok (some text) ↔ s.directory.Pending id text := by
  constructor
  · intro h
    by_cases hid : isValidId id = true
    · rw [FileStore.get, if_pos hid] at h
      split at h
      · rename_i bytes hread
        split at h
        · rename_i cs hcs
          cases h
          exact ⟨hid, bytes, hread, by rw [hcs, String.toList_ofList]⟩
        · cases h
      · cases h
      · cases h
    · rw [get_of_invalid hid] at h
      cases h
  · rintro ⟨hid, bytes, hread, hbytes⟩
    rw [FileStore.get, if_pos hid, hread]
    dsimp only
    rw [hbytes]
    exact congrArg (fun t => Except.ok (some t)) String.ofList_toList

theorem storedText_eq_some_iff_pending :
    storedText s id = some text ↔ s.directory.Pending id text := by
  rw [← get_eq_some_iff]
  unfold storedText
  constructor
  · intro h
    split at h
    · rename_i t ht
      rw [← h]
      exact ht
    · cases h
  · intro h
    have hget : RecoveryStore.get s id = .ok (some text) := h
    rw [hget]

theorem shown_of_pending (h : s.directory.Pending id text) : s.Shown id := by
  obtain ⟨hid, bytes, hread, -⟩ := h
  exact ⟨head?_dataName_of_valid hid, isSome_find?_of_read hread⟩

/-- A listed id is readable exactly if a text is pending under it. -/
theorem readable_iff_of_shown (h : s.Shown id) :
    Readable s id ↔ ∃ text, s.directory.Pending id text := by
  constructor
  · rintro ⟨t, ht⟩
    have hget : s.get id = .ok t := ht
    cases t with
    | some text => exact ⟨text, get_eq_some_iff.mp hget⟩
    | none =>
      -- Nothing is said to be there only of a name that belongs to nothing.
      exfalso
      by_cases hid : isValidId id = true
      · rw [FileStore.get, if_pos hid] at hget
        split at hget
        · split at hget <;> cases hget
        · rename_i hread
          exact read_ne_notFound h.2 hread
        · cases hget
      · rw [get_of_invalid hid] at hget
        cases hget
  · rintro ⟨text, htext⟩
    exact ⟨some text, get_eq_some_iff.mpr htext⟩

end FileStore

/-- Recovery reads the directory: these are the texts that are pending in it, and each id it lists
has one. -/
structure Directory.PendingTexts (d : Directory) (pending : OrderedMap String) : Prop where
  recovered : recoverPartialResponses (⟨d⟩ : FileStore) = .ok pending
  get?_iff : ∀ {id text}, pending.get? id = some text ↔ d.Pending id text
  readable : ∀ {id}, (⟨d⟩ : FileStore).Shown id → ∃ text, d.Pending id text

/-- **Either every listed id has a pending text, and these are what is recovered, or recovery
fails.** -/
theorem FileStore.recover_pending {s : FileStore} (h : s.directory ≠ .missing) :
    (∃ pending, s.directory.PendingTexts pending) ∨
      ∃ e id, recoverPartialResponses s = .error e ∧ s.Shown id ∧
        ∀ text, ¬ s.directory.Pending id text := by
  obtain ⟨ids, hids, hasc, hmem⟩ := list_of_there h
  have hlist : RecoveryStore.list s = .ok ids := hids
  cases hrecover : recoverPartialResponses s with
  | ok texts =>
    obtain ⟨hall, hget⟩ := readable_of_recover hlist hrecover
    refine .inl ⟨texts, hrecover, fun {id text} => ?_, fun {id} hshown => ?_⟩
    · rw [hget, ← storedText_eq_some_iff_pending]
      by_cases hlisted : id ∈ ids
      · rw [if_pos hlisted]
      · rw [if_neg hlisted]
        constructor
        · intro hnone
          cases hnone
        · intro hstored
          have hpending := storedText_eq_some_iff_pending.mp hstored
          exact absurd ((hmem id).mpr (shown_of_pending hpending)) hlisted
    · exact (readable_iff_of_shown hshown).mp (hall id ((hmem id).mpr hshown))
  | error e =>
    obtain ⟨id, hid, herr, -⟩ := (recover_eq_error_iff hlist hasc).mp hrecover
    have hshown := (hmem id).mp hid
    refine .inr ⟨e, id, rfl, hshown, fun text htext => ?_⟩
    have hget : RecoveryStore.get s id = .ok (some text) := get_eq_some_iff.mpr htext
    rw [hget] at herr
    cases herr

/-! ### Lines of entries -/

/-- The lines of entries, one after the other. -/
def entryLines : List (String × String) → String
  | [] => ""
  | (id, text) :: es => entryLine id text ++ entryLines es

/-- The entry on a line: what stands before its first tab, and after it a text in JSON. -/
def entryOn? (line : List Char) : Option (String × String) := do
  let x ← Json.Node.parse? (line.dropWhile (· ≠ '\t')).tail
  let text ← x.string?
  return (String.ofList (line.takeWhile (· ≠ '\t')), text)

/-- An output whose lines are these entries, each line ended by a newline. -/
def ShowsEntries (out : String) (es : List (String × String)) : Prop :=
  ∃ lines, out.toList.splitOn '\n' = lines ++ [[]] ∧ lines.mapM entryOn? = some es

/-- An id has neither a tab nor a newline in it. -/
theorem ne_break_of_valid {id : String} (h : isValidId id = true) {c : Char} (hc : c ∈ id.toList) :
    c ≠ '\t' ∧ c ≠ '\n' := by
  simp only [isValidId, Bool.and_eq_true] at h
  have hchar := List.all_eq_true.mp h.2 c hc
  constructor
  · rintro rfl
    revert hchar
    decide
  · rintro rfl
    revert hchar
    decide

/-- An entry is read back from its line. -/
theorem entryOn?_append {id : List Char} (hid : ∀ c ∈ id, c ≠ '\t') (text : String) :
    entryOn? (id ++ '\t' :: (Json.Node.ofString text).write) = some (String.ofList id, text) := by
  have hkept : ∀ c ∈ id, decide (c ≠ '\t') = true := fun c hc => decide_eq_true (hid c hc)
  have hread : Json.Node.parse? (Json.Node.ofString text).write = some (.ofString text) :=
    Json.Node.parse?_write (Json.Node.writable_ofString text)
  rw [entryOn?, List.dropWhile_append_of_pos hkept, List.takeWhile_append_of_pos hkept]
  simp [hread, Json.Node.string?_ofString]

/-- **Lines of entries are taken apart again into the entries,** whatever their texts are. -/
theorem showsEntries_entryLines : ∀ {es : List (String × String)},
    (∀ e ∈ es, isValidId e.1 = true) → ShowsEntries (entryLines es) es
  | [], _ => ⟨[], rfl, rfl⟩
  | (id, text) :: es, h => by
    obtain ⟨hid, hes⟩ := List.forall_mem_cons.mp h
    obtain ⟨lines, hsplit, hread⟩ := showsEntries_entryLines hes
    have hprintable : Json.Printable (Json.Node.ofString text).write :=
      Json.printable_write _ (Json.Node.writable_ofString text)
    have hnewline : '\n' ∉ id.toList ++ '\t' :: (Json.Node.ofString text).write := by
      intro hmem
      rcases List.mem_append.mp hmem with hmem | hmem
      · exact (ne_break_of_valid hid hmem).2 rfl
      · rcases List.mem_cons.mp hmem with hmem | hmem
        · cases hmem
        · exact absurd (hprintable _ hmem) (by decide)
    have htoList : (entryLines ((id, text) :: es)).toList =
        (id.toList ++ '\t' :: (Json.Node.ofString text).write) ++
          '\n' :: (entryLines es).toList := by
      have htab : "\t".toList = ['\t'] := rfl
      have hend : "\n".toList = ['\n'] := rfl
      simp [entryLines, entryLine, Json.Node.text, htab, hend]
    refine ⟨(id.toList ++ '\t' :: (Json.Node.ofString text).write) :: lines, ?_, ?_⟩
    · rw [htoList, List.splitOn_append_cons_self_of_not_mem hnewline, hsplit, List.cons_append]
    · have hentry := entryOn?_append (fun c hc => (ne_break_of_valid hid hc).1) text
      rw [String.ofList_toList] at hentry
      simp [List.mapM_cons, hentry, hread]

/-! ### Showing and clearing -/

section

variable {σ : Type} [RecoveryStore σ]

/-- The store once the entries are removed, in their order. -/
def clearAll (store : σ) : List (String × String) → σ
  | [] => store
  | e :: es => clearAll (RecoveryStore.remove store e.1).1 es

/-- The entries are removed in their order, and no removal fails. -/
def AllRemoved (store : σ) : List (String × String) → Prop
  | [] => True
  | e :: es => (RecoveryStore.remove store e.1).2 = .ok () ∧
      AllRemoved (RecoveryStore.remove store e.1).1 es

/-- Without clearing all entries are shown, and the store stays as it is. -/
theorem showEntries_keep (store : σ) : ∀ (es : List (String × String)) (o : Outcome),
    showEntries false store o es = ({ o with out := o.out ++ entryLines es }, store)
  | [], o => by rw [showEntries, entryLines, String.append_empty]
  | (id, text) :: es, o => by
    have ih := showEntries_keep store es { o with out := o.out ++ entryLine id text }
    rw [showEntries, if_neg Bool.false_ne_true, ih, entryLines, String.append_assoc]

/-- **Nothing is cleared that has not been shown.** As long as removals succeed, each entry is
shown and then removed. -/
theorem showEntries_clear (rest : List (String × String)) : ∀ {es : List (String × String)}
    {store : σ} (o : Outcome), AllRemoved store es → showEntries true store o (es ++ rest) =
      showEntries true (clearAll store es) { o with out := o.out ++ entryLines es } rest
  | [], store, o, _ => by rw [entryLines, String.append_empty, clearAll, List.nil_append]
  | (id, text) :: es, store, o, h => by
    obtain ⟨hok, hes⟩ := h
    have ih := showEntries_clear rest { o with out := o.out ++ entryLine id text } hes
    have hremove : RecoveryStore.remove store id =
        ((RecoveryStore.remove store id).1, .ok ()) := Prod.ext rfl hok
    rw [List.cons_append, showEntries, if_pos rfl, hremove]
    dsimp only
    rw [ih, clearAll, entryLines, String.append_assoc]

/-- An entry whose removal fails is the last one shown. -/
theorem showEntries_stop {store : σ} {id : String} {e : RecoveryError} (text : String)
    (rest : List (String × String)) (o : Outcome)
    (h : RecoveryStore.remove store id = (store, .error e)) :
    showEntries true store o ((id, text) :: rest) =
      ({ o with out := o.out ++ entryLine id text }.fail (.recovery e), store) := by
  rw [showEntries, if_pos rfl, h]

end

theorem entryLines_concat (last : String × String) : ∀ es : List (String × String),
    entryLines (es ++ [last]) = entryLines es ++ entryLine last.1 last.2
  | [] => by
    rw [List.nil_append, entryLines, entryLines, entryLines, String.append_empty,
      String.empty_append]
  | e :: es => by
    rw [List.cons_append, entryLines, entryLines_concat last es, entryLines, String.append_assoc]

/-! ### What clearing leaves -/

/-- The directory is left without the data files of these entries, and every other name in it
belongs to what it did before. -/
def Directory.Cleared (d : Directory) (es : List (String × String)) (left : Directory) : Prop :=
  ∀ name, left.find? name = if ∃ e ∈ es, name = dataName e.1 then none else d.find? name

/-- The directory lets the data files of these entries be removed. -/
def Directory.Releases (d : Directory) (es : List (String × String)) : Prop :=
  ∀ e ∈ es, d.refusal? (dataName e.1) = none

namespace FileStore

variable {s : FileStore}

/-- Where the directory lets all the files be removed, they are, and nothing else is. -/
theorem cleared_clearAll : ∀ {es : List (String × String)} {s : FileStore},
    (∀ e ∈ es, isValidId e.1 = true) → s.directory.Releases es →
      AllRemoved s es ∧ s.directory.Cleared es (clearAll s es).directory
  | [], s, _, _ => ⟨trivial, fun name => by simp [clearAll]⟩
  | e :: es, s, hvalid, h => by
    obtain ⟨hid, hvalid⟩ := List.forall_mem_cons.mp hvalid
    obtain ⟨hfree, hes⟩ := List.forall_mem_cons.mp h
    obtain ⟨hok, hfind⟩ := remove_unbinds hid hfree
    have hnext : (s.remove e.1).1.directory.Releases es := fun f hf => by
      rw [refusal?, hfind]
      split
      · rfl
      · exact hes f hf
    obtain ⟨hrest, hcleared⟩ := cleared_clearAll hvalid hnext
    refine ⟨⟨hok, hrest⟩, fun name => ?_⟩
    rw [clearAll]
    refine (hcleared name).trans ?_
    rw [hfind]
    by_cases hrest : ∃ f ∈ es, name = dataName f.1
    · have hany : ∃ f ∈ e :: es, name = dataName f.1 :=
        hrest.imp fun f hf => ⟨List.mem_cons_of_mem _ hf.1, hf.2⟩
      rw [if_pos hrest, if_pos hany]
    · rw [if_neg hrest]
      by_cases hname : name = dataName e.1
      · rw [if_pos hname, if_pos ⟨e, List.mem_cons_self, hname⟩]
      · have hnone : ¬ ∃ f ∈ e :: es, name = dataName f.1 := by
          rintro ⟨f, hf, hfname⟩
          rcases List.mem_cons.mp hf with rfl | hf
          · exact hname hfname
          · exact hrest ⟨f, hf, hfname⟩
        rw [if_neg hname, if_neg hnone]

/-- A file that the directory refuses to remove is refused also when others have been removed. -/
theorem remove_clearAll_of_refused {es : List (String × String)} {id : String}
    (hvalid : ∀ e ∈ es, isValidId e.1 = true) (hreleased : s.directory.Releases es)
    (hid : isValidId id = true) (h : s.directory.refusal? (dataName id) ≠ none) :
    (clearAll s es).remove id = (clearAll s es, .error .io) := by
  have hothers : ¬ ∃ e ∈ es, dataName id = dataName e.1 := by
    rintro ⟨e, he, heq⟩
    exact h (heq ▸ hreleased e he)
  have hstill := (cleared_clearAll hvalid hreleased).2 (dataName id)
  rw [if_neg hothers] at hstill
  exact remove_of_refused hid (refusal?_congr hstill ▸ h)

end FileStore

/-! ### The command -/

namespace Directory

/-- A listed id has no text to read: nothing is shown, and nothing is removed. -/
structure Unread (d : Directory) (r : Outcome × Directory) : Prop where
  listed : ∃ id, (⟨d⟩ : FileStore).Shown id ∧ ∀ text, ¬ d.Pending id text
  code : r.1.code = 1
  out : r.1.out = ""
  left : r.2 = d

/-- All pending texts are shown. With clearing their files are removed, and nothing else is. -/
structure ShownAll (d : Directory) (pending : OrderedMap String) (clear : Bool)
    (r : Outcome × Directory) : Prop where
  texts : d.PendingTexts pending
  code : r.1.code = 0
  out : ShowsEntries r.1.out pending.entries
  left : if clear = true then d.Cleared pending.entries r.2 else r.2 = d

/-- The pending texts up to one whose file cannot be removed are shown. The files of those before it
are removed, and nothing else is. -/
structure ShownUpTo (d : Directory) (pending : OrderedMap String)
    (before : List (String × String)) (last : String × String) (after : List (String × String))
    (r : Outcome × Directory) : Prop where
  texts : d.PendingTexts pending
  entries : pending.entries = before ++ last :: after
  released : d.Releases before
  refused : d.refusal? (dataName last.1) ≠ none
  code : r.1.code = 1
  out : ShowsEntries r.1.out (before ++ [last])
  left : d.Cleared before r.2

/-- Recovery comes to everything or nothing. -/
def Recovered (d : Directory) (clear : Bool) (r : Outcome × Directory) : Prop :=
  d.Unread r ∨ ∃ pending, d.ShownAll pending clear r

/-- A text is pending in a file that cannot be removed. -/
def HoldsBack (d : Directory) : Prop :=
  ∃ id text, d.Pending id text ∧ d.refusal? (dataName id) ≠ none

variable {d : Directory} {pending : OrderedMap String}

theorem PendingTexts.pending_of_mem (h : d.PendingTexts pending) {e : String × String}
    (he : e ∈ pending.entries) : d.Pending e.1 e.2 :=
  h.get?_iff.mp (OrderedMap.get?_eq_some_iff.mpr he)

theorem PendingTexts.valid_of_mem (h : d.PendingTexts pending) {e : String × String}
    (he : e ∈ pending.entries) : isValidId e.1 = true :=
  (h.pending_of_mem he).1

/-- All entries can be removed unless the directory holds one back. -/
theorem PendingTexts.releases (h : d.PendingTexts pending) (hfree : ¬ d.HoldsBack) :
    d.Releases pending.entries := fun e he => by
  by_contra hrefused
  exact hfree ⟨e.1, e.2, h.pending_of_mem he, hrefused⟩

/-- The first entry that the directory holds back. -/
theorem PendingTexts.exists_split (h : d.PendingTexts pending) (hback : d.HoldsBack) :
    ∃ before last after, pending.entries = before ++ last :: after ∧ d.Releases before ∧
      d.refusal? (dataName last.1) ≠ none := by
  obtain ⟨id, text, htext, hrefused⟩ := hback
  have hmem : (id, text) ∈ pending.entries :=
    OrderedMap.get?_eq_some_iff.mp (h.get?_iff.mpr htext)
  have hfound : (pending.entries.find? fun e => (d.refusal? (dataName e.1)).isSome).isSome := by
    rw [List.find?_isSome]
    exact ⟨(id, text), hmem, Option.isSome_iff_ne_none.mpr hrefused⟩
  obtain ⟨last, hlast⟩ := Option.isSome_iff_exists.mp hfound
  obtain ⟨hback, before, after, hentries, hbefore⟩ := List.find?_eq_some_iff_append.mp hlast
  refine ⟨before, last, after, hentries, fun e he => ?_, Option.isSome_iff_ne_none.mp hback⟩
  simpa using hbefore e he

/-- Where all files can be removed that are to be, showing the entries comes to all of them. -/
theorem PendingTexts.shownAll {s : FileStore} (h : s.directory.PendingTexts pending) {o : Outcome}
    (hout : o.out = "") (hcode : o.code = 0) {clear : Bool}
    (hreleased : clear = true → s.directory.Releases pending.entries) :
    s.directory.ShownAll pending clear ((showEntries clear s o pending.entries).1,
      (showEntries clear s o pending.entries).2.directory) := by
  have hvalid : ∀ e ∈ pending.entries, isValidId e.1 = true := fun _ => h.valid_of_mem
  have hlines : ShowsEntries (o.out ++ entryLines pending.entries) pending.entries := by
    rw [hout, String.empty_append]
    exact showsEntries_entryLines hvalid
  cases clear with
  | false =>
    rw [showEntries_keep]
    exact ⟨h, hcode, hlines, rfl⟩
  | true =>
    obtain ⟨hall, hcleared⟩ := cleared_clearAll hvalid (hreleased rfl)
    have hshow := showEntries_clear [] o hall
    rw [List.append_nil, showEntries] at hshow
    rw [hshow]
    exact ⟨h, hcode, hlines, hcleared⟩

/-- Where a file cannot be removed, clearing comes to the entries up to that one. -/
theorem PendingTexts.shownUpTo {s : FileStore} (h : s.directory.PendingTexts pending) {o : Outcome}
    (hout : o.out = "") {before after : List (String × String)} {last : String × String}
    (hentries : pending.entries = before ++ last :: after)
    (hreleased : s.directory.Releases before)
    (hrefused : s.directory.refusal? (dataName last.1) ≠ none) :
    s.directory.ShownUpTo pending before last after ((showEntries true s o pending.entries).1,
      (showEntries true s o pending.entries).2.directory) := by
  have hvalid : ∀ e ∈ before ++ [last], isValidId e.1 = true := fun e he =>
    h.valid_of_mem (by rw [hentries, List.append_cons]; exact List.mem_append_left _ he)
  have hlast := hvalid last (List.mem_append_right _ (List.mem_singleton_self last))
  have hbefore : ∀ e ∈ before, isValidId e.1 = true := fun e he =>
    hvalid e (List.mem_append_left _ he)
  obtain ⟨hall, hcleared⟩ := cleared_clearAll hbefore hreleased
  have hstop := remove_clearAll_of_refused hbefore hreleased hlast hrefused
  rw [hentries, showEntries_clear _ o hall, showEntries_stop last.2 after _ hstop]
  refine ⟨h, hentries, hreleased, hrefused, rfl, ?_, hcleared⟩
  show ShowsEntries (o.out ++ entryLines before ++ entryLine last.1 last.2) (before ++ [last])
  rw [hout, String.empty_append, ← entryLines_concat]
  exact showsEntries_entryLines hvalid

end Directory

namespace Surroundings

theorem runCommand_recover (w : Surroundings) (clear : Bool) : runCommand w (.recover clear) =
    ((recoverCommand w.settings.recoveryDir clear (openIn w.directory)).1,
      (recoverCommand w.settings.recoveryDir clear (openIn w.directory)).2.directory) := rfl

/-- **Recovery loses nothing.** It is run in the directory it was given, or in an empty one where
that is missing. It fails with nothing shown and nothing removed, or the output has one line for
each pending text, from which exactly these can be read back, and clearing removes their files and
no others. Only where clearing meets a file that the directory does not let be removed, it stops
with that entry as the last one shown, and has then removed the files of those before it. -/
theorem recover_loses_nothing (w : Surroundings) (clear : Bool) :
    (openIn w.directory).directory = (if w.directory = .missing then .empty else w.directory) ∧
    (¬ (clear = true ∧ (openIn w.directory).directory.HoldsBack) →
      (openIn w.directory).directory.Recovered clear (runCommand w (.recover clear))) ∧
    (clear = true ∧ (openIn w.directory).directory.HoldsBack →
      (openIn w.directory).directory.Unread (runCommand w (.recover clear)) ∨
        ∃ pending before last after, (openIn w.directory).directory.ShownUpTo pending before last
          after (runCommand w (.recover clear))) := by
  refine ⟨directory_openIn w.directory, ?_⟩
  have hthere := openIn_ne_missing w.directory
  rw [runCommand_recover]
  generalize openIn w.directory = s at hthere
  rw [recoverCommand]
  rcases recover_pending hthere with ⟨pending, hpending⟩ | ⟨e, id, herr, hid, hnone⟩
  · rw [hpending.recovered]
    dsimp only
    generalize ho : (if pending.entries = [] then _ else _ : Outcome) = o
    obtain ⟨hout, hcode⟩ : o.out = "" ∧ o.code = 0 := by
      rw [← ho]
      split <;> exact ⟨rfl, rfl⟩
    refine ⟨fun hfree => .inr ⟨pending, hpending.shownAll hout hcode fun hclear => ?_⟩, ?_⟩
    · exact hpending.releases fun hback => hfree ⟨hclear, hback⟩
    · rintro ⟨rfl, hback⟩
      obtain ⟨before, last, after, hentries, hreleased, hrefused⟩ := hpending.exists_split hback
      exact .inr ⟨pending, before, last, after,
        hpending.shownUpTo hout hentries hreleased hrefused⟩
  · rw [herr]
    have hunread : s.directory.Unread
        (Outcome.fail {} (.recovery e), s.directory) := ⟨⟨id, hid, hnone⟩, rfl, rfl, rfl⟩
    exact ⟨fun _ => .inl hunread, fun _ => .inl hunread⟩

/-- Three pending texts, the second in a file that cannot be removed. -/
def heldBack : Surroundings where
  settings := .defaults fun _ => none
  directory := ((Directory.empty.bindEntry "a.partial" (.file (Utf8.encode "one".toList))).bindEntry
    "b.partial" (.locked (Utf8.encode "two".toList))).bindEntry
      "c.partial" (.file (Utf8.encode "three".toList))
  newId := ⟨1⟩
  script := ⟨.status 200, []⟩

theorem holdsBack_heldBack : (openIn heldBack.directory).directory.HoldsBack := by
  refine ⟨"b", "two", ⟨by decide, Utf8.encode "two".toList, ?_, Utf8.decode?_encode _⟩, ?_⟩
  · decide +kernel
  · decide +kernel

theorem recover_heldBack : recoverPartialResponses (openIn heldBack.directory) =
    .ok (((OrderedMap.empty.insert "a" "one").insert "b" "two").insert "c" "three") := by
  have hlist : (openIn heldBack.directory).list = .ok ["a", "b", "c"] := by
    have hids : (openIn heldBack.directory).directory.names.filterMap idOfName? =
        ["a", "b", "c"] := rfl
    rw [FileStore.list, hids, List.mergeSort_of_pairwise (by decide)]
    rfl
  have hids : RecoveryStore.list (openIn heldBack.directory) = .ok ["a", "b", "c"] := hlist
  rw [recoverPartialResponses, hids]
  decide +kernel

/-- Clearing shows the first two and removes the first. -/
theorem run_heldBack : (runCommand heldBack (.recover true)).1.code = 1 ∧
    (runCommand heldBack (.recover true)).1.out = "a\t\"one\"\nb\t\"two\"\n" ∧
    (runCommand heldBack (.recover true)).2.names = ["b.partial", "c.partial"] := by
  rw [runCommand_recover, recoverCommand, recover_heldBack]
  decide +kernel

/-- That is neither everything nor nothing. -/
theorem not_recovered_heldBack : ¬ (openIn heldBack.directory).directory.Recovered true
    (runCommand heldBack (.recover true)) := by
  obtain ⟨hcode, hout, -⟩ := run_heldBack
  rintro (hunread | ⟨pending, hshown⟩)
  · rw [hunread.out] at hout
    exact absurd hout (by decide)
  · exact absurd (hcode.symm.trans hshown.code) (by decide)

/-- The file of the first is removed, and the other two stay. -/
theorem recover_loses_nothing_of_heldBack :
    (openIn heldBack.directory).directory.HoldsBack ∧
      (∃ pending before last after, (openIn heldBack.directory).directory.ShownUpTo pending before
        last after (runCommand heldBack (.recover true))) ∧
      (runCommand heldBack (.recover true)).1.out = "a\t\"one\"\nb\t\"two\"\n" ∧
      (runCommand heldBack (.recover true)).2.names = ["b.partial", "c.partial"] := by
  obtain ⟨-, hout, hnames⟩ := run_heldBack
  refine ⟨holdsBack_heldBack, ?_, hout, hnames⟩
  refine ((recover_loses_nothing heldBack true).2.2 ⟨rfl, holdsBack_heldBack⟩).resolve_left
    fun hunread => ?_
  rw [hunread.out] at hout
  exact absurd hout (by decide)

end Surroundings
end LanInference
