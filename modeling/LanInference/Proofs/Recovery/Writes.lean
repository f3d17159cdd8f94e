/-
# Interrupted writes

A write prepares a temporary file and then gives it the data file's name. Until then the directory
is one that a store cannot tell from what it was before, however far the write went: the bytes of
the text may go out in any pieces, and it may stop between any two steps, or at one that fails. The
last step changes what is stored under its own id, and nothing else. And a temporary file that was
left behind changes no later answer.

Key definitions: `Directory.Writable`, `PutStep.Begins`, `FileStore.putOf`, `FileStore.sweep`,
`FileStore.AsBefore`, `FileStore.Replaced`.
Key theorems: `PutStep.runAll_alike`, `FileStore.put_of_writable`, `FileStore.put_of_not_writable`,
`Directory.Alike.ask`, `FileStore.interrupted_put`.
-/
import LanInference.Proofs.Recovery.Calls
import LanInference.Proofs.Recovery.Files

namespace LanInference

open FileStore Directory

/-- Nothing is in the way of a write under this id. -/
structure Directory.Writable (d : Directory) (id : String) : Prop where
  there : d ≠ missing
  temp : d.refusal? (tempName id) = none
  data : d.refusal? (dataName id) = none

theorem Directory.Alike.writable {d d' : Directory} (h : d.Alike d') {id : String}
    (hd : d.Writable id) : d'.Writable id where
  there hm := hd.there (h.there.mpr hm)
  temp := (h.temp id).mp hd.temp
  data := (refusal?_congr (h.data id)).symm.trans hd.data

/-! ### The steps of a write -/

namespace PutStep

/-- The steps up to the renaming, where the bytes go out in these pieces. -/
def preparing (pieces : List (List UInt8)) : List PutStep :=
  .create :: pieces.map .write ++ [.sync]

/-- A write of this text may stop after these steps. -/
def Begins (text : String) (steps : List PutStep) : Prop :=
  ∃ pieces, pieces.flatten = Utf8.encode text.toList ∧ steps <+: preparing pieces ++ [.rename]

variable {id : String} {d d' : Directory}

theorem begins_plan (text : String) : Begins text (plan text) :=
  ⟨[Utf8.encode text.toList], List.flatten_singleton, List.prefix_rfl⟩

theorem rename_not_mem_preparing (pieces : List (List UInt8)) : .rename ∉ preparing pieces := by
  simp [preparing]

theorem runAll_append_of_ok {xs : List PutStep} (ys : List PutStep) :
    ∀ {d : Directory}, runAll id d xs = (d', .ok ()) →
      runAll id d (xs ++ ys) = runAll id d' ys := by
  induction xs with
  | nil =>
    intro d h
    cases h
    rfl
  | cons x xs ih =>
    intro d h
    unfold runAll at h
    rw [List.cons_append, runAll]
    cases hrun : x.run id d with
    | error e =>
      rw [hrun] at h
      cases h
    | ok d₁ =>
      rw [hrun] at h
      exact ih h

/-- A step that is not the renaming makes no difference to a store. -/
theorem run_alike {step : PutStep} (hstep : step ≠ .rename) (h : step.run id d = .ok d') :
    d'.Alike d := by
  cases step with
  | create =>
    simp only [run, Directory.create] at h
    split at h
    · cases h
    · rename_i hthere
      split at h
      · cases h
      · rename_i htemp
        cases h
        refine Alike.bind_temp (fun hm => hthere ?_) htemp []
        rw [hm]
        rfl
  | write bytes =>
    simp only [run, Directory.append] at h
    split at h
    · rename_i old hold
      cases h
      have hthere : d ≠ missing := by
        rintro rfl
        cases hold
      exact Alike.bind_temp hthere (refusal?_of_file hold) _
    all_goals cases h
  | sync =>
    cases h
    exact Alike.refl _
  | rename => exact absurd rfl hstep

/-- **As long as it does not come to the renaming, a write makes no difference to a store,** whether
its steps succeed or not. -/
theorem runAll_alike : ∀ {steps : List PutStep} {d : Directory}, .rename ∉ steps →
    (runAll id d steps).1.Alike d
  | [], d, _ => Alike.refl d
  | step :: steps, d, h => by
    have hstep : step ≠ .rename := fun heq => h (heq ▸ List.mem_cons_self)
    unfold runAll
    cases hrun : step.run id d with
    | error e => exact Alike.refl d
    | ok d₁ =>
      have hrest := runAll_alike (d := d₁) fun hmem => h (List.mem_cons_of_mem _ hmem)
      exact hrest.trans (run_alike hstep hrun)

theorem run_create (hd : d ≠ missing) (ht : d.refusal? (tempName id) = none) :
    create.run id d = .ok (d.bindEntry (tempName id) (.file [])) := by
  obtain ⟨es, hes⟩ := ne_missing_iff.mp hd
  rw [run, Directory.create, if_neg (by simp [hes]), ht]

theorem run_write {old : List UInt8} (h : d.find? (tempName id) = some (.file old))
    (bytes : List UInt8) :
    (write bytes).run id d = .ok (d.bindEntry (tempName id) (.file (old ++ bytes))) := by
  rw [run, Directory.append, h]

/-- What is written in pieces is in the temporary file, one piece after another. -/
theorem runAll_write : ∀ (pieces : List (List UInt8)) {d : Directory} {old : List UInt8},
    d ≠ missing → d.find? (tempName id) = some (.file old) →
      ∃ d', runAll id d (pieces.map .write) = (d', .ok ()) ∧
        d'.find? (tempName id) = some (.file (old ++ pieces.flatten))
  | [], d, old, _, h => ⟨d, rfl, by rw [h, List.flatten_nil, List.append_nil]⟩
  | piece :: pieces, d, old, hd, h => by
    have hbound := find?_bindEntry hd (tempName id) (.file (old ++ piece)) (tempName id)
    rw [if_pos rfl] at hbound
    obtain ⟨d', hrun, hfind⟩ := runAll_write pieces (bindEntry_ne_missing hd _ _) hbound
    refine ⟨d', ?_, by rw [hfind, List.flatten_cons, List.append_assoc]⟩
    rw [List.map_cons, runAll, run_write h]
    exact hrun

/-- Once a write is prepared, its text is in the temporary file. -/
theorem runAll_preparing (hd : d ≠ missing) (ht : d.refusal? (tempName id) = none)
    (pieces : List (List UInt8)) :
    ∃ d', runAll id d (preparing pieces) = (d', .ok ()) ∧ d'.Alike d ∧
      d'.find? (tempName id) = some (.file pieces.flatten) := by
  have hmade := find?_bindEntry hd (tempName id) (.file []) (tempName id)
  rw [if_pos rfl] at hmade
  obtain ⟨d', hwritten, hfind⟩ := runAll_write pieces (bindEntry_ne_missing hd _ _) hmade
  have hrun : runAll id d (preparing pieces) = (d', .ok ()) := by
    rw [preparing, List.cons_append, runAll, run_create hd ht]
    exact (runAll_append_of_ok _ hwritten).trans rfl
  have halike : (runAll id d (preparing pieces)).1.Alike d :=
    runAll_alike (rename_not_mem_preparing pieces)
  rw [hrun] at halike
  exact ⟨d', hrun, halike, hfind⟩

/-- **A whole write with nothing in its way binds the data name to the text.** -/
theorem runAll_of_writable (h : d.Writable id) (pieces : List (List UInt8)) :
    ∃ d', runAll id d (preparing pieces ++ [.rename]) = (d', .ok ()) ∧
      d'.Alike (d.bindEntry (dataName id) (.file pieces.flatten)) := by
  obtain ⟨d₁, hprepared, halike, htemp⟩ := runAll_preparing h.there h.temp pieces
  have hthere : d₁ ≠ missing := fun hm => h.there (halike.there.mp hm)
  have hdata : d₁.refusal? (dataName id) = none := (refusal?_congr (halike.data id)).trans h.data
  refine ⟨(d₁.unbind (tempName id)).bindEntry (dataName id) (.file pieces.flatten), ?_, ?_⟩
  · rw [runAll_append_of_ok _ hprepared, runAll, run, Directory.rename, htemp]
    dsimp only
    rw [hdata]
    rfl
  · have hunbound : (d₁.unbind (tempName id)).Alike d :=
      (Alike.unbind_temp (refusal?_of_file htemp)).trans halike
    exact hunbound.bind_data (unbind_ne_missing hthere _) id _

/-- A whole write fails if something is in its way, and makes no difference then. -/
theorem runAll_of_not_writable (h : ¬ d.Writable id) (pieces : List (List UInt8)) :
    ∃ d', runAll id d (preparing pieces ++ [.rename]) = (d', .error .io) ∧ d'.Alike d := by
  by_cases hstart : d ≠ missing ∧ d.refusal? (tempName id) = none
  · obtain ⟨hthere, htemp⟩ := hstart
    obtain ⟨e, hdata⟩ : ∃ e, d.refusal? (dataName id) = some e :=
      Option.ne_none_iff_exists'.mp fun hdata => h ⟨hthere, htemp, hdata⟩
    obtain ⟨d₁, hprepared, halike, hfind⟩ := runAll_preparing hthere htemp pieces
    refine ⟨d₁, ?_, halike⟩
    rw [runAll_append_of_ok _ hprepared, runAll, run, Directory.rename, hfind]
    dsimp only
    rw [(refusal?_congr (halike.data id)).trans hdata]
  · have hcreate : ∃ e, create.run id d = .error e := by
      rw [run, Directory.create]
      by_cases hthere : d = missing
      · exact ⟨.notFound, by rw [hthere]; rfl⟩
      · obtain ⟨e, htemp⟩ : ∃ e, d.refusal? (tempName id) = some e :=
          Option.ne_none_iff_exists'.mp fun htemp => hstart ⟨hthere, htemp⟩
        obtain ⟨es, hes⟩ := ne_missing_iff.mp hthere
        exact ⟨e, by rw [if_neg (by simp [hes]), htemp]⟩
    obtain ⟨e, he⟩ := hcreate
    refine ⟨d, ?_, Alike.refl d⟩
    rw [preparing, List.cons_append, List.cons_append, runAll, he]

end PutStep

/-! ### Writes of a store -/

namespace FileStore

variable {d d' : Directory} {id : String}

/-- A write under an id that stops after these steps. -/
def putOf (s : FileStore) (id : String) (steps : List PutStep) :
    FileStore × Except RecoveryError Unit :=
  if isValidId id then
    let (d, r) := PutStep.runAll id s.directory steps
    (⟨d⟩, r)
  else (s, .error (.invalidId id))

theorem putOf_of_runAll {s : FileStore} {steps : List PutStep} {r : Except RecoveryError Unit}
    (hid : isValidId id = true) (hrun : PutStep.runAll id s.directory steps = (d', r)) :
    s.putOf id steps = (⟨d'⟩, r) := by
  rw [putOf, if_pos hid, hrun]

theorem put_eq_putOf (s : FileStore) (id text : String) :
    s.put id text = s.putOf id (PutStep.plan text) := rfl

/-- **With nothing in its way, a write succeeds and binds the data name to the text.** -/
theorem put_of_writable (hid : isValidId id = true) (h : d.Writable id) (text : String) :
    ∃ d', (⟨d⟩ : FileStore).put id text = (⟨d'⟩, .ok ()) ∧
      d'.Alike (d.bindEntry (dataName id) (.file (Utf8.encode text.toList))) := by
  obtain ⟨d', hrun, halike⟩ := PutStep.runAll_of_writable h [Utf8.encode text.toList]
  rw [List.flatten_singleton] at halike
  exact ⟨d', putOf_of_runAll hid hrun, halike⟩

/-- With something in its way, a write fails and makes no difference. -/
theorem put_of_not_writable (hid : isValidId id = true) (h : ¬ d.Writable id) (text : String) :
    ∃ d', (⟨d⟩ : FileStore).put id text = (⟨d'⟩, .error .io) ∧ d'.Alike d := by
  obtain ⟨d', hrun, halike⟩ := PutStep.runAll_of_not_writable h [Utf8.encode text.toList]
  exact ⟨d', putOf_of_runAll hid hrun, halike⟩

end FileStore

/-! ### Directories that are alike answer alike -/

namespace Directory

variable {d d' : Directory}

theorem Alike.put (h : d.Alike d') (id text : String) :
    ((⟨d⟩ : FileStore).put id text).2 = ((⟨d'⟩ : FileStore).put id text).2 ∧
      ((⟨d⟩ : FileStore).put id text).1.directory.Alike
        ((⟨d'⟩ : FileStore).put id text).1.directory := by
  by_cases hid : isValidId id = true
  · by_cases hd : d.Writable id
    · obtain ⟨d₁, hput, halike⟩ := put_of_writable hid hd text
      obtain ⟨d₁', hput', halike'⟩ := put_of_writable hid (h.writable hd) text
      rw [hput, hput']
      exact ⟨rfl, halike.trans ((h.bind_data hd.there id _).trans halike'.symm)⟩
    · obtain ⟨d₁, hput, halike⟩ := put_of_not_writable hid hd text
      obtain ⟨d₁', hput', halike'⟩ :=
        put_of_not_writable hid (fun hd' => hd (h.symm.writable hd')) text
      rw [hput, hput']
      exact ⟨rfl, halike.trans (h.trans halike'.symm)⟩
  · rw [put_of_invalid hid, put_of_invalid hid]
    exact ⟨rfl, h⟩

theorem Alike.remove (h : d.Alike d') (id : String) :
    ((⟨d⟩ : FileStore).remove id).2 = ((⟨d'⟩ : FileStore).remove id).2 ∧
      ((⟨d⟩ : FileStore).remove id).1.directory.Alike
        ((⟨d'⟩ : FileStore).remove id).1.directory := by
  by_cases hid : isValidId id = true
  · have hrefusal := refusal?_congr (h.data id)
    by_cases hfree : d.refusal? (dataName id) = none
    · by_cases hnone : d.find? (dataName id) = none
      · rw [remove_of_none hid hnone, remove_of_none hid ((h.data id).symm.trans hnone)]
        exact ⟨rfl, h⟩
      · rw [remove_of_free hid hnone hfree,
          remove_of_free hid (h.data id ▸ hnone) (hrefusal.symm.trans hfree)]
        exact ⟨rfl, h.unbind_data id⟩
    · rw [remove_of_refused hid hfree, remove_of_refused hid (hrefusal ▸ hfree)]
      exact ⟨rfl, h⟩
  · rw [remove_of_invalid hid, remove_of_invalid hid]
    exact ⟨rfl, h⟩

theorem Alike.recover_eq (h : d.Alike d') :
    recoverPartialResponses (⟨d⟩ : FileStore) = recoverPartialResponses (⟨d'⟩ : FileStore) :=
  recover_congr h.list_eq h.get_eq

theorem Alike.openIn (h : d.Alike d') : (openIn d).directory.Alike (openIn d').directory := by
  by_cases hd : d = missing
  · rw [hd, h.there.mp hd]
    exact Alike.refl _
  · rw [openIn_of_there hd, openIn_of_there fun hd' => hd (h.there.mpr hd')]
    exact h

/-- Each call is answered alike in directories that are alike, and leaves them alike. -/
theorem Alike.ask {s t : FileStore} (h : s.directory.Alike t.directory) (c : StoreCall) :
    (FileStore.ask s c).2 = (FileStore.ask t c).2 ∧
      (FileStore.ask s c).1.directory.Alike (FileStore.ask t c).1.directory := by
  cases c with
  | put id text => exact ⟨congrArg StoreAnswer.done (h.put id text).1, (h.put id text).2⟩
  | get id => exact ⟨congrArg StoreAnswer.text (h.get_eq id), h⟩
  | remove id => exact ⟨congrArg StoreAnswer.done (h.remove id).1, (h.remove id).2⟩
  | list => exact ⟨congrArg StoreAnswer.ids h.list_eq, h⟩
  | recover => exact ⟨congrArg StoreAnswer.texts h.recover_eq, h⟩
  | reopen => exact ⟨rfl, h.openIn⟩

/-- **Directories that are alike cannot be told apart by any calls.** -/
theorem Alike.answers_eq {s t : FileStore} (h : s.directory.Alike t.directory)
    (calls : List StoreCall) : answers FileStore.ask s calls = answers FileStore.ask t calls :=
  (answers_eq_of_step (R := fun s t : FileStore => s.directory.Alike t.directory)
    (A := fun _ => True) (fun c hR _ => hR.ask c) (fun _ _ => trivial) h).1

end Directory

/-! ### Interruptions -/

namespace FileStore

/-- The store without a temporary file under this id. -/
def sweep (s : FileStore) (id : String) : FileStore :=
  match s.directory.unlink (tempName id) with
  | .ok d => ⟨d⟩
  | .error _ => s

theorem sweep_alike (s : FileStore) (id : String) : (s.sweep id).directory.Alike s.directory := by
  unfold sweep unlink
  by_cases hnone : s.directory.find? (tempName id) = none
  · rw [if_pos hnone]
    exact Alike.refl _
  · rw [if_neg hnone]
    cases hfree : s.directory.refusal? (tempName id) with
    | none => exact Alike.unbind_temp hfree
    | some e => exact Alike.refl _

/-- The store answers as the one before. -/
structure AsBefore (s s' : FileStore) : Prop where
  get : ∀ id, s'.get id = s.get id
  list : s'.list = s.list
  recover : recoverPartialResponses s' = recoverPartialResponses s

/-- The store answers as the one before, but for a text under this id. -/
structure Replaced (s s' : FileStore) (id text : String) : Prop extends Replaces s s' id text where
  recover : ∀ {texts}, recoverPartialResponses s = .ok texts →
    recoverPartialResponses s' = .ok (texts.insert id text)
  /-- The only error that can go away is that of the id itself. -/
  recover_error : ∀ {e}, recoverPartialResponses s = .error e →
    s.get id = .error e ∨ recoverPartialResponses s' = .error e
  recovered : ∀ {texts}, recoverPartialResponses s' = .ok texts → ∀ other,
    texts.get? other = if other = id then some text else storedText s other

theorem asBefore_of_alike {s s' : FileStore} (h : s'.directory.Alike s.directory) :
    s.AsBefore s' where
  get := h.get_eq
  list := h.list_eq
  recover := h.recover_eq

/-- An id that is not shown has no text. -/
theorem storedText_of_not_shown {s : FileStore} {id : String} (h : ¬ s.Shown id) :
    storedText s id = none := by
  by_cases hid : isValidId id = true
  · have hnone : s.directory.find? (dataName id) = none :=
      Option.not_isSome_iff_eq_none.mp fun hsome => h ⟨head?_dataName_of_valid hid, hsome⟩
    have hget : RecoveryStore.get s id = .ok none := get_of_none hid hnone
    rw [storedText, hget]
  · have hget : RecoveryStore.get s id = .error (.invalidId id) := get_of_invalid hid s
    rw [storedText, hget]

/-- A data name that is bound to a text shows that text, and changes nothing else. -/
theorem replaces_of_alike {s s' : FileStore} {id text : String} (hid : isValidId id = true)
    (hthere : s.directory ≠ missing)
    (h : s'.directory.Alike
      (s.directory.bindEntry (dataName id) (.file (Utf8.encode text.toList)))) :
    Replaces s s' id text := by
  have hdata : ∀ other, s'.directory.find? (dataName other) =
      if other = id then some (.file (Utf8.encode text.toList))
      else s.directory.find? (dataName other) := fun other => by
    simp only [h.data other, find?_bindEntry hthere, dataName_inj]
  have hthere' : s'.directory ≠ missing := fun hm =>
    bindEntry_ne_missing hthere _ _ (h.there.mp hm)
  obtain ⟨ids, hids, hasc, hmem⟩ := list_of_there hthere
  obtain ⟨ids', hids', hasc', hmem'⟩ := list_of_there hthere'
  refine ⟨get_of_file hid (by rw [hdata, if_pos rfl]),
    fun other hne => get_congr (by rw [hdata, if_neg hne]),
    ⟨ids, ids', hids, hids', hasc, hasc', fun other => ?_⟩⟩
  rw [hmem', hmem, Shown, Shown, hdata]
  by_cases hother : other = id
  · simp [hother, head?_dataName_of_valid hid]
  · simp [hother]

theorem replaced_of_replaces {s s' : FileStore} {id text : String} (h : Replaces s s' id text)
    (hthere : s.directory ≠ missing) : s.Replaced s' id text := by
  obtain ⟨ids, hids, -, hmem⟩ := list_of_there hthere
  refine ⟨h, fun hok => h.recover hok, fun herr => h.recover_error herr, fun hok other => ?_⟩
  rw [h.recovered hok hids other]
  by_cases hlisted : other ∈ ids
  · rw [if_pos hlisted]
  · rw [if_neg hlisted, storedText_of_not_shown fun hshown => hlisted ((hmem other).mpr hshown)]

/-- The write came to the renaming, and that succeeded. -/
def Renamed (s : FileStore) (id : String) (steps : List PutStep) : Prop :=
  .rename ∈ steps ∧ (s.putOf id steps).2 = .ok ()

/-- Wherever a write stops, its data name is bound to the text or the directory is as before. -/
theorem putOf_alike (s : FileStore) (id : String) {text : String} {steps : List PutStep}
    (h : PutStep.Begins text steps) :
    (s.Renamed id steps ∧ isValidId id = true ∧ s.directory ≠ missing ∧
      (s.putOf id steps).1.directory.Alike
        (s.directory.bindEntry (dataName id) (.file (Utf8.encode text.toList)))) ∨
    (¬ s.Renamed id steps ∧ (s.putOf id steps).1.directory.Alike s.directory) := by
  obtain ⟨pieces, htext, hbegins⟩ := h
  unfold Renamed
  by_cases hid : isValidId id = true
  · -- The steps are all there are, or the renaming is not among them.
    rcases List.prefix_concat_iff.mp hbegins with rfl | hprepared
    · by_cases hw : s.directory.Writable id
      · obtain ⟨d', hrun, halike⟩ := PutStep.runAll_of_writable hw pieces
        rw [htext] at halike
        rw [putOf_of_runAll hid hrun]
        exact .inl ⟨⟨by simp, rfl⟩, hid, hw.there, halike⟩
      · obtain ⟨d', hrun, halike⟩ := PutStep.runAll_of_not_writable hw pieces
        rw [putOf_of_runAll hid hrun]
        exact .inr ⟨fun hdone => (nomatch hdone.2), halike⟩
    · have hnot : .rename ∉ steps := fun hmem =>
        PutStep.rename_not_mem_preparing pieces (hprepared.subset hmem)
      rw [putOf_of_runAll hid rfl]
      exact .inr ⟨fun hdone => hnot hdone.1, PutStep.runAll_alike hnot⟩
  · rw [putOf, if_neg hid]
    exact .inr ⟨fun hdone => (nomatch hdone.2), Alike.refl _⟩

/-- **A write that stops anywhere leaves all answers as they were, unless the renaming was done;
then the text is replaced. Either way no later answer depends on a temporary file it left
behind.** -/
theorem interrupted_put (s : FileStore) (id text : String) {steps : List PutStep}
    (h : PutStep.Begins text steps) :
    (s.put id text = s.putOf id (PutStep.plan text) ∧ PutStep.Begins text (PutStep.plan text)) ∧
    (s.Renamed id steps → s.Replaced (s.putOf id steps).1 id text) ∧
    (¬ s.Renamed id steps → s.AsBefore (s.putOf id steps).1) ∧
    ∀ calls, answers ask (s.putOf id steps).1 calls =
      answers ask ((s.putOf id steps).1.sweep id) calls := by
  refine ⟨⟨put_eq_putOf s id text, PutStep.begins_plan text⟩, ?_, ?_,
    fun calls => (sweep_alike _ id).symm.answers_eq calls⟩
  · intro hdone
    rcases putOf_alike s id h with ⟨-, hid, hthere, halike⟩ | ⟨hnot, -⟩
    · exact replaced_of_replaces (replaces_of_alike hid hthere halike) hthere
    · exact absurd hdone hnot
  · intro hnot
    rcases putOf_alike s id h with ⟨hdone, -⟩ | ⟨-, halike⟩
    · exact absurd hdone hnot
    · exact asBefore_of_alike halike

/-- The new text of an id that has one: the write stops after its first letter, or is done. -/
theorem interrupted_put_over_old_text :
    PutStep.Begins "no" [.create, .write [110]] ∧
    ((openIn .empty).put "x" "old").1.AsBefore
      (((openIn .empty).put "x" "old").1.putOf "x" [.create, .write [110]]).1 ∧
    ((openIn .empty).put "x" "old").1.Replaced
      (((openIn .empty).put "x" "old").1.putOf "x" (PutStep.plan "no")).1 "x" "no" := by
  have hbegins : PutStep.Begins "no" [.create, .write [110]] :=
    ⟨[[110], [111]], by decide, by decide⟩
  exact ⟨hbegins,
    (interrupted_put _ "x" "no" hbegins).2.2.1 fun hdone => absurd hdone.1 (by decide),
    (interrupted_put _ "x" "no" (PutStep.begins_plan "no")).2.1 ⟨by decide, by rfl⟩⟩

end FileStore
end LanInference
