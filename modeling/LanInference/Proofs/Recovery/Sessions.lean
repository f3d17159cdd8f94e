/-
# What a session leaves in a recovery directory

All writes of a session are under its own id. So with nothing in their way the directory is, at
every moment, what it was with the data name of that id bound to the session's entry, or unbound
where there is none; and a session with an id that is new leaves an entry with its text if its
answer was a success and ended with an error, and the directory as it was otherwise.

Key definitions: `Directory.withText`, `FileStore.TakesNew`, `FileStore.Carries`.
Key theorems: `FileStore.apply_withText`, `FileStore.isValidId_text`, `FileStore.Carries.record`,
`FileStore.ingest_alike`.
-/
import LanInference.Proofs.Recovery.Writes
import LanInference.Proofs.Stream.Alone
import LanInference.Proofs.Text.Digits

namespace LanInference

open FileStore Directory

/-! ### Entries of one id -/

/-- The directory with this text under an id, or with none. -/
def Directory.withText (d : Directory) (id : String) : Option String → Directory
  | some text => d.bindEntry (dataName id) (.file (Utf8.encode text.toList))
  | none => d.unbind (dataName id)

namespace Directory

variable {d d' : Directory} {id : String}

theorem withText_ne_missing (hd : d ≠ missing) (id : String) (e : Option String) :
    d.withText id e ≠ missing := by
  cases e with
  | none => exact unbind_ne_missing hd _
  | some text => exact bindEntry_ne_missing hd _ _

theorem find?_withText (hd : d ≠ missing) (id : String) (e : Option String) (name : String) :
    (d.withText id e).find? name =
      if name = dataName id then e.map fun text => .file (Utf8.encode text.toList)
      else d.find? name := by
  cases e with
  | none => exact find?_unbind d _ name
  | some text => exact find?_bindEntry hd _ _ name

theorem Alike.withText (h : d.Alike d') (hd : d ≠ missing) (id : String) (e : Option String) :
    (d.withText id e).Alike (d'.withText id e) := by
  cases e with
  | none => exact h.unbind_data id
  | some text => exact h.bind_data hd id _

/-- What is in a directory is seen through its names. -/
theorem alike_of_find? (hd : d ≠ missing) (hd' : d' ≠ missing)
    (h : ∀ name, d.find? name = d'.find? name) : d.Alike d' where
  there := ⟨fun hm => absurd hm hd, fun hm => absurd hm hd'⟩
  data id := h (dataName id)
  temp id := by rw [refusal?_congr (h (tempName id))]

/-- Of two texts under one id the later one counts. -/
theorem withText_withText (hd : d ≠ missing) (id : String) (e e' : Option String) :
    ((d.withText id e).withText id e').Alike (d.withText id e') := by
  have hd₁ := withText_ne_missing hd id e
  refine alike_of_find? (withText_ne_missing hd₁ id e') (withText_ne_missing hd id e')
    fun name => ?_
  rw [find?_withText hd₁, find?_withText hd, find?_withText hd]
  by_cases hname : name = dataName id
  · rw [if_pos hname, if_pos hname]
  · rw [if_neg hname, if_neg hname, if_neg hname]

/-- An id without a data file has no text. -/
theorem alike_withText_none (hd : d ≠ missing) (h : d.find? (dataName id) = none) :
    d.Alike (d.withText id none) := by
  refine alike_of_find? hd (withText_ne_missing hd id none) fun name => ?_
  rw [find?_withText hd]
  by_cases hname : name = dataName id
  · rw [if_pos hname, hname, h]
    rfl
  · rw [if_neg hname]

theorem Writable.withText (h : d.Writable id) (e : Option String) :
    (d.withText id e).Writable id where
  there := withText_ne_missing h.there id e
  temp := by
    have htemp := find?_withText h.there id e (tempName id)
    rw [if_neg (dataName_ne_tempName id id).symm] at htemp
    exact (refusal?_congr htemp).trans h.temp
  data := by
    rw [refusal?, find?_withText h.there, if_pos rfl]
    cases e <;> rfl

end Directory

namespace FileStore

variable {d : Directory} {id : String}

/-- With nothing in its way a removal succeeds. -/
theorem remove_of_writable (hid : isValidId id = true) (h : d.Writable id) :
    ∃ d', (⟨d⟩ : FileStore).remove id = (⟨d'⟩, .ok ()) ∧ d'.Alike (d.withText id none) := by
  by_cases hnone : d.find? (dataName id) = none
  · exact ⟨d, remove_of_none hid hnone, alike_withText_none h.there hnone⟩
  · exact ⟨d.unbind (dataName id), remove_of_free hid hnone h.data, Alike.refl _⟩

/-- **A write leaves its entry,** in the place of the one that was there. -/
theorem apply_withText {s : FileStore} (hid : isValidId id = true) (hd : d.Writable id)
    {e : Option String} (h : s.directory.Alike (d.withText id e)) {op : StoreOp}
    (hop : op.id = id) : (op.apply s).1.directory.Alike (d.withText id op.entryAfter) := by
  have hw : s.directory.Writable id := h.symm.writable (hd.withText e)
  have hover : (s.directory.withText id op.entryAfter).Alike (d.withText id op.entryAfter) :=
    (h.withText hw.there id _).trans (withText_withText hd.there id e _)
  cases op with
  | put key text =>
    obtain rfl : key = id := hop
    obtain ⟨d', hput, halike⟩ := put_of_writable hid hw text
    have happly : (StoreOp.put key text).apply s = (⟨d'⟩, .ok ()) := hput
    rw [happly]
    exact halike.trans hover
  | remove key =>
    obtain rfl : key = id := hop
    obtain ⟨d', hremove, halike⟩ := remove_of_writable hid hw
    have happly : (StoreOp.remove key).apply s = (⟨d'⟩, .ok ()) := hremove
    rw [happly]
    exact halike.trans hover

/-! ### Sessions -/

/-- The text of a session id is an id that has files. -/
theorem isValidId_text (id : SessionId) : isValidId id.text = true := by
  generalize hds : Text.hexFixed 32 id.value.toNat = ds
  have hlen : ds.length = 32 := hds ▸ Text.length_hexFixed 32 _
  have hdigit : ∀ c ∈ ds, isIdChar c = true := by
    have hall : ∀ k : Fin 16, isIdChar (Text.hexChar k) = true := by decide
    intro c hc
    rw [← hds] at hc
    obtain ⟨k, hk, rfl⟩ := Text.exists_of_mem_hexFixed hc
    exact hall ⟨k, hk⟩
  have htext : id.text.toList = SessionId.hyphenated ds := by
    rw [SessionId.text, String.toList_ofList, hds]
  have hchars : (SessionId.hyphenated ds).all isIdChar = true := by
    rw [List.all_eq_true]
    intro c hc
    have hgroup : ∀ {k m : Nat}, c ∈ (ds.drop k).take m → isIdChar c = true := fun h =>
      hdigit c (List.mem_of_mem_drop (List.mem_of_mem_take h))
    simp only [SessionId.hyphenated, List.mem_append, List.mem_cons] at hc
    rcases hc with h | rfl | h | rfl | h | rfl | h | rfl | h
    · exact hdigit c (List.mem_of_mem_take h)
    · rfl
    · exact hgroup h
    · rfl
    · exact hgroup h
    · rfl
    · exact hgroup h
    · rfl
    · exact hdigit c (List.mem_of_mem_drop h)
  have hshort : (SessionId.hyphenated ds).length ≤ 128 := by
    simp [SessionId.hyphenated, hlen]
  have hne : SessionId.hyphenated ds ≠ [] := by simp [SessionId.hyphenated]
  simp only [isValidId, htext, hchars, hshort, hne, ne_eq, not_false_eq_true, decide_true,
    Bool.and_self]

/-- The session has recorded these events, and its entry is what they leave over this one. -/
structure Carries (d : Directory) (id : String) (base : Option String) (es : List Event)
    (p : Session × FileStore) : Prop where
  key_eq : p.1.key = id
  text_eq : p.1.text = deltaText es
  terminal_eq : p.1.terminal = es.any Event.isTerminal
  alike : p.2.directory.Alike (d.withText id (mirrored base es))

/-- One more event, if none before was terminal. -/
theorem Carries.record {base : Option String} {es : List Event} {p : Session × FileStore}
    (h : Carries d id base es p) (hid : isValidId id = true) (hd : d.Writable id)
    (hes : es.any Event.isTerminal = false) (e : Event) :
    Carries d id base (es ++ [e])
      ((p.1.record e).1, StoreOp.perform p.2 (p.1.record e).2) := by
  obtain ⟨hkey, htext, hterminal, halike⟩ := h
  obtain ⟨htext', hterminal', hop⟩ :=
    Session.record_kept e base (hterminal.trans hes) htext hes
  obtain ⟨hsame, -, hown⟩ := StreamTask.record_session_eq p.1 e
  refine ⟨(congrArg SessionId.text hsame).trans hkey, htext', ?_, ?_⟩
  · rw [hterminal', List.any_append, hes]
    simp
  · cases hw : (p.1.record e).2 with
    | none =>
      rw [hw] at hop
      rw [mirrored_concat_of_quiet base es hop.1 hop.2]
      exact halike
    | some op =>
      rw [hw] at hop hown
      rw [← hop.1]
      exact apply_withText hid hd halike ((hown op rfl).trans hkey)

theorem carries_deliver {base : Option String} {s : Session} {store : FileStore}
    (hid : isValidId id = true) (hd : d.Writable id) (h : Carries d id base [] (s, store)) :
    ∀ {es : List Event}, es.any Event.isTerminal = false →
      Carries d id base es (s.deliver store es) := by
  intro es
  induction es using List.reverseRecOn with
  | nil => exact fun _ => h
  | append_singleton es e ih =>
    intro hes
    rw [List.any_append, Bool.or_eq_false_iff] at hes
    rw [Session.deliver_concat]
    exact (ih hes.1).record hid hd hes.1 e

/-- Nothing is in the way of a session with this id, and it has no file yet. -/
structure TakesNew (s : FileStore) (id : SessionId) : Prop where
  writable : s.directory.Writable id.text
  new : s.directory.find? (dataName id.text) = none

theorem TakesNew.get_eq {s : FileStore} {id : SessionId} (h : s.TakesNew id) :
    s.get id.text = .ok none := get_of_none (isValidId_text id) h.new

theorem TakesNew.hasEntry_eq {s : FileStore} {id : SessionId} (h : s.TakesNew id) :
    hasEntry s id.text = false := by
  have hget : RecoveryStore.get s id.text = .ok none := h.get_eq
  rw [hasEntry, hget]

/-- **What an answer leaves under a new id:** what its events leave over the mark of a success. -/
theorem ingest_alike {store : FileStore} {s : Session} (h : store.TakesNew s.id)
    (htext : s.text = "") (hterminal : s.terminal = false) (answer : Answer) :
    (ingest store s ⟨answer.reply, answer.body⟩).2.directory.Alike
      (store.directory.withText s.key (mirrored
        (if answer.reply.isSuccess then some "" else none) (answer.events s.format))) := by
  have hnone := alike_withText_none h.writable.there h.new
  have hmarked : (s.marked store answer.reply.isSuccess).directory.Alike
      (store.directory.withText s.key (if answer.reply.isSuccess then some "" else none)) := by
    unfold Session.marked
    cases answer.reply.isSuccess with
    | false => exact hnone
    | true =>
      have hput : (s.save.apply store).1.directory.Alike
          (store.directory.withText s.key s.save.entryAfter) :=
        apply_withText (isValidId_text s.id) h.writable hnone rfl
      have hentry : s.save.entryAfter = some "" := congrArg some htext
      have hmark : StoreOp.perform store (s.openEntry false) = (s.save.apply store).1 := rfl
      rw [if_pos rfl, if_pos rfl, Session.key, h.hasEntry_eq, hmark, ← hentry]
      exact hput
  obtain ⟨init, e, hes, he, hinit⟩ := answer.finished_events s.format
  have hopen : init.any Event.isTerminal = false := by simpa using hinit
  have hcarries := carries_deliver (isValidId_text s.id) h.writable
    ⟨rfl, htext, hterminal, hmarked⟩ hopen
  rw [ingest_eq, hes, Session.deliver_concat]
  exact (hcarries.record (isValidId_text s.id) h.writable hopen e).alike

end FileStore
end LanInference
