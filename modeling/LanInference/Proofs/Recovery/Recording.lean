/-
# What a session leaves in a store

A session marks its id in the store, unless the store has an entry for it, and then records events
and has their writes done one by one. Whatever the events are, those after the first terminal one
do not count: the entry is gone if that one is `done`, and otherwise it is the text of the deltas
before it, or what was there as long as there is none. Nothing else in the store is touched.

Key definition: `Session.Recorded`.
Key theorems: `Session.record_of_terminal`, `Session.recorded_opened`, `Session.Recorded.record`,
`Session.mirrors_recorded`.
-/
import LanInference.Proofs.Stream.Alone

namespace LanInference
namespace Session

variable {σ : Type} [RecoveryStore σ] {good : σ → Prop} {store : σ} {s : Session}
  {es : List Event} {p : Session × σ}

/-- A session that has come to its end records nothing more. -/
theorem record_of_terminal (h : s.terminal = true) (e : Event) : s.record e = (s, none) := by
  unfold record
  rw [if_pos h]

/-- What a session that was opened over a store has come to with these events. -/
structure Recorded (good : σ → Prop) (store : σ) (s : Session) (es : List Event)
    (p : Session × σ) : Prop where
  id_eq : p.1.id = s.id
  text_eq : p.1.text = deltaText (throughTerminal es)
  terminal_eq : p.1.terminal = es.any Event.isTerminal
  store_good : good p.2
  entry_eq : storedText p.2 s.key =
    mirrored (some ((storedText store s.key).getD "")) (throughTerminal es)
  frame : ∀ {other : String}, other ≠ s.key →
    RecoveryStore.get p.2 other = RecoveryStore.get store other

/-- A write under the session's key changes the entry, and leaves what is under other keys. -/
theorem write_eq (hrel : Reliable good) (hframe : Framed good) (hstore : good store) {op : StoreOp}
    (hop : op.id = s.key) : good (op.apply store).1 ∧
      storedText (op.apply store).1 s.key = op.entryAfter ∧
      ∀ {other : String}, other ≠ s.key →
        RecoveryStore.get (op.apply store).1 other = RecoveryStore.get store other := by
  obtain ⟨store', happly, hgood, hentry⟩ := hrel.apply hstore s.id hop
  have hself := hentry s.id
  rw [if_pos rfl] at hself
  refine ⟨?_, ?_, ?_⟩
  · rw [happly]
    exact hgood
  · rw [happly]
    exact hself
  · intro other hother
    exact hframe.apply hstore hop hother

/-- A new session is marked, or finds the entry of an earlier one. -/
theorem recorded_opened (hrel : Reliable good) (hframe : Framed good) (hstore : good store)
    (htext : s.text = "") (hterminal : s.terminal = false) :
    Recorded good store s []
      (s, StoreOp.perform store (s.openEntry (hasEntry store s.key))) := by
  have hfound := hasEntry_eq store s.key
  cases hprior : storedText store s.key with
  | some text =>
    have hopen : s.openEntry (hasEntry store s.key) = none := by
      rw [hfound, hprior]
      rfl
    rw [hopen]
    refine ⟨rfl, htext, hterminal, hstore, ?_, fun _ => rfl⟩
    show storedText store s.key = some ((storedText store s.key).getD "")
    rw [hprior]
    rfl
  | none =>
    have hopen : s.openEntry (hasEntry store s.key) = some s.save := by
      rw [hfound, hprior]
      rfl
    have hkey : s.save.id = s.key := rfl
    obtain ⟨hgood, hentry, hothers⟩ := write_eq hrel hframe hstore hkey
    have hmark : s.save.entryAfter = some "" := congrArg some htext
    rw [hopen]
    refine ⟨rfl, htext, hterminal, hgood, ?_, hothers⟩
    rw [hprior]
    exact hentry.trans hmark

/-- One more event. Behind a terminal one it changes nothing. -/
theorem Recorded.record (h : Recorded good store s es p) (hrel : Reliable good)
    (hframe : Framed good) (e : Event) : Recorded good store s (es ++ [e])
      ((p.1.record e).1, StoreOp.perform p.2 (p.1.record e).2) := by
  have hany : (es ++ [e]).any Event.isTerminal = (es.any Event.isTerminal || e.isTerminal) := by
    simp
  have hseen := throughTerminal_append es [e]
  cases hterminal : es.any Event.isTerminal with
  | true =>
    have hquiet := record_of_terminal (h.terminal_eq.trans hterminal) e
    rw [if_pos hterminal] at hseen
    rw [hquiet]
    refine ⟨h.id_eq, ?_, ?_, h.store_good, ?_, h.frame⟩
    · rw [hseen]
      exact h.text_eq
    · rw [hany, hterminal]
      exact h.terminal_eq.trans hterminal
    · rw [hseen]
      exact h.entry_eq
  | false =>
    have hone : throughTerminal [e] = [e] := by
      cases he : e.isTerminal <;> simp [throughTerminal, he]
    have hall := throughTerminal_of_any_eq_false hterminal
    rw [if_neg (by simp [hterminal]), hone] at hseen
    have htext := h.text_eq
    have hentry := h.entry_eq
    rw [hall] at htext hentry
    have hopen : p.1.terminal = false := h.terminal_eq.trans hterminal
    obtain ⟨htext', hterminal', hop⟩ := record_kept e
      (some ((storedText store s.key).getD "")) hopen htext hterminal
    obtain ⟨hid, -, hown⟩ := StreamTask.record_session_eq p.1 e
    have hkey : p.1.key = s.key := congrArg SessionId.text h.id_eq
    have hend : (p.1.record e).1.terminal = (es ++ [e]).any Event.isTerminal := by
      rw [hterminal', hany, hterminal, Bool.false_or]
    rw [← hseen] at htext'
    cases hw : (p.1.record e).2 with
    | none =>
      rw [hw] at hop
      refine ⟨hid.trans h.id_eq, htext', hend, h.store_good, ?_, h.frame⟩
      rw [hseen, mirrored_concat_of_quiet _ es hop.1 hop.2]
      exact hentry
    | some op =>
      rw [hw] at hop hown
      have hop' : op.id = s.key := (hown op rfl).trans hkey
      obtain ⟨hgood, hself, hothers⟩ := write_eq hrel hframe h.store_good hop'
      refine ⟨hid.trans h.id_eq, htext', hend, hgood, ?_, ?_⟩
      · rw [hseen]
        exact hself.trans hop.1
      · intro other hother
        exact (hothers hother).trans (h.frame hother)

theorem recorded_deliver (hrel : Reliable good) (hframe : Framed good) (hstore : good store)
    (htext : s.text = "") (hterminal : s.terminal = false) (es : List Event) :
    Recorded good store s es
      (s.deliver (StoreOp.perform store (s.openEntry (hasEntry store s.key))) es) := by
  induction es using List.reverseRecOn with
  | nil => exact recorded_opened hrel hframe hstore htext hterminal
  | append_singleton es e ih =>
    rw [deliver_concat]
    exact ih.record hrel hframe e

/-- **The entry of a session mirrors what it has recorded.** Over a store whose operations succeed,
whatever the store had: once a new session is opened and has recorded any events, its entry is gone
if the first terminal event was `done`; otherwise it is the text of the deltas up to that event, and
without a delta the old text, or an empty one if there was none. The text of the session is that of
those deltas, what is under other keys is as it was, and after a terminal event no event calls for a
write or changes the session. -/
theorem mirrors_recorded (hrel : Reliable good) (hframe : Framed good) (hstore : good store)
    (id : SessionId) (url : String) (format : WireFormat) (es : List Event) :
    let s : Session := { id, url, format }
    let p := s.deliver (StoreOp.perform store (s.openEntry (hasEntry store s.key))) es
    let counted := throughTerminal es
    RecoveryStore.get p.2 s.key = .ok (
      if .done ∈ counted then none
      else if counted.any Event.isDelta then some (deltaText counted)
      else some ((storedText store s.key).getD "")) ∧
    p.1.text = deltaText counted ∧
    (∀ other, other ≠ s.key → RecoveryStore.get p.2 other = RecoveryStore.get store other) ∧
    (es.any Event.isTerminal = true → ∀ e, p.1.record e = (p.1, none)) := by
  intro s p counted
  have h : Recorded good store s es p := recorded_deliver hrel hframe hstore rfl rfl es
  refine ⟨?_, h.text_eq, fun other hother => h.frame hother, ?_⟩
  · rw [Session.key, hrel.get_ok h.store_good]
    exact congrArg Except.ok h.entry_eq
  · intro hterminal e
    exact record_of_terminal (h.terminal_eq.trans hterminal) e

/-- A store with the text of an earlier session, and another entry. -/
def earlierStore : MemoryStore :=
  ⟨(OrderedMap.empty.insert "notes" "kept").insert (SessionId.mk 1).text "earlier"⟩

/-- A pull that breaks after a delta, and two events that come too late. -/
def brokenEvents : List Event :=
  [.progress { status := "pulling" }, .delta "new", .error (.status 500), .delta "late", .done]

/-- The delta has replaced the earlier text, and what came too late has changed nothing. -/
theorem mirrors_recorded_brokenEvents :
    let s : Session := { id := ⟨1⟩, url := "http://h/api/pull", format := .ndjson }
    let p := s.deliver
      (StoreOp.perform earlierStore (s.openEntry (hasEntry earlierStore s.key))) brokenEvents
    RecoveryStore.get p.2 s.key = .ok (some "new") ∧ p.1.text = "new" ∧
      RecoveryStore.get p.2 "notes" = .ok (some "kept") ∧ p.1.record .done = (p.1, none) := by
  have hstore : (fun _ : MemoryStore => True) earlierStore := trivial
  obtain ⟨hentry, htext, hframe, hquiet⟩ := mirrors_recorded reliable_memoryStore
    framed_memoryStore hstore ⟨1⟩ "http://h/api/pull" .ndjson brokenEvents
  exact ⟨hentry, htext, hframe "notes" (by decide), hquiet rfl .done⟩

end Session
end LanInference
