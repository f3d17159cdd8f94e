/-
# What a command shows is what is kept

A chat or a pull shows the text of its stream as it comes, while the stream keeps it in the recovery
store, in another place and at other moments. At the end the two agree for every answer: what was
shown is the text of the deltas and a newline; the exit is a success if the stream was done; and the
directory has one entry more exactly if a success ended with an error, under the id that the error
names and with the text that was shown.

Key definitions: `Outcome.Shows`, `Surroundings.heard`, `Surroundings.ShownAndKept`.
Key theorems: `Outcome.showEvents_append`, `Outcome.shows_ofEvents`, `Surroundings.stream_eq`,
`Surroundings.shown_and_kept`.
-/
import LanInference.CommandLine.Commands
import LanInference.Proofs.Recovery.Sessions

namespace LanInference

open FileStore Directory

/-! ### What is shown of events -/

namespace Outcome

variable {id : SessionId}

/-- Events that are not terminal are shown one after the other. -/
theorem showEvents_append {init : List Event} (o : Outcome) (es : List Event)
    (h : init.any Event.isTerminal = false) :
    showEvents id o (init ++ es) = showEvents id (showEvents id o init) es := by
  induction init generalizing o with
  | nil => rfl
  | cons e init ih =>
    rw [List.any_cons, Bool.or_eq_false_iff] at h
    cases e with
    | delta text => exact ih _ h.2
    | progress p => exact ih _ h.2
    | done => cases h.1
    | error err => cases h.1

/-- As long as they are not terminal, the text of events goes to the output. -/
theorem showEvents_open {init : List Event} (o : Outcome)
    (h : init.any Event.isTerminal = false) :
    (showEvents id o init).out = o.out ++ deltaText init ∧
      (showEvents id o init).code = o.code := by
  induction init generalizing o with
  | nil => exact ⟨String.append_empty.symm, rfl⟩
  | cons e init ih =>
    rw [List.any_cons, Bool.or_eq_false_iff] at h
    rw [deltaText_cons]
    cases e with
    | delta text =>
      obtain ⟨hout, hcode⟩ := ih { o with out := o.out ++ text } h.2
      exact ⟨hout.trans (String.append_assoc ..), hcode⟩
    | progress p =>
      obtain ⟨hout, hcode⟩ := ih { o with err := o.err ++ p.line ++ "\n" } h.2
      have htext : (Event.progress p).text = "" := rfl
      exact ⟨hout.trans (by rw [htext, String.empty_append]), hcode⟩
    | done => cases h.1
    | error err => cases h.1

theorem fail_eq (o : Outcome) {e : CommandError} (h : e.cause? = none) :
    o.fail e = ⟨1, o.out, o.err ++ "Error: " ++ e.message ++ "\n"⟩ := by
  rw [fail, h]
  dsimp only
  rw [String.append_empty]

/-- What is shown of a stream that has come to its end. -/
structure Shows (o : Outcome) (id : SessionId) (es : List Event) : Prop where
  out_eq : o.out = deltaText es ++ "\n"
  code_eq_zero_iff : o.code = 0 ↔ es.getLast? = some .done
  named : ∀ {e}, es.getLast? = some (.error e) → ∃ before,
    o.err = before ++ "Error: " ++ ("stream " ++ id.text ++ " failed: " ++ e.message) ++ "\n"

theorem shows_ofEvents {es : List Event} (h : Finished es) : (ofEvents id es).Shows id es := by
  obtain ⟨init, e, rfl, he, hinit⟩ := h
  have hopen : init.any Event.isTerminal = false := by simpa using hinit
  obtain ⟨hout, hcode⟩ : (showEvents id {} init).out = "" ++ deltaText init ∧
      (showEvents id {} init).code = 0 := showEvents_open {} hopen
  rw [String.empty_append] at hout
  have htext : e.text = "" := by
    cases e with
    | delta text => cases he
    | _ => rfl
  rw [ofEvents, showEvents_append {} [e] hopen]
  generalize showEvents id {} init = o at hout hcode
  have hall : o.out ++ "\n" = deltaText (init ++ [e]) ++ "\n" := by
    rw [hout, deltaText_concat, htext, String.append_empty]
  cases e with
  | delta text => cases he
  | progress p => cases he
  | done =>
    have hdone : showEvents id o [.done] = { o with out := o.out ++ "\n" } := by rw [showEvents]
    rw [hdone]
    exact ⟨hall, by simp [hcode], by simp⟩
  | error err =>
    have herror : showEvents id o [.error err] =
        { o with out := o.out ++ "\n" }.fail (.stream id err) := by rw [showEvents]
    have hmessage : (CommandError.stream id err).message =
        "stream " ++ id.text ++ " failed: " ++ err.message := rfl
    rw [herror, fail_eq _ rfl, hmessage]
    refine ⟨hall, by simp, fun {e'} he' => ⟨o.err, ?_⟩⟩
    obtain rfl : err = e' := by simpa using he'
    rfl

end Outcome

/-! ### Commands that open a stream -/

namespace Surroundings

variable {w : Surroundings} {i : Invocation} {r : StreamRequest} {answer : Answer}

/-- The answer that the stream of a command gets: none, if its request is not sent. -/
def heard (w : Surroundings) (r : StreamRequest) (answer : Answer) : Answer :=
  if r.http?.isSome ∧ w.reachable then answer else { answer with reply := .unsent "" }

/-- A stream is shown as it is ingested. It comes to its end, so that there is nothing left to
interrupt. -/
theorem stream_eq (hscript : w.script = ⟨answer.reply, answer.body⟩) :
    w.stream r =
      (Outcome.ofEvents r.id ((w.heard r answer).events r.format),
        (ingest (FileStore.openIn w.directory) r.session
          ⟨(w.heard r answer).reply, (w.heard r answer).body⟩).2.directory) := by
  have hheard : (if r.http?.isSome ∧ w.reachable then w.script
      else { w.script with reply := .unsent "" }) =
      ⟨(w.heard r answer).reply, (w.heard r answer).body⟩ := by
    unfold heard
    rw [hscript]
    split <;> rfl
  have hformat : r.session.format = r.format := rfl
  have hend := ((w.heard r answer).finished_events r.format).any
  unfold stream streamCommand
  dsimp only
  rw [hheard, ingest_eq, hformat]
  dsimp only
  rw [if_neg (by simp [hend])]

/-- What a command leaves that opens a stream: what was shown and what is kept agree. -/
structure ShownAndKept (before after : FileStore) (id : SessionId) (isSuccess : Bool)
    (es : List Event) (o : Outcome) : Prop where
  finished : Finished es
  shown : o.Shows id es
  /-- Before there is no entry under the id. -/
  new : before.get id.text = .ok none ∧ ∃ ids, before.list = .ok ids ∧ id.text ∉ ids
  /-- A success that ends with an error leaves the text that was shown. -/
  kept : isSuccess = true → ∀ {e}, es.getLast? = some (.error e) →
    before.Replaced after id.text (deltaText es)
  /-- Otherwise the directory answers as before. -/
  unkept : isSuccess = false ∨ es.getLast? = some .done → before.AsBefore after

/-- What a stream leaves over its mark that ends with an error is the text of its deltas. -/
theorem mirrored_of_error {es : List Event} (hes : Finished es) {e : StreamError}
    (hlast : es.getLast? = some (.error e)) : mirrored (some "") es = some (deltaText es) := by
  obtain ⟨init, last, rfl, hterminal, hinit⟩ := hes
  obtain rfl : last = .error e := by simpa using hlast
  have hdone : Event.done ∉ init ++ [.error e] := fun hmem => by
    rcases List.mem_append.mp hmem with h | h
    · exact absurd (hinit _ h) (by decide)
    · simp at h
  rw [mirrored, if_neg hdone]
  cases hdelta : (init ++ [Event.error e]).any Event.isDelta with
  | true => rfl
  | false => rw [deltaText_of_no_delta hdelta]; rfl

theorem shownAndKept_of_alike {before after : FileStore} {id : SessionId} {isSuccess : Bool}
    {es : List Event} (hnew : before.TakesNew id) (hes : Finished es)
    (hfail : isSuccess = false → ∃ e, es = [.error e])
    (h : after.directory.Alike (before.directory.withText id.text
      (mirrored (if isSuccess then some "" else none) es))) :
    ShownAndKept before after id isSuccess es (Outcome.ofEvents id es) := by
  have hthere := hnew.writable.there
  have hnone : ∀ {base : Option String}, mirrored base es = none →
      after.directory.Alike (before.directory.withText id.text (mirrored base es)) →
      before.AsBefore after := fun hm halike => by
    rw [hm] at halike
    exact asBefore_of_alike (halike.trans (alike_withText_none hthere hnew.new).symm)
  refine ⟨hes, Outcome.shows_ofEvents hes, ⟨hnew.get_eq, ?_⟩, fun hok e hlast => ?_, fun hor => ?_⟩
  · obtain ⟨ids, hids, -, hmem⟩ := list_of_there hthere
    refine ⟨ids, hids, fun hlisted => ?_⟩
    have hfound := ((hmem _).mp hlisted).2
    rw [hnew.new] at hfound
    cases hfound
  · rw [hok, if_pos rfl, mirrored_of_error hes hlast] at h
    exact replaced_of_replaces (replaces_of_alike (isValidId_text id) hthere h) hthere
  · cases hok : isSuccess with
    | false =>
      obtain ⟨e, rfl⟩ := hfail hok
      rw [hok] at h
      exact hnone rfl h
    | true =>
      rw [hok] at hor h
      have hdone : Event.done ∈ es := List.mem_of_getLast? (hor.resolve_left (by simp))
      exact hnone (if_pos hdone) h

/-- **What was shown is what is kept,** for every command that opens a stream, every answer to it
and every directory that lets it write. The directory before is the one that was given, or an empty
one where that is missing (`FileStore.directory_openIn`). And it is so however the engine went about
it: what the command shows and leaves is what any run of the engine shows and leaves that opens this
stream alone, once its reader has a terminal event. -/
theorem shown_and_kept (hr : w.request? i = some (.ok r))
    (hscript : w.script = ⟨answer.reply, answer.body⟩)
    (hnew : (FileStore.openIn w.directory).TakesNew r.id) :
    ShownAndKept (FileStore.openIn w.directory) ⟨(runCommand w i).2⟩ r.id
        (w.heard r answer).reply.isSuccess ((w.heard r answer).events r.format)
        (runCommand w i).1 ∧
      ∀ (as : List StreamAction) (s : StreamSystem FileStore) (t : StreamTask),
        ({ store := FileStore.openIn w.directory } : StreamSystem FileStore).run
          (.start r :: as) = some s →
        (∀ a ∈ as, ∀ q, a ≠ .start q) → s.tasks[0]? = some t → t.cancelled = false →
        signals 0 as <+: (w.heard r answer).signals →
        t.yielded.any Event.isTerminal = true →
        runCommand w i = (Outcome.ofEvents r.id t.yielded, s.store.directory) := by
  have hrun : runCommand w i = w.stream r := by
    unfold runCommand
    rw [hr]
  have halike := ingest_alike (s := r.session) hnew rfl rfl (w.heard r answer)
  rw [hrun, stream_eq hscript]
  refine ⟨shownAndKept_of_alike hnew ((w.heard r answer).finished_events r.format)
    (fun hfail => Answer.events_of_failure hfail r.format) halike, ?_⟩
  intro as s t hs has ht hc hheard hread
  have hingest := StreamSystem.ingest_of_run hs has ht hc hheard hread
  have hevents : (w.heard r answer).events r.format = t.yielded :=
    congrArg Prod.fst ((ingest_eq _ r.session _).symm.trans hingest)
  rw [hingest, hevents]

/-- A body that breaks off after one delta. -/
def cutBody : List UInt8 := bodyBytes [((Ndjson.messageTree "a").write, .newline)]

/-- A chat whose answer breaks off, beside the text of an earlier one. -/
def cutChat : Surroundings where
  settings := .defaults fun _ => none
  directory := Directory.empty.bindEntry "real.partial" (.file (Utf8.encode "ok".toList))
  newId := ⟨1⟩
  script := ⟨.status 200, [.chunk cutBody, .breaks "reset"]⟩

def cutAnswer : Answer := ⟨.status 200, [cutBody], .breaks "reset"⟩

def helloChat : Invocation := .chat (some "http://[::1]") .ollama "m" none none "hi"

def helloRequest : StreamRequest :=
  { id := ⟨1⟩, kind := .chat .ollama "m" [⟨.user, "hi"⟩], apiBase := "http://[::1]/api" }

/-- One way of the engine through that chat. -/
def cutRun : List StreamAction :=
  [.respond 0 (.status 200), .lookUp 0, .mark 0, .write 0, .receive 0 (.chunk cutBody), .record 0,
    .write 0, .send 0, .receive 0 (.breaks "reset"), .read 0, .record 0, .send 0, .read 0]

theorem takesNew_cutChat : (FileStore.openIn cutChat.directory).TakesNew helloRequest.id where
  writable := ⟨by decide +kernel, by decide +kernel, by decide +kernel⟩
  new := by decide +kernel

theorem heard_cutChat : cutChat.heard helloRequest cutAnswer = cutAnswer := by decide +kernel

theorem events_cutAnswer :
    cutAnswer.events .ndjson = [.delta "a", .error (.transport "reset")] := by decide +kernel

/-- The delta is shown, and kept beside the earlier text; and the engine's own way comes to the
same. -/
theorem shown_and_kept_of_cutChat :
    cutChat.request? helloChat = some (.ok helloRequest) ∧
      (FileStore.openIn cutChat.directory).TakesNew helloRequest.id ∧
      (runCommand cutChat helloChat).1 = ⟨1, "a\n",
        "Error: stream 00000000-0000-0000-0000-000000000001 failed: transport error: reset\n"⟩ ∧
      (FileStore.openIn cutChat.directory).Replaced ⟨(runCommand cutChat helloChat).2⟩
        helloRequest.id.text "a" ∧
      ∃ (s : StreamSystem FileStore) (t : StreamTask),
        ({ store := FileStore.openIn cutChat.directory } : StreamSystem FileStore).run
          (.start helloRequest :: cutRun) = some s ∧
        s.tasks[0]? = some t ∧
        runCommand cutChat helloChat =
          (Outcome.ofEvents helloRequest.id t.yielded, s.store.directory) := by
  have hr : cutChat.request? helloChat = some (.ok helloRequest) := by decide +kernel
  have hscript : cutChat.script = ⟨cutAnswer.reply, cutAnswer.body⟩ := by decide +kernel
  have hall := shown_and_kept hr hscript takesNew_cutChat
  have hkept := hall.1.kept
  have hformat : helloRequest.format = .ndjson := rfl
  rw [heard_cutChat, hformat, events_cutAnswer] at hkept
  have hread : ((({ store := FileStore.openIn cutChat.directory } : StreamSystem FileStore).run
      (.start helloRequest :: cutRun)).bind fun s =>
        s.tasks[0]?.map fun t => (t.yielded, t.cancelled)) =
      some ([.delta "a", .error (.transport "reset")], false) := by decide +kernel
  obtain ⟨s, hs, htask⟩ := Option.bind_eq_some_iff.mp hread
  obtain ⟨t, ht, hyielded⟩ := Option.map_eq_some_iff.mp htask
  obtain ⟨hyielded, hc⟩ := Prod.mk.inj hyielded
  have hheard : signals 0 cutRun <+: (cutChat.heard helloRequest cutAnswer).signals := by
    rw [heard_cutChat]
    exact List.prefix_rfl
  refine ⟨hr, takesNew_cutChat, by decide +kernel, hkept rfl rfl, s, t, hs, ht, ?_⟩
  exact hall.2 cutRun s t hs (by simp [cutRun]) ht hc hheard (by rw [hyielded]; rfl)

end Surroundings
end LanInference
