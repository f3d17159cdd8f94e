/-
# The figures of a pull

A server reports how large a layer is and how much of it has come, each as any word of 64 bits, and
a pull shows the share in percent. It is computed in words too: a hundred times the completed size
wraps round if a word does not hold it, and the figure shown is then too small. The figure is the
share rounded down exactly if the product fits into a word, that is, up to 184467440737095516
completed bytes.

Key definitions: `Progress.share?`, `Progress.Fits`, `Progress.lineOf`, `reportLines`,
`Outcome.ReportsShares`, `Ndjson.progressTree`, `reportBody`.
Key theorems: `mod_div_eq_div_iff`, `Progress.shownShare?_eq_iff`, `Outcome.reportsShares`,
`Answer.events_reportBody`, `Surroundings.stream_shows_shares`.
-/
import LanInference.Proofs.CommandLine.Chat
import LanInference.Proofs.Wire.Decoding

namespace LanInference

/-! ### One report -/

/-- What wraps round at `m` before it is divided by at most `m` gives another quotient, if it wraps
round at all. -/
theorem mod_div_eq_div_iff {n d m : Nat} (hd : 0 < d) (hm : d ≤ m) :
    n % m / d = n / d ↔ n < m := by
  constructor
  · intro h
    by_contra hn
    have hwrapped : n % m + d ≤ n := by
      have hsplit : m * (n / m) + n % m = n := Nat.div_add_mod n m
      have hone : m * 1 ≤ m * (n / m) :=
        Nat.mul_le_mul_left m (Nat.div_pos (Nat.le_of_not_lt hn) (Nat.lt_of_lt_of_le hd hm))
      omega
    have hless : n % m / d + 1 ≤ n / d := by
      rw [← Nat.add_div_right _ hd]
      exact Nat.div_le_div_right hwrapped
    omega
  · intro h
    rw [Nat.mod_eq_of_lt h]

namespace Progress

/-- The share that is completed, in percent and rounded down, where both sizes are reported and
there is something to complete. -/
def share? (p : Progress) : Option Nat :=
  match p.completed, p.total with
  | some done, some total => if 0 < total then some (100 * done.toNat / total.toNat) else none
  | _, _ => none

/-- The figure that is shown. -/
def shownShare? (p : Progress) : Option Nat := p.percent?.map UInt64.toNat

/-- Nothing is computed that a word does not hold. -/
def Fits (p : Progress) : Prop :=
  ∀ done total, p.completed = some done → p.total = some total → 0 < total →
    100 * done.toNat < UInt64.size

/-- The line of a report with this figure. -/
def lineOf (p : Progress) : Option Nat → String
  | some n =>
    p.status ++ " " ++ String.ofList
      (List.replicate (3 - (Text.decimal n).length) ' ' ++ Text.decimal n) ++ "%"
  | none => p.status

theorem line_eq (p : Progress) : p.line = p.lineOf p.shownShare? := by
  unfold line shownShare?
  cases p.percent? <;> rfl

theorem toNat_percent (done total : UInt64) :
    (done * 100 / total).toNat = 100 * done.toNat % UInt64.size / total.toNat := by
  rw [UInt64.toNat_div, UInt64.toNat_mul, Nat.mul_comm]
  rfl

/-- **The figure shown is the share exactly if nothing wraps round.** -/
theorem shownShare?_eq_iff (p : Progress) : p.shownShare? = p.share? ↔ p.Fits := by
  obtain ⟨status, digest, total, completed⟩ := p
  unfold shownShare? percent? share? Fits
  cases completed with
  | none => simp
  | some done =>
    cases total with
    | none => simp
    | some total =>
      by_cases hpos : 0 < total
      · have hnat : 0 < total.toNat := UInt64.lt_iff_toNat_lt.mp hpos
        have hsize : total.toNat ≤ UInt64.size := Nat.le_of_lt total.toNat_lt
        have hquotient : (done * 100 / total).toNat = 100 * done.toNat / total.toNat ↔
            100 * done.toNat < UInt64.size := by
          rw [toNat_percent, mod_div_eq_div_iff hnat hsize]
        dsimp only
        rw [if_pos hpos, if_pos hpos, Option.map_some, Option.some_inj, hquotient]
        constructor
        · rintro hfits _ _ ⟨⟩ ⟨⟩ _
          exact hfits
        · intro hfits
          exact hfits done total rfl rfl hpos
      · simp [hpos]

/-- Sizes of up to 184467440737095516 bytes completed fit, whatever the total. -/
theorem fits_of_le {p : Progress} (h : ∀ done, p.completed = some done →
    done.toNat ≤ 184467440737095516) : p.Fits := by
  intro done total hdone _ _
  have hle := h done hdone
  have hsize : UInt64.size = 18446744073709551616 := rfl
  omega

end Progress

/-! ### All the reports of a stream -/

/-- The lines of the reports among events, each with this figure. -/
def reportLines (figure? : Progress → Option Nat) : List Event → String
  | [] => ""
  | .progress p :: es => p.lineOf (figure? p) ++ "\n" ++ reportLines figure? es
  | _ :: es => reportLines figure? es

theorem reportLines_congr {figure? figure?' : Progress → Option Nat} : ∀ {es : List Event},
    (∀ p, .progress p ∈ es → figure? p = figure?' p) → reportLines figure? es =
      reportLines figure?' es
  | [], _ => rfl
  | e :: es, h => by
    have ih := reportLines_congr fun p (hp : .progress p ∈ es) => h p (List.mem_cons_of_mem _ hp)
    cases e with
    | progress p => rw [reportLines, reportLines, ih, h p List.mem_cons_self]
    | _ => exact ih

namespace Outcome

variable {id : SessionId}

/-- Events that are not terminal add their reports to the error output. -/
theorem err_showEvents_open : ∀ {init : List Event} (o : Outcome),
    init.any Event.isTerminal = false →
      (showEvents id o init).err = o.err ++ reportLines Progress.shownShare? init
  | [], o, _ => String.append_empty.symm
  | e :: init, o, h => by
    rw [List.any_cons, Bool.or_eq_false_iff] at h
    cases e with
    | delta text => exact err_showEvents_open { o with out := o.out ++ text } h.2
    | progress p =>
      have ih := err_showEvents_open { o with err := o.err ++ p.line ++ "\n" } h.2
      rw [showEvents, ih, reportLines, p.line_eq, String.append_assoc, String.append_assoc,
        String.append_assoc]
    | done => cases h.1
    | error err => cases h.1

theorem reportLines_append (figure? : Progress → Option Nat) : ∀ xs ys : List Event,
    reportLines figure? (xs ++ ys) = reportLines figure? xs ++ reportLines figure? ys
  | [], ys => String.empty_append.symm
  | e :: xs, ys => by
    have ih := reportLines_append figure? xs ys
    cases e with
    | progress p =>
      rw [List.cons_append, reportLines, ih, reportLines]
      simp only [String.append_assoc]
    | _ => exact ih

/-- What is shown of the reports of a stream. It comes to its end; each figure is the share exactly
if it is computed without wrapping round; and if all are, the error output has a line for each
report with its share, and nothing after them if the stream was done. -/
structure ReportsShares (es : List Event) (o : Outcome) : Prop where
  finished : Finished es
  exact_iff : ∀ p, .progress p ∈ es → (p.shownShare? = p.share? ↔ p.Fits)
  shown : ∃ rest, o.err = reportLines Progress.shownShare? es ++ rest ∧
    (es.getLast? = some .done → o.code = 0 ∧ rest = "")
  shown_of_fits : (∀ p, .progress p ∈ es → p.Fits) →
    ∃ rest, o.err = reportLines Progress.share? es ++ rest ∧
      (es.getLast? = some .done → o.code = 0 ∧ rest = "")

theorem reportsShares {es : List Event} (h : Finished es) :
    (ofEvents id es).ReportsShares es := by
  have hshown : ∃ rest, (ofEvents id es).err = reportLines Progress.shownShare? es ++ rest ∧
      (es.getLast? = some .done → (ofEvents id es).code = 0 ∧ rest = "") := by
    have hcode : (ofEvents id es).code = 0 ↔ es.getLast? = some .done :=
      (shows_ofEvents h).code_eq_zero_iff
    obtain ⟨init, e, rfl, he, hinit⟩ := h
    have hopen : init.any Event.isTerminal = false := by simpa using hinit
    have herr : (showEvents id {} init).err = "" ++ reportLines Progress.shownShare? init :=
      err_showEvents_open {} hopen
    rw [String.empty_append] at herr
    have hreports : reportLines Progress.shownShare? (init ++ [e]) =
        reportLines Progress.shownShare? init := by
      have hlast : reportLines Progress.shownShare? [e] = "" := by
        cases e with
        | progress p => cases he
        | _ => rfl
      rw [reportLines_append, hlast, String.append_empty]
    have hend : ofEvents id (init ++ [e]) = showEvents id (showEvents id {} init) [e] :=
      showEvents_append {} [e] hopen
    rw [hreports]
    cases e with
    | delta text => cases he
    | progress p => cases he
    | done =>
      refine ⟨"", ?_, fun hlast => ⟨hcode.mpr hlast, rfl⟩⟩
      rw [hend, String.append_empty, ← herr, showEvents]
    | error err =>
      refine ⟨"Error: " ++ (CommandError.stream id err).message ++ "\n", ?_, fun hlast => ?_⟩
      · rw [hend, showEvents, fail_eq _ rfl, ← herr]
        simp only [String.append_assoc]
      · simp at hlast
  refine ⟨h, fun p _ => p.shownShare?_eq_iff, hshown, fun hfits => ?_⟩
  rwa [← reportLines_congr fun p hp => (p.shownShare?_eq_iff).mpr (hfits p hp)]

end Outcome

/-! ### Bodies of reports -/

namespace Ndjson

open Json (Node Optionally)

def progressMembers (p : Progress) : List (String × Node) :=
  [("status", .ofString p.status), ("digest", .ofOption .ofString p.digest),
    ("total", .ofOption (fun n => .ofNat n.toNat) p.total),
    ("completed", .ofOption (fun n => .ofNat n.toNat) p.completed)]

/-- A report as a server writes it. -/
def progressTree (p : Progress) : Node := .ofMembers (progressMembers p)

theorem writable_progressTree (p : Progress) : (progressTree p).Writable :=
  Node.writable_ofMembers _ (by
    have hword : ∀ n : UInt64, (Node.ofNat n.toNat).Writable := fun n => Node.writable_ofNat n.toNat
    simpa [progressMembers] using
      ⟨Node.writable_ofString _, Node.writable_ofOption Node.writable_ofString _,
        Node.writable_ofOption hword _, Node.writable_ofOption hword _⟩)

/-- Something that may be missing is written as null if it is. -/
theorem optionally_ofOption {α : Type} {Accepts : Node → α → Prop} {node : α → Node}
    (hne : ∀ a, node a ≠ .null) (h : ∀ a, Accepts (node a) a) (o : Option α) :
    Optionally Accepts [Node.ofOption node o] o := by
  cases o with
  | none => exact .null
  | some a => exact .given (hne a) (h a)

/-- **A report is read back with its sizes, whatever they are.** -/
theorem event?_progressTree (p : Progress) :
    event? (progressTree p).write = some (.progress p) := by
  have hword : ∀ n : UInt64, Node.ofNat n.toNat ≠ .null := fun n => Node.ofNat_ne_null n.toNat
  have hdescribes : Line.Describes (Node.valuesOf (progressMembers p))
      ⟨false, none, none, some p.status, p.digest, p.total, p.completed, none⟩ :=
    ⟨.absent, .absent, .absent,
      .given (Node.ofString_ne_null _) (Node.isText_ofString p.status),
      optionally_ofOption Node.ofString_ne_null Node.isText_ofString p.digest,
      optionally_ofOption hword Node.isWord_ofNat p.total,
      optionally_ofOption hword Node.isWord_ofNat p.completed, .absent⟩
  exact event?_write (writable_progressTree p) hdescribes (.progress rfl rfl nofun nofun rfl)

end Ndjson

/-- A body of reports, each on a line, and the line that ends a stream. -/
def reportBody (ps : List Progress) : List UInt8 :=
  bodyBytes (ps.map (fun p => ((Ndjson.progressTree p).write, .newline)) ++
    [(WireFormat.ndjson.doneLine, .newline)])

/-- **A body of reports gives them in order,** with all their sizes, and then the end. -/
theorem Answer.events_reportBody {answer : Answer} (hr : answer.reply.isSuccess = true)
    {ps : List Progress} (hbody : answer.chunks.flatten = reportBody ps) :
    answer.events .ndjson = ps.map .progress ++ [.done] := by
  have hprintable : ∀ line ∈ ps.map (fun p => ((Ndjson.progressTree p).write, LineEnd.newline)) ++
      [(WireFormat.ndjson.doneLine, .newline)], Json.Printable line.1 := by
    intro line hline
    rcases List.mem_append.mp hline with hline | hline
    · obtain ⟨p, -, rfl⟩ := List.mem_map.mp hline
      exact Json.printable_write _ (Ndjson.writable_progressTree p)
    · rw [List.mem_singleton.mp hline]
      exact WireFormat.printable_doneLine .ndjson
  have hreport : ∀ p : Progress, WireFormat.ndjson.eventOf?
      (segmentOf ((Ndjson.progressTree p).write, .newline)) = some (.progress p) := fun p => by
    rw [WireFormat.eventOf?_of_printable
      (Json.printable_write _ (Ndjson.writable_progressTree p))]
    simpa [WireFormat.event?] using Ndjson.event?_progressTree p
  have hdone : WireFormat.ndjson.eventOf?
      (segmentOf (WireFormat.ndjson.doneLine, .newline)) = some .done := by
    rw [WireFormat.eventOf?_of_printable (WireFormat.printable_doneLine .ndjson),
      WireFormat.event?_doneLine]
  have hopen : (ps.map Event.progress).any Event.isTerminal = false := by
    simp [Event.isTerminal]
  have hevents : WireFormat.ndjson.eventsOf (reportBody ps) = ps.map .progress ++ [.done] := by
    have hreports : ps.filterMap (fun p => some (Event.progress p)) = ps.map .progress :=
      congrFun List.filterMap_eq_map ps
    rw [WireFormat.eventsOf, reportBody, terminated_bodyBytes fun line hline =>
      (WireFormat.not_mem_of_printable (hprintable line hline)).1]
    simp only [List.map_append, List.map_map, List.filterMap_append, List.filterMap_map,
      Function.comp_def, hreport, hreports, List.map_cons, List.map_nil, List.filterMap_cons, hdone,
      List.filterMap_nil]
    rw [throughTerminal_append, hopen]
    rfl
  have hterminal : (ps.map Event.progress ++ [Event.done]).any Event.isTerminal = true := by
    simp [Event.isTerminal]
  -- The stream is over before the body is, so it does not matter how that ends.
  rw [Gives.answer_events_eq hr rfl, Adapter.feedAll_eq, Adapter.feedAll_finish_eq, hbody, hevents,
    WireFormat.endEvents, hevents, if_pos hterminal, List.append_nil]
  cases answer.ending with
  | ends => rfl
  | breaks reason => exact if_pos hterminal

/-! ### Commands -/

namespace Surroundings

variable {w : Surroundings} {i : Invocation} {r : StreamRequest} {answer : Answer}

/-- A command that opens a stream shows the events of the answer it gets. -/
theorem outcome_eq (hr : w.request? i = some (.ok r))
    (hscript : w.script = ⟨answer.reply, answer.body⟩) :
    (runCommand w i).1 = Outcome.ofEvents r.id ((w.heard r answer).events r.format) := by
  have hrun : runCommand w i = w.stream r := by
    unfold runCommand
    rw [hr]
  rw [hrun, stream_eq hscript]

/-- **A pull shows the share of every report that fits,** for every answer it gets. It comes to the
end of the stream, and a figure is wrong exactly if it was computed beyond a word. -/
theorem stream_shows_shares (hr : w.request? i = some (.ok r))
    (hscript : w.script = ⟨answer.reply, answer.body⟩) :
    (runCommand w i).1.ReportsShares ((w.heard r answer).events r.format) := by
  rw [outcome_eq hr hscript]
  exact Outcome.reportsShares ((w.heard r answer).finished_events r.format)

/-- A pull whose answer has one report. -/
def layerPull (p : Progress) : Surroundings where
  settings := .defaults fun _ => none
  directory := .empty
  newId := ⟨1⟩
  script := ⟨.status 200, [.chunk (reportBody [p]), .ends]⟩

def layerAnswer (p : Progress) : Answer := ⟨.status 200, [reportBody [p]], .ends⟩

def layerInvocation : Invocation := .pull "http://[::1]" "m"

def layerRequest : StreamRequest :=
  { id := ⟨1⟩, kind := .pull "m", apiBase := "http://[::1]/api" }

theorem request?_layerPull (p : Progress) :
    (layerPull p).request? layerInvocation = some (.ok layerRequest) := by
  have hbase : apiBase (.defaults fun _ => none) .ollama (some "http://[::1]") =
      .ok "http://[::1]/api" := by decide +kernel
  have hrequest : (layerPull p).request? layerInvocation =
      some ((apiBase (.defaults fun _ => none) .ollama (some "http://[::1]")).map fun base =>
        ({ id := ⟨1⟩, kind := .pull "m", apiBase := base } : StreamRequest)) := rfl
  rw [hrequest, hbase]
  rfl

theorem events_layerPull (p : Progress) :
    ((layerPull p).heard layerRequest (layerAnswer p)).events layerRequest.format =
      [.progress p, .done] := by
  have hsent : layerRequest.http?.isSome = true := by decide +kernel
  have hheard : (layerPull p).heard layerRequest (layerAnswer p) = layerAnswer p :=
    if_pos ⟨hsent, rfl⟩
  have hbody : (layerAnswer p).chunks.flatten = reportBody [p] := List.flatten_singleton
  rw [hheard]
  exact Answer.events_reportBody rfl hbody

/-- Two bytes of three. -/
def layerReport : Progress := ⟨"pulling", none, some 3, some 2⟩

theorem stream_shows_shares_of_layerReport :
    (layerPull layerReport).request? layerInvocation = some (.ok layerRequest) ∧
      (layerPull layerReport).script =
        ⟨(layerAnswer layerReport).reply, (layerAnswer layerReport).body⟩ ∧
      layerReport.share? = some 66 ∧
      (runCommand (layerPull layerReport) layerInvocation).1.code = 0 ∧
      (runCommand (layerPull layerReport) layerInvocation).1.err = "pulling  66%\n" := by
  have hr := request?_layerPull layerReport
  have hshares : (runCommand (layerPull layerReport) layerInvocation).1.ReportsShares
      (((layerPull layerReport).heard layerRequest (layerAnswer layerReport)).events
        layerRequest.format) := stream_shows_shares hr rfl
  rw [events_layerPull] at hshares
  have hfits : ∀ p, .progress p ∈ [Event.progress layerReport, .done] → p.Fits := by
    intro p hp
    obtain rfl : p = layerReport := by simpa using hp
    exact Progress.fits_of_le fun done hdone => by
      cases hdone
      decide
  obtain ⟨rest, herr, hdone⟩ := hshares.shown_of_fits hfits
  obtain ⟨hcode, rfl⟩ := hdone rfl
  refine ⟨hr, rfl, by decide, hcode, herr.trans ?_⟩
  decide +kernel

/-- A layer that is complete, of the least size whose hundredfold a word does not hold. -/
def wrappedReport : Progress :=
  ⟨"pulling", none, some 184467440737095517, some 184467440737095517⟩

/-- The pull shows nothing of it as complete. -/
theorem no_share_of_wrappedReport :
    (layerPull wrappedReport).request? layerInvocation = some (.ok layerRequest) ∧
      ((layerPull wrappedReport).heard layerRequest (layerAnswer wrappedReport)).events
        layerRequest.format = [.progress wrappedReport, .done] ∧
      wrappedReport.share? = some 100 ∧
      (runCommand (layerPull wrappedReport) layerInvocation).1 = ⟨0, "\n", "pulling   0%\n"⟩ := by
  have hr := request?_layerPull wrappedReport
  have hscript : (layerPull wrappedReport).script =
      ⟨(layerAnswer wrappedReport).reply, (layerAnswer wrappedReport).body⟩ := rfl
  refine ⟨hr, events_layerPull wrappedReport, by decide, ?_⟩
  rw [outcome_eq hr hscript, events_layerPull]
  decide +kernel

end Surroundings
end LanInference
