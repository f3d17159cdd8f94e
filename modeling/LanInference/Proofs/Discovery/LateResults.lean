/-
# Late results

A pending key says that some validation of it is in flight, not which one. A trail is a world with
the story of its keys so far: which validations have begun, which removals and results the engine
has taken, and which validation each result on its way comes from. A key is pending exactly if the
last thing noted about it in the session is that a validation has begun (`Trail.Kept`), so a result
counts exactly then, be it the result of that validation or of an earlier one. A service that
leaves and comes back while its first validation is in flight is taken at that validation's word
(`Trail.inserts_first_of_backInFlight`).

Key definitions: `Note`, `askedLast`, `Trail`, `Trail.step`, `Trail.Resolved`.
Key theorems: `Trail.run_world`, `Trail.Kept.step`, `Trail.Reachable.resolved`.
-/
import LanInference.Proofs.Discovery.Bookkeeping
import LanInference.Proofs.Discovery.Lifecycle

namespace LanInference

/-! ### The story of the keys -/

/-- What has happened to a key, and in which session. -/
inductive Note where
  /-- A validation has begun: the how-manieth. -/
  | asked (serial generation : Nat) (service : Service)
  /-- The current pass has seen the service go. -/
  | gone (generation : Nat) (service : Service)
  /-- The result of a validation has been taken. -/
  | answered (generation : Nat) (service : Service)
  deriving DecidableEq, Repr

namespace Note

def generation : Note → Nat
  | asked _ generation _ | gone generation _ | answered generation _ => generation

def service : Note → Service
  | asked _ _ service | gone _ service | answered _ service => service

def serial? : Note → Option Nat
  | asked serial .. => some serial
  | _ => none

end Note

/-- Whether the last thing noted about a key in a session is that a validation has begun. Notes are
listed newest first. -/
def askedLast (generation : Nat) (k : EndpointKey) : List Note → Bool
  | [] => false
  | n :: notes =>
    if n.generation = generation ∧ n.service.key = k then n.serial?.isSome
    else askedLast generation k notes

/-- A world with the story of its keys. -/
structure Trail where
  world : World
  /-- Of each report on its way, the validation that it is the result of. -/
  senders : List (Option Nat) := []
  /-- What has happened to keys, the newest first. -/
  notes : List Note := []
  deriving DecidableEq

namespace Trail

/-- What is to be noted when a report turns one world into another. -/
def noted (w w' : World) : Option Report → List Note
  | some (.browse generation _ (.added service)) =>
    if w'.dispatched = w.dispatched then [] else [.asked w.dispatched generation service]
  | some (.browse generation pass (.removed service)) =>
    if w.engine.current = some (generation, pass) then [.gone generation service] else []
  | some (.validated generation service _) => [.answered generation service]
  | _ => []

/-- The report that an action takes from the mailbox. -/
def taken? (w : World) : Traffic → Option Report
  | .take => w.mailbox.head?
  | _ => none

/-- The senders of the reports in the mailbox after an action. -/
def queued (senders : List (Option Nat)) : Traffic → List (Option Nat)
  | .still => senders
  | .take => senders.tail
  | .post sender => senders ++ [sender]
  | .clear => []

/-- The trail after an action, if the action can happen. -/
def step (t : Trail) (a : Action) : Option Trail :=
  (t.world.step a).map fun w =>
    ⟨w, queued t.senders a.traffic, noted t.world w (taken? t.world a.traffic) ++ t.notes⟩

def run (t : Trail) (as : List Action) : Option Trail := as.foldlM step t

def initial (floor : Nat) (reading : PowerState) : Trail := { world := .initial floor reading }

def Reachable (floor : Nat) (t : Trail) : Prop :=
  ∃ reading as, (initial floor reading).run as = some t

/-- The story is told of any run of a world, and changes nothing in it. -/
theorem run_world (as : List Action) : ∀ t : Trail, (t.run as).map (·.world) = t.world.run as := by
  induction as with
  | nil => exact fun t => rfl
  | cons a as ih =>
    intro t
    rw [run, List.foldlM_cons, World.run_cons, step]
    cases hstep : t.world.step a with
    | none => rfl
    | some w => exact ih _

variable {t t' : Trail}

/-- Where a result comes from. -/
def Sends (notes : List Note) (sender : Option Nat) : Report → Prop
  | .validated generation service _ =>
    ∃ n, sender = some n ∧ .asked n generation service ∈ notes
  | _ => True

/-- The story agrees with the world: it tells of each validation in flight and of each result on its
way, and of the pending keys and only of these it says last that a validation has begun. -/
structure Kept (t : Trail) : Prop where
  book : t.world.Bookkept
  senders : List.Forall₂ (Sends t.notes) t.senders t.world.mailbox
  tasks : ∀ v ∈ t.world.validations, .asked v.serial v.generation v.service ∈ t.notes
  serials : (t.notes.filterMap Note.serial?).Pairwise (· > ·)
  begun : ∀ n ∈ t.notes.filterMap Note.serial?, n < t.world.dispatched
  sessions : ∀ n ∈ t.notes, n.generation ≤ t.world.engine.generation
  pending : ∀ generation pending, t.world.engine.ledger.session = some (generation, pending) →
    ∀ k : EndpointKey, pending.contains k.text = askedLast generation k t.notes

theorem Sends.mono {notes : List Note} {sender : Option Nat} {r : Report} (added : List Note)
    (h : Sends notes sender r) : Sends (added ++ notes) sender r := by
  cases r with
  | browse | passEnded => trivial
  | validated generation service ok =>
    obtain ⟨n, hn, hmem⟩ := h
    exact ⟨n, hn, List.mem_append_right _ hmem⟩

theorem askedLast_append {generation : Nat} {k : EndpointKey} {added notes : List Note}
    (h : ∀ n ∈ added, ¬ (n.generation = generation ∧ n.service.key = k)) :
    askedLast generation k (added ++ notes) = askedLast generation k notes := by
  induction added with
  | nil => rfl
  | cons n added ih =>
    rw [List.cons_append, askedLast, if_neg (h n List.mem_cons_self)]
    exact ih fun m hm => h m (List.mem_cons_of_mem _ hm)

/-- In a session of which nothing is noted no key has been asked for. -/
theorem askedLast_of_new {generation : Nat} {k : EndpointKey} {notes : List Note}
    (h : ∀ n ∈ notes, n.generation < generation) : askedLast generation k notes = false := by
  have hnone : askedLast generation k (notes ++ []) = askedLast generation k [] :=
    askedLast_append fun n hn hsame => Nat.ne_of_lt (h n hn) hsame.1
  rwa [List.append_nil] at hnone

/-- What begins no validation keeps the story in step with the world if the pending keys are. -/
theorem Kept.of_quiet (added : List Note) (h : t.Kept) (hbook : t'.world.Bookkept)
    (hv : ∀ v ∈ t'.world.validations, v ∈ t.world.validations)
    (hn : t'.world.dispatched = t.world.dispatched)
    (hg : t.world.engine.generation ≤ t'.world.engine.generation)
    (hs : List.Forall₂ (Sends t.notes) t'.senders t'.world.mailbox)
    (hnotes : t'.notes = added ++ t.notes)
    (hadded : ∀ n ∈ added, n.serial? = none ∧ n.generation ≤ t'.world.engine.generation)
    (hpending : ∀ generation pending,
      t'.world.engine.ledger.session = some (generation, pending) →
      ∀ k : EndpointKey, pending.contains k.text = askedLast generation k t'.notes) : t'.Kept := by
  have hserials : t'.notes.filterMap Note.serial? = t.notes.filterMap Note.serial? := by
    rw [hnotes, List.filterMap_append, List.filterMap_eq_nil_iff.mpr fun n hn => (hadded n hn).1,
      List.nil_append]
  refine ⟨hbook, ?_, ?_, ?_, ?_, ?_, hpending⟩
  · rw [hnotes]
    exact hs.imp fun _ _ hsends => hsends.mono added
  · intro v hmem
    rw [hnotes]
    exact List.mem_append_right _ (h.tasks v (hv v hmem))
  · rw [hserials]
    exact h.serials
  · rw [hserials, hn]
    exact h.begun
  · intro n hmem
    rw [hnotes, List.mem_append] at hmem
    rcases hmem with hmem | hmem
    · exact (hadded n hmem).2
    · exact Nat.le_trans (h.sessions n hmem) hg

/-- A key that is asked for is pending, and one whose service goes or whose result is taken is not:
the last thing noted about it says so, and about other keys nothing changes. -/
theorem pending_noted {pending pending' : OrderedMap Unit} {notes : List Note} {n : Note}
    (h : ∀ k : EndpointKey, pending.contains k.text = askedLast n.generation k notes)
    (hnoted : pending'.contains n.service.key.text = n.serial?.isSome)
    (hothers : ∀ k : EndpointKey, k.text ≠ n.service.key.text →
      pending'.contains k.text = pending.contains k.text) (k : EndpointKey) :
    pending'.contains k.text = askedLast n.generation k (n :: notes) := by
  rw [askedLast]
  by_cases hk : n.service.key = k
  · subst hk
    rw [if_pos ⟨rfl, rfl⟩, hnoted]
  · have hne : k.text ≠ n.service.key.text := fun heq => hk (EndpointKey.text_inj.mp heq).symm
    rw [if_neg fun hall => hk hall.2, hothers k hne, h k]

/-- A report that is passed over says nothing of a pending key. -/
theorem noted_of_ignored {w w' : World} {r : Option Report} (hi : w.engine.Ignores r)
    (hn : w'.dispatched = w.dispatched) :
    noted w w' r = [] ∨ ∃ generation service ok, r = some (.validated generation service ok) ∧
      noted w w' r = [.answered generation service] := by
  cases r with
  | none => exact .inl rfl
  | some r =>
    cases r with
    | passEnded => exact .inl rfl
    | validated generation service ok => exact .inr ⟨generation, service, ok, rfl, rfl⟩
    | browse generation pass event =>
      cases event with
      | added service => exact .inl (if_pos hn)
      | removed service =>
        refine .inl (if_neg fun hcurrent => ?_)
        obtain ⟨s, hs, hown⟩ := Engine.current_eq_some_iff.mp hcurrent
        exact hi s hs hown

/-- A turn takes the report that the action takes, and leaves the others with their senders. -/
theorem Kept.taken {a : Action} {r : Option Report} {rest : List Report} (h : t.Kept)
    (hm : t.world.mailbox = r.toList ++ rest)
    (ha : a.traffic = if r.isSome then .take else .still) :
    taken? t.world a.traffic = r ∧
      List.Forall₂ (Sends t.notes) (queued t.senders a.traffic) rest := by
  have hsenders := h.senders
  rw [hm] at hsenders
  cases r with
  | none =>
    rw [ha]
    exact ⟨rfl, hsenders⟩
  | some r =>
    rw [ha]
    refine ⟨?_, ?_⟩
    · rw [Option.isSome_some, if_pos rfl, taken?, hm]
      rfl
    · obtain ⟨sender, senders, _, hrest, hsame⟩ := List.forall₂_cons_right_iff.mp hsenders
      rw [hsame]
      exact hrest

/-- A result that is passed over is that of a key that is not pending. -/
theorem Kept.pending_of_ignored {generation : Nat} {service : Service} {ok : Bool} (h : t.Kept)
    (hi : t.world.engine.Ignores (some (.validated generation service ok))) (g : Nat)
    (pending : OrderedMap Unit) (hs : t.world.engine.ledger.session = some (g, pending))
    (k : EndpointKey) :
    pending.contains k.text = askedLast g k (.answered generation service :: t.notes) := by
  by_cases hkey : generation = g ∧ service.key = k
  · obtain ⟨s, hsession, rfl, rfl⟩ := Engine.ledger_session_eq_some_iff.mp hs
    have hfree : ¬ s.pending.contains service.key.text = true := fun hpending =>
      hi s hsession ⟨hkey.1.symm, hpending⟩
    rw [hkey.2, Bool.not_eq_true] at hfree
    rw [hfree]
    exact (if_pos hkey).symm
  · rw [h.pending g pending hs k]
    exact (if_neg hkey).symm

/-- The validation that a result on its way comes from. -/
theorem Kept.sender {generation : Nat} {service : Service} {ok : Bool} {rest : List Report}
    (h : t.Kept) (hm : t.world.mailbox = .validated generation service ok :: rest) :
    ∃ n senders, t.senders = some n :: senders ∧ .asked n generation service ∈ t.notes := by
  have hsenders := h.senders
  rw [hm] at hsenders
  obtain ⟨sender, senders, ⟨n, rfl, hmem⟩, _, hsame⟩ := List.forall₂_cons_right_iff.mp hsenders
  exact ⟨n, senders, hsame, hmem⟩

/-- A turn that begins no validation keeps the story in step with the world. -/
theorem Kept.turn_of_quiet {rest : List Report} {e : Engine}
    {es : List Effect} {senders : List (Option Nat)} {added : List Note} (h : t.Kept)
    (hbook : ({ t.world with mailbox := rest }.after (e, es)).Bookkept)
    (hq : ∀ x ∈ es, x.isValidation = false) (hs : List.Forall₂ (Sends t.notes) senders rest)
    (hg : t.world.engine.generation ≤ e.generation)
    (hadded : ∀ n ∈ added, n.serial? = none ∧ n.generation ≤ e.generation)
    (hpending : ∀ generation pending, e.ledger.session = some (generation, pending) →
      ∀ k : EndpointKey, pending.contains k.text =
        askedLast generation k (added ++ t.notes)) :
    Kept ⟨{ t.world with mailbox := rest }.after (e, es), senders, added ++ t.notes⟩ := by
  have hsame := World.validations_after_quiet (w := { t.world with mailbox := rest }) (e := e) hq
  refine h.of_quiet added hbook ?_ hsame.2 ?_ ?_ rfl ?_ ?_
  · exact fun v hv => hsame.1 ▸ hv
  · rwa [World.after_engine]
  · rwa [World.after_mailbox]
  · rwa [World.after_engine]
  · rwa [World.after_engine]

/-- A turn that begins a validation notes it. -/
theorem Kept.turn_of_asks {rest : List Report} {e : Engine} {s : ScanSession} {service : Service}
    {probe : ProbePolicy} {senders : List (Option Nat)} (h : t.Kept)
    (hbook : ({ t.world with mailbox := rest }.after
      (e, [.validate s.generation service probe])).Bookkept)
    (hs : t.world.engine.session = some s) (hsenders : List.Forall₂ (Sends t.notes) senders rest)
    (hl : e.ledger = { t.world.engine.ledger with
      session := some (s.generation, s.pending.insert service.key.text ()) }) :
    Kept ⟨{ t.world with mailbox := rest }.after (e, [.validate s.generation service probe]),
      senders, .asked t.world.dispatched s.generation service :: t.notes⟩ := by
  have hsession := Engine.ledger_session hs
  have hgeneration : e.generation = t.world.engine.generation := congrArg Ledger.generation hl
  refine ⟨hbook, ?_, ?_, ?_, ?_, ?_, ?_⟩
  · rw [World.after_mailbox]
    exact hsenders.imp fun _ _ hsends =>
      hsends.mono [.asked t.world.dispatched s.generation service]
  · intro v hv
    rcases List.mem_append.mp hv with hv | hv
    · exact List.mem_cons_of_mem _ (h.tasks v hv)
    · rw [List.mem_singleton.mp hv]
      exact List.mem_cons_self
  · exact List.pairwise_cons.mpr ⟨h.begun, h.serials⟩
  · intro n hn
    rcases List.mem_cons.mp hn with rfl | hn
    · exact Nat.lt_succ_self _
    · exact Nat.lt_succ_of_lt (h.begun n hn)
  · rw [World.after_engine]
    intro n hn
    rw [hgeneration]
    rcases List.mem_cons.mp hn with rfl | hn
    · exact Nat.le_of_eq (h.book.generation_eq hs)
    · exact h.sessions n hn
  · rw [World.after_engine, hl]
    rintro generation pending ⟨⟩ k
    refine pending_noted (n := .asked t.world.dispatched s.generation service)
      (h.pending _ _ hsession) ?_ (fun k hk => ?_) k
    · simp [OrderedMap.contains_insert, Note.service, Note.serial?]
    · have hne : k.text ≠ service.key.text := hk
      simp [OrderedMap.contains_insert, hne]

/-- A turn that takes a key from the pending ones notes why. -/
theorem Kept.turn_of_erase {rest : List Report} {e : Engine} {es : List Effect}
    {s : ScanSession} {held : EndpointSet} {senders : List (Option Nat)} {n : Note} (h : t.Kept)
    (hbook : ({ t.world with mailbox := rest }.after (e, es)).Bookkept)
    (hq : ∀ x ∈ es, x.isValidation = false) (hs : t.world.engine.session = some s)
    (hsenders : List.Forall₂ (Sends t.notes) senders rest) (hn : n.serial? = none)
    (hg : n.generation = s.generation)
    (hl : e.ledger = ⟨held, t.world.engine.generation,
      some (s.generation, s.pending.erase n.service.key.text)⟩) :
    Kept ⟨{ t.world with mailbox := rest }.after (e, es), senders, [n] ++ t.notes⟩ := by
  have hsession := Engine.ledger_session hs
  have hgeneration : e.generation = t.world.engine.generation := congrArg Ledger.generation hl
  have hlatest : s.generation = t.world.engine.generation := h.book.generation_eq hs
  refine h.turn_of_quiet hbook hq hsenders (Nat.le_of_eq hgeneration.symm) ?_ ?_
  · intro m hm
    rw [List.mem_singleton.mp hm, hgeneration]
    exact ⟨hn, Nat.le_of_eq (hg.trans hlatest)⟩
  · rw [hl]
    rintro generation pending ⟨⟩ k
    have hpending := h.pending _ _ hsession
    rw [← hg] at hpending ⊢
    refine pending_noted hpending ?_ (fun k hk => ?_) k
    · simp [OrderedMap.contains_erase, hn]
    · simp [OrderedMap.contains_erase, hk]

theorem Kept.turn {a : Action} {r : Option Report} {rest : List Report} {e : Engine}
    {es : List Effect} (h : t.Kept)
    (hbook : ({ t.world with mailbox := rest }.after (e, es)).Bookkept)
    (hm : t.world.mailbox = r.toList ++ rest)
    (ha : a.traffic = if r.isSome then .take else .still)
    (hd : Engine.Dealing r t.world.engine e es) :
    Kept ⟨{ t.world with mailbox := rest }.after (e, es), queued t.senders a.traffic,
      noted t.world ({ t.world with mailbox := rest }.after (e, es))
        (taken? t.world a.traffic) ++ t.notes⟩ := by
  obtain ⟨htaken, hs⟩ := h.taken hm ha
  rw [htaken]
  have hledger : ∀ l, e.ledger = l → e.generation = l.generation := fun l hl =>
    congrArg Ledger.generation hl
  cases hd with
  | keeps hi hl hq =>
    have hn := (World.validations_after_quiet (w := { t.world with mailbox := rest }) (e := e) hq).2
    have hg := Nat.le_of_eq (hledger _ hl).symm
    rcases noted_of_ignored hi hn with hnoted | ⟨generation, service, ok, rfl, hnoted⟩
    · rw [hnoted]
      exact h.turn_of_quiet hbook hq hs hg (by simp) (hl ▸ h.pending)
    · rw [hnoted]
      obtain ⟨n, _, _, hasked⟩ := h.sender hm
      have hsession : generation ≤ t.world.engine.generation := h.sessions _ hasked
      refine h.turn_of_quiet hbook hq hs hg ?_ (hl ▸ h.pending_of_ignored hi)
      intro m hmem
      rw [List.mem_singleton.mp hmem]
      exact ⟨rfl, Nat.le_trans hsession hg⟩
  | ends hr hl hq =>
    subst hr
    refine h.turn_of_quiet hbook hq hs (Nat.le_of_eq (hledger _ hl).symm) (by simp [noted]) ?_
    rw [hl]
    rintro generation pending ⟨⟩
  | renews hr held hheld hl hq =>
    subst hr
    refine h.turn_of_quiet hbook hq hs ?_ (by simp [noted]) ?_
    · rw [hledger _ hl]
      exact Nat.le_succ _
    · rw [hl]
      rintro generation pending ⟨⟩ k
      exact (askedLast_of_new fun n hn => Nat.lt_succ_of_le (h.sessions n hn)).symm
  | @asks s pass service probe hsession hr hheld hpending hl hes =>
    subst hr hes
    have hnoted : noted t.world ({ t.world with mailbox := rest }.after
        (e, [.validate s.generation service probe]))
          (some (.browse s.generation pass (.added service))) =
        [.asked t.world.dispatched s.generation service] := if_neg (Nat.succ_ne_self _)
    rw [hnoted]
    exact h.turn_of_asks hbook hsession hs hl
  | @drops s pass service hsession hp hr hl hq =>
    subst hr
    have hnoted : noted t.world ({ t.world with mailbox := rest }.after (e, es))
          (some (.browse s.generation pass (.removed service))) =
        [.gone s.generation service] := if_pos (by rw [Engine.current_eq hsession, hp]; rfl)
    rw [hnoted]
    exact h.turn_of_erase hbook hq hsession hs rfl rfl hl
  | @settles s service ok hsession hpending hr hl hq =>
    subst hr
    have hnoted : noted t.world ({ t.world with mailbox := rest }.after (e, es))
        (some (.validated s.generation service ok)) = [.answered s.generation service] := rfl
    rw [hnoted]
    exact h.turn_of_erase hbook hq hsession hs rfl rfl hl

/-- What neither takes a report nor begins a validation keeps the story in step with the world. -/
theorem Kept.still {w : World} {senders : List (Option Nat)} (h : t.Kept) (hbook : w.Bookkept)
    (he : w.engine = t.world.engine) (hn : w.dispatched = t.world.dispatched)
    (hv : ∀ v ∈ w.validations, v ∈ t.world.validations)
    (hs : List.Forall₂ (Sends t.notes) senders w.mailbox) : Kept ⟨w, senders, t.notes⟩ := by
  refine h.of_quiet [] hbook hv hn (he ▸ Nat.le_refl _) hs rfl (by simp) ?_
  rw [he]
  exact h.pending

/-- **Every step keeps the story in step with the world.** -/
theorem Kept.step {a : Action} (h : t.Kept) (hstep : t.step a = some t') : t'.Kept := by
  obtain ⟨w, hw, rfl⟩ := Option.map_eq_some_iff.mp hstep
  have hchange := World.change_of_step hw
  have hbook := h.book.change hchange
  cases hchange with
  | turn ho hm ha hturn => exact h.turn hbook hm ha hturn.dealing
  | sees ht event =>
    exact h.still hbook rfl rfl (fun _ hv => hv) (List.rel_append h.senders (.cons trivial .nil))
  | passEnds ht error =>
    exact h.still hbook rfl rfl (fun _ hv => hv) (List.rel_append h.senders (.cons trivial .nil))
  | validated ht ok =>
    refine h.still hbook rfl rfl (fun v hv => (List.mem_filter.mp hv).1) ?_
    exact List.rel_append h.senders (.cons ⟨_, rfl, h.tasks _ ht⟩ .nil)
  | aside now subscriptions ha =>
    rw [ha]
    exact h.still hbook rfl rfl (fun _ hv => hv) h.senders
  | shutdown =>
    have hsame := World.validations_after_quiet (w := t.world) (e := t.world.engine.cancelSession.1)
      t.world.engine.cancelSession_quiet
    have hl := t.world.engine.ledger_cancelSession
    refine h.of_quiet [] hbook (fun v hv => hsame.1 ▸ hv) hsame.2 ?_ .nil rfl (by simp) ?_
    · rw [World.after_engine]
      exact Nat.le_of_eq (congrArg Ledger.generation hl).symm
    · rw [World.after_engine, hl]
      rintro generation pending ⟨⟩

theorem run_append (t : Trail) (as bs : List Action) :
    t.run (as ++ bs) = (t.run as).bind fun t => t.run bs := List.foldlM_append

theorem run_concat (t : Trail) (as : List Action) (a : Action) :
    t.run (as ++ [a]) = (t.run as).bind fun t => t.step a := by
  simp [run, List.foldlM_append]

theorem Reachable.kept {floor : Nat} (h : Reachable floor t) : t.Kept := by
  obtain ⟨reading, as, hrun⟩ := h
  induction as using List.reverseRecOn generalizing t with
  | nil =>
    cases hrun
    have hbook : (World.initial floor reading).Bookkept :=
      World.Reachable.bookkept ⟨reading, [], rfl⟩
    refine ⟨hbook, .nil, ?_, ?_, ?_, ?_, ?_⟩ <;>
      simp [initial, World.initial, Engine.ledger]
  | append_singleton as a ih =>
    rw [run_concat, Option.bind_eq_some_iff] at hrun
    obtain ⟨before, hbefore, hstep⟩ := hrun
    exact (ih hbefore).step hstep

/-! ### What a result does -/

/-- What it comes to that the result of the `n`th validation is taken: it changes the endpoints
exactly if it is good, its session is running, and the last thing noted about its key there is that
a validation has begun; then its own endpoint is held. If its service went since that validation
began, it changes nothing unless a later validation of the key has begun since. -/
structure Resolved (t : Trail) (n generation : Nat) (service : Service) (ok : Bool) (t' : Trail) :
    Prop where
  asked : .asked n generation service ∈ t.notes
  changes_iff : t'.world.engine.endpoints ≠ t.world.engine.endpoints ↔ ok = true ∧
    (∃ s, t.world.engine.session = some s ∧ s.generation = generation) ∧
    askedLast generation service.key t.notes = true
  holds : t'.world.engine.endpoints ≠ t.world.engine.endpoints →
    t'.world.engine.endpoints = (t.world.engine.endpoints.insert (.ofService service)).1
  discarded : ∀ later gone earlier, t.notes = later ++ .gone generation gone :: earlier →
    gone.key = service.key → .asked n generation service ∈ earlier →
    (∀ m again, .asked m generation again ∈ later → n < m → again.key ≠ service.key) →
    t'.world.engine.endpoints = t.world.engine.endpoints

/-- A key that was asked for last was asked for after everything else noted about it. -/
theorem exists_asked_of_askedLast {generation : Nat} {k : EndpointKey} {later earlier : List Note}
    {n : Note} (h : askedLast generation k (later ++ n :: earlier) = true)
    (hn : n.generation = generation ∧ n.service.key = k) (hquiet : n.serial? = none) :
    ∃ m again, .asked m generation again ∈ later ∧ again.key = k := by
  induction later with
  | nil =>
    rw [List.nil_append, askedLast, if_pos hn, hquiet] at h
    cases h
  | cons x later ih =>
    rw [List.cons_append, askedLast] at h
    by_cases hx : x.generation = generation ∧ x.service.key = k
    · rw [if_pos hx] at h
      cases x with
      | asked m g again =>
        obtain ⟨rfl, rfl⟩ := hx
        exact ⟨m, again, List.mem_cons_self, rfl⟩
      | gone | answered => cases h
    · rw [if_neg hx] at h
      obtain ⟨m, again, hmem, hkey⟩ := ih h
      exact ⟨m, again, List.mem_cons_of_mem _ hmem, hkey⟩

/-- What is noted later has a greater number. -/
theorem Kept.serial_lt {later earlier : List Note} {n m g g' : Nat} {service again : Service}
    (h : t.Kept) (hnotes : t.notes = later ++ earlier) (hm : .asked m g' again ∈ later)
    (hn : .asked n g service ∈ earlier) : n < m := by
  have hserials := h.serials
  rw [hnotes, List.filterMap_append, List.pairwise_append] at hserials
  exact hserials.2.2 m (List.mem_filterMap.mpr ⟨_, hm, rfl⟩) n (List.mem_filterMap.mpr ⟨_, hn, rfl⟩)

theorem Kept.changes_iff {generation : Nat} {service : Service} {ok : Bool} {e : Engine}
    {es : List Effect} (h : t.Kept)
    (hd : Engine.Dealing (some (.validated generation service ok)) t.world.engine e es) :
    (e.endpoints ≠ t.world.engine.endpoints ↔ ok = true ∧
      (∃ s, t.world.engine.session = some s ∧ s.generation = generation) ∧
      askedLast generation service.key t.notes = true) ∧
    (e.endpoints ≠ t.world.engine.endpoints →
      e.endpoints = (t.world.engine.endpoints.insert (.ofService service)).1) := by
  cases hd with
  | ends hr => cases hr
  | renews hr => cases hr
  | asks _ hr => cases hr
  | drops _ _ hr => cases hr
  | keeps hi hl =>
    have hsame : e.endpoints = t.world.engine.endpoints := congrArg Ledger.held hl
    refine ⟨⟨fun hne => absurd hsame hne, ?_⟩, fun hne => absurd hsame hne⟩
    rintro ⟨_, ⟨s, hs, rfl⟩, hasked⟩
    rw [← h.pending _ _ (Engine.ledger_session hs)] at hasked
    exact absurd ⟨rfl, hasked⟩ (hi s hs)
  | settles ok' hs hpending hr hl =>
    cases hr
    have hasked := h.pending _ _ (Engine.ledger_session hs) service.key
    have hfree := h.book.ledger.disjoint _ _ (Engine.ledger_session hs) service.key hpending
    rw [hpending] at hasked
    cases ok with
    | false =>
      have hsame : e.endpoints = t.world.engine.endpoints := congrArg Ledger.held hl
      exact ⟨⟨fun hne => absurd hsame hne, fun hall => nomatch hall.1⟩, fun hne => absurd hsame hne⟩
    | true =>
      have hheld : e.endpoints = (t.world.engine.endpoints.insert (.ofService service)).1 :=
        congrArg Ledger.held hl
      refine ⟨⟨fun _ => ⟨rfl, ⟨_, hs, rfl⟩, hasked.symm⟩, fun _ hsame => ?_⟩, fun _ => hheld⟩
      have hcontains := EndpointSet.contains_insert t.world.engine.endpoints (.ofService service)
        service.key
      have hself : decide (service.key.text = (Endpoint.ofService service).key.text) = true :=
        decide_eq_true rfl
      rw [← hheld, hsame, hself, Bool.true_or] at hcontains
      exact absurd (hcontains.symm.trans hfree) Bool.noConfusion

/-- **A result counts exactly if its key was asked for last in its session, and so a service that
went while its validation was in flight is not held unless its key was asked for again.** -/
theorem Reachable.resolved {floor : Nat} {generation : Nat} {service : Service} {ok : Bool}
    {rest : List Report} {reading : PowerState} (h : Reachable floor t)
    (hm : t.world.mailbox = .validated generation service ok :: rest)
    (hstep : t.step (.deliver reading) = some t') :
    ∃ n senders, t.senders = some n :: senders ∧ Resolved t n generation service ok t' := by
  have hkept := h.kept
  obtain ⟨n, senders, hsenders, hasked⟩ := hkept.sender hm
  obtain ⟨w, hw, rfl⟩ := Option.map_eq_some_iff.mp hstep
  obtain ⟨w', es, hstep', _, _, hd⟩ :=
    World.exists_delivery reading (World.isOpen_of_deliver hw) hm
  cases hw.symm.trans hstep'
  obtain ⟨hchanges, hholds⟩ := hkept.changes_iff hd
  refine ⟨n, senders, hsenders, hasked, hchanges, hholds, ?_⟩
  intro later gone earlier hnotes hkey hearlier hnone
  by_contra hne
  have hlast := (hchanges.mp hne).2.2
  rw [hnotes] at hlast
  obtain ⟨m, again, hmem, hagain⟩ := exists_asked_of_askedLast hlast ⟨rfl, hkey⟩ rfl
  have hlt := hkept.serial_lt hnotes hmem (List.mem_cons_of_mem _ hearlier)
  exact hnone m again hmem hlt hagain

/-- A service goes while its validation is in flight. -/
def goneInFlight : List Action :=
  [.command (.start true) .nominal .nominal, .browse 1 (.added ⟨"desk", "10.0.0.5", 8080⟩),
    .deliver .nominal, .browse 1 (.removed ⟨"desk", "10.0.0.5", 8080⟩), .deliver .nominal,
    .validated 0 true]

theorem resolved_of_goneInFlight :
    ∃ t t' : Trail, (initial 10000 .nominal).run goneInFlight = some t ∧
      t.step (.deliver .nominal) = some t' ∧ t'.world.engine.endpoints.snapshot = [] ∧
      ∃ n senders, t.senders = some n :: senders ∧
        Resolved t n 1 ⟨"desk", "10.0.0.5", 8080⟩ true t' := by
  have hbefore : ((initial 10000 .nominal).run goneInFlight).map (fun t => t.world.mailbox) =
      some [.validated 1 ⟨"desk", "10.0.0.5", 8080⟩ true] := by decide +kernel
  have hafter : ((initial 10000 .nominal).run (goneInFlight ++ [.deliver .nominal])).map
      (fun t => t.world.engine.endpoints.snapshot) = some [] := by decide +kernel
  obtain ⟨t, ht, hm⟩ := Option.map_eq_some_iff.mp hbefore
  obtain ⟨t', ht', hsnapshot⟩ := Option.map_eq_some_iff.mp hafter
  rw [run_concat, ht, Option.bind_some] at ht'
  exact ⟨t, t', ht, ht', hsnapshot,
    @Reachable.resolved t t' 10000 _ _ _ _ _ ⟨.nominal, goneInFlight, ht⟩ hm ht'⟩

/-- A service goes while its validation is in flight, and comes back under another name. -/
def backInFlight : List Action :=
  [.command (.start true) .nominal .nominal, .browse 1 (.added ⟨"first", "10.0.0.5", 8080⟩),
    .deliver .nominal, .browse 1 (.removed ⟨"first", "10.0.0.5", 8080⟩),
    .browse 1 (.added ⟨"second", "10.0.0.5", 8080⟩), .deliver .nominal, .deliver .nominal,
    .validated 0 true]

/-- The result of the first validation counts, although the service went since it began, and that
of the second does not. -/
theorem inserts_first_of_backInFlight :
    ∃ (t t' t'' : Trail) (later earlier : List Note),
      (initial 10000 .nominal).run backInFlight = some t ∧ t.senders = [some 0] ∧
      t.world.mailbox = [.validated 1 ⟨"first", "10.0.0.5", 8080⟩ true] ∧
      t.notes = later ++ .gone 1 ⟨"first", "10.0.0.5", 8080⟩ :: earlier ∧
      .asked 0 1 ⟨"first", "10.0.0.5", 8080⟩ ∈ earlier ∧
      t.world.engine.endpoints.snapshot = [] ∧ t.step (.deliver .nominal) = some t' ∧
      t'.world.engine.endpoints.snapshot = [.ofService ⟨"first", "10.0.0.5", 8080⟩] ∧
      t'.run [.validated 1 true, .deliver .nominal] = some t'' ∧
      t''.world.engine.endpoints.snapshot = [.ofService ⟨"first", "10.0.0.5", 8080⟩] := by
  have hbefore : ((initial 10000 .nominal).run backInFlight).map (fun t =>
      (t.senders, t.world.mailbox, t.notes, t.world.engine.endpoints.snapshot)) =
        some ([some 0], [.validated 1 ⟨"first", "10.0.0.5", 8080⟩ true],
          [.asked 1 1 ⟨"second", "10.0.0.5", 8080⟩, .gone 1 ⟨"first", "10.0.0.5", 8080⟩,
            .asked 0 1 ⟨"first", "10.0.0.5", 8080⟩], []) := by decide +kernel
  have hfirst : ((initial 10000 .nominal).run (backInFlight ++ [.deliver .nominal])).map
      (fun t => t.world.engine.endpoints.snapshot) =
        some [.ofService ⟨"first", "10.0.0.5", 8080⟩] := by decide +kernel
  have hsecond : ((initial 10000 .nominal).run ((backInFlight ++ [.deliver .nominal]) ++
      [.validated 1 true, .deliver .nominal])).map (fun t => t.world.engine.endpoints.snapshot) =
        some [.ofService ⟨"first", "10.0.0.5", 8080⟩] := by decide +kernel
  obtain ⟨t, ht, hstory⟩ := Option.map_eq_some_iff.mp hbefore
  obtain ⟨t', ht', hheld⟩ := Option.map_eq_some_iff.mp hfirst
  obtain ⟨t'', ht'', hkept⟩ := Option.map_eq_some_iff.mp hsecond
  simp only [Prod.mk.injEq] at hstory
  obtain ⟨hsenders, hmailbox, hnotes, hempty⟩ := hstory
  rw [run_append, ht', Option.bind_some] at ht''
  rw [run_concat, ht, Option.bind_some] at ht'
  exact ⟨t, t', t'', [.asked 1 1 ⟨"second", "10.0.0.5", 8080⟩],
    [.asked 0 1 ⟨"first", "10.0.0.5", 8080⟩], ht, hsenders, hmailbox, hnotes,
    List.mem_singleton_self _, hempty, ht', hheld, ht'', hkept⟩

end Trail
end LanInference
