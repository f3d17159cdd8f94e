/-
# Session ids name files

The text of a session id is 32 hexadecimal digits in lower case, in groups of 8, 4, 4, 4 and 12 with
hyphens between them, whichever form the id was read from. Such a text is an id that a recovery
store of files takes, and different ids have different files. A session writes under the text of its
id alone, so a store of files may fail in a write of a session, but never refuses its id.

Key definitions: `SessionId.IsCanonical`, `SessionCall`, `Session.writes`.
Key theorems: `SessionId.isCanonical_text`, `Session.id_eq_of_mem_writes`,
`FileStore.apply_ne_invalidId`, `SessionId.storable`.
-/
import LanInference.Proofs.Recovery.Sessions
import LanInference.Proofs.SessionId

namespace LanInference

/-! ### Sessions -/

/-- What a host asks of a session. -/
inductive SessionCall where
  /-- The stream is open, and this is whether the store has an entry. -/
  | openEntry (hasEntry : Bool)
  | record (e : Event)
  deriving Repr, DecidableEq

namespace Session

def call (s : Session) : SessionCall → Session × Option StoreOp
  | .openEntry hasEntry => (s, s.openEntry hasEntry)
  | .record e => s.record e

/-- The writes that several calls in a row ask for. -/
def writes (s : Session) : List SessionCall → List StoreOp
  | [] => []
  | c :: cs => (s.call c).2.toList ++ (s.call c).1.writes cs

/-- A call keeps the session's id, and asks for a write under its key if for any. -/
theorem call_key (s : Session) (c : SessionCall) :
    (s.call c).1.key = s.key ∧ ∀ op ∈ (s.call c).2, op.id = s.key := by
  cases c with
  | openEntry hasEntry =>
    cases hasEntry <;> simp [call, openEntry, save, StoreOp.id]
  | record e =>
    obtain ⟨hid, -, hop⟩ := StreamTask.record_session_eq s e
    exact ⟨congrArg SessionId.text hid, hop⟩

theorem id_eq_of_mem_writes : ∀ (s : Session) (cs : List SessionCall) {op : StoreOp},
    op ∈ s.writes cs → op.id = s.key
  | _, [], _, h => by simp [writes] at h
  | s, c :: cs, op, h => by
    obtain ⟨hkey, hop⟩ := s.call_key c
    rcases List.mem_append.mp h with h | h
    · exact hop op (Option.mem_toList.mp h)
    · exact (id_eq_of_mem_writes (s.call c).1 cs h).trans hkey

end Session

/-! ### Writes that are not refused -/

namespace FileStore

theorem runAll_ne_invalidId (id key : String) : ∀ (steps : List PutStep) (d : Directory),
    (PutStep.runAll id d steps).2 ≠ .error (.invalidId key)
  | [], _ => by simp [PutStep.runAll]
  | step :: steps, d => by
    unfold PutStep.runAll
    split
    · rename_i d' _
      exact runAll_ne_invalidId id key steps d'
    · simp

/-- A write under a valid id is done or fails, and is not refused. -/
theorem apply_ne_invalidId {op : StoreOp} (h : isValidId op.id = true) (s : FileStore)
    (key : String) : (op.apply s).2 ≠ .error (.invalidId key) := by
  cases op with
  | put id text =>
    have hid : isValidId id = true := h
    show (s.put id text).2 ≠ _
    rw [FileStore.put, if_pos hid]
    exact runAll_ne_invalidId id key (PutStep.plan text) s.directory
  | remove id =>
    have hid : isValidId id = true := h
    show (s.remove id).2 ≠ _
    rw [FileStore.remove, if_pos hid]
    split <;> simp

end FileStore

/-! ### The text of an id -/

namespace SessionId

open FileStore

/-- The digits that the text of an id is written with. -/
def lowerDigits : List Char := "0123456789abcdef".toList

/-- Groups of 8, 4, 4, 4 and 12 hexadecimal digits in lower case, with hyphens between them. -/
def IsCanonical (s : String) : Prop :=
  ∃ groups : List (List Char), groups.map List.length = [8, 4, 4, 4, 12] ∧
    (∀ group ∈ groups, ∀ c ∈ group, c ∈ lowerDigits) ∧ s.toList = List.intercalate ['-'] groups

theorem mem_lowerDigits {id : SessionId} {c : Char} (h : c ∈ id.digits) : c ∈ lowerDigits := by
  have hall : ∀ k < 16, Text.hexChar k ∈ lowerDigits := by decide
  obtain ⟨k, hk, rfl⟩ := Text.exists_of_mem_hexFixed h
  exact hall k hk

theorem isCanonical_text (id : SessionId) : IsCanonical id.text := by
  have hdigits : ∀ c ∈ id.digits, c ∈ lowerDigits := fun _ hc => mem_lowerDigits hc
  obtain ⟨a, b, c, d, e, ha, hb, hc, hd, he, hsplit⟩ := exists_groups id.length_digits
  rw [hsplit] at hdigits
  refine ⟨[a, b, c, d, e], by simp [ha, hb, hc, hd, he], fun group hgroup x hx => ?_, ?_⟩
  · refine hdigits x ?_
    have hflat : x ∈ [a, b, c, d, e].flatten := List.mem_flatten.mpr ⟨group, hgroup, hx⟩
    simpa using hflat
  · rw [toList_text, hsplit, hyphenated_groups e ha hb hc hd]
    simp [List.intercalate]

/-- Different ids have different data files and different temporary files. -/
theorem files_ne {a b : SessionId} (h : a ≠ b) : dataName a.text ≠ dataName b.text ∧
    tempName a.text ≠ tempName b.text := by
  have htext : a.text ≠ b.text := fun he => h (text_inj.mp he)
  refine ⟨fun he => htext (dataName_inj.mp he), fun he => htext ?_⟩
  have hlist := congrArg String.toList he
  rw [toList_tempName, toList_tempName, List.cons.injEq, List.append_left_inj] at hlist
  exact String.toList_inj.mp hlist.2

/-- **A session id can always be stored.** Every reader of ids reads an id from its digits, bare,
hyphenated, in braces or in a URN, whatever their letter case. It reads ids from no other texts, but
for the letter case it takes at the start of a URN; and whichever text an id was read from, the text
of the id is the hyphenated form in lower case. A store of files takes that text as an id, no file
of one id is a file of another, and no write of a session is refused for its id. -/
theorem storable :
    (∀ (u : UrnReading) (id : SessionId), u.read? id.text = some id ∧
      ∀ (form : Form) (ds : List Char), ds.map Char.toLower = id.digits →
        u.read? (String.ofList (form.write ds)) = some id) ∧
    (∀ (u : UrnReading) (s : String) (id : SessionId), u.read? s = some id ↔
      ∃ form : Form, s.toList.map Char.toLower = form.write id.digits ∧
        (form = .urn → u.takes (s.toList.take 9) = true)) ∧
    (∀ id : SessionId, Text.hexValue? id.digits = some id.value.toNat ∧
      id.text.toList = Form.hyphenated.write id.digits ∧ IsCanonical id.text) ∧
    (∀ id : SessionId, isValidId id.text = true) ∧
    (∀ a b : SessionId, dataName a.text ≠ tempName b.text ∧
      (a ≠ b → dataName a.text ≠ dataName b.text ∧ tempName a.text ≠ tempName b.text)) ∧
    (∀ (s : Session) (calls : List SessionCall), ∀ op ∈ s.writes calls,
      ∀ (store : FileStore) (key : String), (op.apply store).2 ≠ .error (.invalidId key)) := by
  refine ⟨fun u id => ⟨read?_text u id, fun form ds hds => read?_write u hds form⟩,
    fun _ _ _ => read?_eq_some_iff, fun id => ?_, isValidId_text, fun a b => ?_, ?_⟩
  · exact ⟨id.hexValue?_digits, id.toList_text, id.isCanonical_text⟩
  · exact ⟨dataName_ne_tempName a.text b.text, files_ne⟩
  · intro s calls op hop store key
    have hid : op.id = s.id.text := s.id_eq_of_mem_writes calls hop
    exact apply_ne_invalidId (by rw [hid]; exact isValidId_text s.id) store key

/-- An id, its neighbour, and a URN of the first with its digits in mixed letter case. -/
def sampleId : SessionId := ⟨0x67e5504410b1426f9247bb680e5fe0c8⟩

def neighbourId : SessionId := ⟨0x67e5504410b1426f9247bb680e5fe0c9⟩

def sampleUrn : String := "urn:uuid:67E55044-10b1-426F-9247-BB680E5FE0C8"

/-- A session of it over a directory that is missing: its mark fails, and is not refused. -/
theorem storable_sampleId :
    UrnReading.lowerCase.read? sampleUrn = some sampleId ∧ sampleId ≠ neighbourId ∧
      dataName sampleId.text ≠ dataName neighbourId.text ∧
      .put sampleId.text "" ∈
        ({ id := sampleId, url := "", format := .ndjson } : Session).writes [.openEntry false] ∧
      (StoreOp.put sampleId.text "" |>.apply (⟨.missing⟩ : FileStore)).2 ≠
        .error (.invalidId sampleId.text) := by
  obtain ⟨-, hread, -, -, hfiles, hwrites⟩ := storable
  have hne : sampleId ≠ neighbourId := by decide
  have hmem : .put sampleId.text "" ∈
      ({ id := sampleId, url := "", format := .ndjson } : Session).writes [.openEntry false] :=
    List.mem_singleton_self _
  exact ⟨(hread .lowerCase _ _).mpr ⟨.urn, by decide, fun _ => by decide⟩, hne,
    ((hfiles _ _).2 hne).1, hmem, hwrites _ _ _ hmem _ _⟩

end SessionId
end LanInference
