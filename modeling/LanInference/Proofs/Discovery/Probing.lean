/-
# Which answers a probe takes

A probe is positive exactly if the status of its answer is 200, no declared length and no body is
larger than 1 MiB, and the body is a JSON object that has a member `models` of its own. The body is
read piece by piece and given up as soon as it grows too large; since its size only grows, that is
the case exactly if the whole of it is too large (`collectCapped_eq_some_iff`), so the pieces do not
matter.

Which member counts is said of the object's tree, however its text is spelled: the key of one of its
members has to be the text `models`, after its escapes. Members of its members do not count, nor do
keys in other letters.

Key definitions: `IsListing`.
Key theorems: `collectCapped_eq_some_iff`, `isModelListing_iff`, `ProbeAnswer.isPositive_iff`,
`Validator.probe_outcome`.
-/
import LanInference.Discovery.Validator
import LanInference.Json.Write
import LanInference.Proofs.Json.Soundness
import LanInference.Proofs.Json.Values
import LanInference.Proofs.Text.Utf8

namespace LanInference

open Json

/-! ### The size of the body -/

/-- Pieces are read to their end exactly if all of them together are small enough. -/
theorem collectCapped_eq_some_iff : ∀ {cs : List (List UInt8)} {body all : List UInt8},
    body.length ≤ maxProbeBody →
    (collectCapped body cs = some all ↔
      all = body ++ cs.flatten ∧ (body ++ cs.flatten).length ≤ maxProbeBody)
  | [], body, all, h => by
    simp only [collectCapped, Option.some.injEq, List.flatten_nil, List.append_nil, h, and_true]
    exact eq_comm
  | c :: cs, body, all, h => by
    rw [collectCapped, List.flatten_cons, ← List.append_assoc]
    split
    · rename_i hlarge
      -- the body is too large already, and what follows makes it no smaller
      constructor
      · intro hnone
        cases hnone
      · rintro ⟨-, hsmall⟩
        simp only [List.length_append] at hsmall
        omega
    · rename_i hsmall
      refine collectCapped_eq_some_iff ?_
      rw [List.length_append]
      omega

namespace ProbeAnswer

/-- No declared length is larger than the limit, and no body. -/
def Fits (a : ProbeAnswer) : Prop :=
  (∀ n, a.declared = some n → n ≤ maxProbeBody) ∧ a.chunks.flatten.length ≤ maxProbeBody

theorem readCapped_eq_some_iff {a : ProbeAnswer} {body : List UInt8} :
    a.readCapped = some body ↔ a.Fits ∧ body = a.chunks.flatten := by
  have hdeclared : a.declared.any (maxProbeBody < ·) = false ↔
      ∀ n, a.declared = some n → n ≤ maxProbeBody := by
    cases a.declared <;> simp
  unfold readCapped Fits
  rw [← hdeclared]
  cases a.declared.any (maxProbeBody < ·) with
  | true => simp
  | false =>
    have hnone : ([] : List UInt8).length ≤ maxProbeBody := Nat.zero_le _
    simp [collectCapped_eq_some_iff hnone, and_comm]

end ProbeAnswer

/-! ### The listing -/

/-- A JSON object with a member `models`, in any of its texts. As everything that a program takes
without knowing the members, its strings are texts, its numbers lie in the range of doubles, and its
containers are nested at most 127 deep. -/
def IsListing (body : List UInt8) : Prop :=
  ∃ text ms, body = Utf8.encode text ∧ (Node.object ms).Spelled text ∧
    (Node.object ms).Readable depthLimit ∧ ∃ m ∈ ms, text? m.1 = some "models".toList

/-- Only objects have values that are objects. -/
theorem eq_object_of_value? {x : Node} {depth : Nat} {vs : List (String × Value)}
    (h : x.value? depth = some (.object vs)) : ∃ ms, x = .object ms := by
  cases x with
  | object ms => exact ⟨ms, rfl⟩
  | array xs =>
    rw [Node.value?] at h
    split at h <;> simp at h
  | _ => simp [Node.value?] at h

theorem isModelListing_iff {status : UInt16} {body : List UInt8} :
    isModelListing status body = true ↔ status = 200 ∧ IsListing body := by
  rw [isModelListing, Bool.and_eq_true, beq_iff_eq]
  refine and_congr_right fun _ => ?_
  constructor
  · intro h
    split at h
    · rename_i vs hvalue
      obtain ⟨x, hparse, hvalue⟩ := Option.bind_eq_some_iff.mp hvalue
      obtain ⟨text, htext, hx⟩ := Option.bind_eq_some_iff.mp hparse
      obtain ⟨ms, rfl⟩ := eq_object_of_value? hvalue
      have hname : ∃ v ∈ vs, v.1 = probeMember := by simpa using h
      obtain ⟨hreadable, hmember⟩ := Node.exists_value?_object_iff.mp ⟨vs, hvalue, hname⟩
      exact ⟨text, ms, Utf8.decode?_eq_some_iff.mp htext, Node.parse?_eq_some_iff.mp hx, hreadable,
        hmember⟩
    · cases h
  · rintro ⟨text, ms, rfl, hspelled, hreadable, hmember⟩
    have hnamed : ∃ m ∈ ms, text? m.1 = some probeMember.toList := hmember
    obtain ⟨vs, hvs, v, hv, hname⟩ := Node.exists_value?_object_iff.mpr ⟨hreadable, hnamed⟩
    rw [Utf8.decode?_encode, Option.bind_some, Node.parse?_of_spelled hspelled, Option.bind_some,
      hvs]
    exact List.any_eq_true.mpr ⟨v, hv, decide_eq_true hname⟩

namespace ProbeAnswer

/-- **An answer is taken exactly if it is a model listing of an acceptable size.** -/
theorem isPositive_iff {a : ProbeAnswer} :
    a.isPositive = true ↔ a.status = 200 ∧ a.Fits ∧ IsListing a.chunks.flatten := by
  unfold isPositive
  split
  · rename_i body hbody
    obtain ⟨hfits, rfl⟩ := readCapped_eq_some_iff.mp hbody
    rw [isModelListing_iff]
    tauto
  · rename_i hnone
    have hlarge : ¬ a.Fits := fun hfits => by
      rw [readCapped_eq_some_iff.mpr ⟨hfits, rfl⟩] at hnone
      cases hnone
    simp [hlarge]

/-- The pieces of a body do not matter. -/
theorem isPositive_congr {a b : ProbeAnswer} (hstatus : a.status = b.status)
    (hdeclared : a.declared = b.declared) (hbody : a.chunks.flatten = b.chunks.flatten) :
    a.isPositive = b.isPositive := by
  rw [Bool.eq_iff_iff, isPositive_iff, isPositive_iff, Fits, Fits, hstatus, hdeclared, hbody]

end ProbeAnswer

/-! ### The probe -/

namespace Validator

theorem validate_of_fresh {v : Validator} {q : Inquiry} {a : ProbeAnswer}
    (hfresh : v.reuse? q = none) (hanswer : q.answer = some a) : v.validate q =
      (⟨v.outcomes.insert q.service.key.text (q.time + q.took, a.isPositive)⟩,
        ⟨a.isPositive, true⟩) := by
  rw [validate, hfresh, hanswer]
  rfl

/-- **A fresh probe is positive exactly if its answer has status 200, is not larger than 1 MiB nor
declared so, and is a JSON object with a member `models`.** The pieces in which the answer comes do
not matter, and an object that has no such member of its own is not taken, whatever its other
members are called and whatever is in them. -/
theorem probe_outcome {v : Validator} {q : Inquiry} {a : ProbeAnswer} (hfresh : v.reuse? q = none)
    (hanswer : q.answer = some a) :
    (v.validate q).2.asked = true ∧
    ((v.validate q).2.ok = true ↔
      a.status = 200 ∧ (∀ n, a.declared = some n → n ≤ 1048576) ∧
        a.chunks.flatten.length ≤ 1048576 ∧ IsListing a.chunks.flatten) ∧
    (∀ chunks : List (List UInt8), chunks.flatten = a.chunks.flatten →
      v.validate { q with answer := some { a with chunks } } = v.validate q) ∧
    ∀ text ms, a.chunks.flatten = Utf8.encode text → (Node.object ms).Spelled text →
      (∀ m ∈ ms, text? m.1 ≠ some "models".toList) → (v.validate q).2.ok = false := by
  have hvalidate := validate_of_fresh hfresh hanswer
  refine ⟨by rw [hvalidate], ?_, fun chunks hchunks => ?_, fun text ms htext hspelled hother => ?_⟩
  · calc (v.validate q).2.ok = true
        ↔ a.isPositive = true := by rw [hvalidate]
      _ ↔ a.status = 200 ∧ a.Fits ∧ IsListing a.chunks.flatten := ProbeAnswer.isPositive_iff
      _ ↔ _ := by rw [ProbeAnswer.Fits, and_assoc, maxProbeBody]
  · have hsame : ({ a with chunks } : ProbeAnswer).isPositive = a.isPositive :=
      ProbeAnswer.isPositive_congr rfl rfl hchunks
    have hfresh' : v.reuse? { q with answer := some { a with chunks } } = none := hfresh
    rw [hvalidate, validate_of_fresh hfresh' rfl, hsame]
  · rw [hvalidate]
    refine Bool.eq_false_iff.mpr fun hpositive => ?_
    obtain ⟨-, -, text', ms', hbody, hspelled', -, m, hm, hmodels⟩ :=
      ProbeAnswer.isPositive_iff.mp hpositive
    -- the text of the body is its only one, and so is the object that this text spells
    have htexts : text = text' := by
      have hdecoded := Utf8.decode?_encode text
      rw [← htext, hbody, Utf8.decode?_encode] at hdecoded
      exact (Option.some.inj hdecoded).symm
    subst htexts
    obtain rfl := Node.object.inj (hspelled.unique hspelled')
    exact hother m hm hmodels

-- A member of a member does not count, nor does a key in other letters.
example : isModelListing 200 (Utf8.encode
    "\x7b\"data\": \x7b\"models\": []\x7d, \"Models\": []\x7d".toList) = false := by decide +kernel

/-- A listing that comes in two pieces, parted within its key, one letter of which is escaped. -/
def listingInHalves : ProbeAnswer :=
  { status := 200
    chunks := [Utf8.encode "\x7b \"mod".toList, Utf8.encode "\\u0065ls\": [] \x7d".toList] }

/-- A probe that does not ask the cache. -/
def freshInquiry : Inquiry :=
  { time := 0, service := ⟨"attic", "nas.local", 11434⟩, probe := ⟨1500, .reload⟩,
    answer := some listingInHalves }

theorem probe_outcome_of_halves :
    IsListing listingInHalves.chunks.flatten ∧
      ∀ chunks : List (List UInt8), chunks.flatten = listingInHalves.chunks.flatten →
        (({} : Validator).validate
          { freshInquiry with answer := some { listingInHalves with chunks } }).2.ok = true := by
  obtain ⟨-, hiff, hpieces, -⟩ := probe_outcome (v := {}) (q := freshInquiry) rfl rfl
  have hok : (({} : Validator).validate freshInquiry).2.ok = true := by decide +kernel
  refine ⟨(hiff.mp hok).2.2.2, fun chunks hchunks => ?_⟩
  rw [hpieces chunks hchunks]
  exact hok

end Validator
end LanInference
