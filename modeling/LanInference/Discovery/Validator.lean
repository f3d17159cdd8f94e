/-
# Validation by probing, with a cache

An endpoint is validated by asking its server for the model listing. What a probe found is kept
under the endpoint's key, and a caller that prefers the cache gets it back until it is 300 seconds
old. A probe without a complete answer finds no chat server, and so does one whose answer is larger
than 1 MiB.

Key definitions: `ProbeAnswer`, `ProbeAnswer.readCapped`, `ProbeAnswer.isPositive`, `Validator`,
`Inquiry`, `Validator.reuse?`, `Validator.validate`.
-/
import LanInference.Discovery.Endpoint
import LanInference.Discovery.Probe
import LanInference.Net.Http
import LanInference.Net.Url
import LanInference.Power.Policy

namespace LanInference

/-- The largest body of a model listing, in bytes. -/
def maxProbeBody : Nat := 1048576

/-- How long the outcome of a probe may be used again, in milliseconds. -/
def outcomeLifetime : Nat := 300000

/-- A complete answer to a probe: its status, the length that its header declares, and its body in
the pieces in which it came. -/
structure ProbeAnswer where
  status : UInt16
  declared : Option Nat := none
  chunks : List (List UInt8) := []
  deriving Repr, DecidableEq

/-- The body read piece by piece, unless it grows beyond the largest size. -/
def collectCapped (body : List UInt8) : List (List UInt8) → Option (List UInt8)
  | [] => some body
  | c :: cs =>
    if maxProbeBody < body.length + c.length then none else collectCapped (body ++ c) cs

/-- The body of an answer, unless it is too large or declared so. -/
def ProbeAnswer.readCapped (a : ProbeAnswer) : Option (List UInt8) :=
  if a.declared.any (maxProbeBody < ·) then none else collectCapped [] a.chunks

/-- Whether an answer is a model listing of an acceptable size. -/
def ProbeAnswer.isPositive (a : ProbeAnswer) : Bool :=
  match a.readCapped with
  | some body => isModelListing a.status body
  | none => false

/-- The request of a probe. -/
def probeRequest? (s : Service) (probe : ProbePolicy) : Option HttpRequest :=
  (Url.parse? (probeUrl s.baseUrl)).map fun u =>
    { method := "GET"
      target := u.target
      cacheControl := match probe.cache with
        | .reload => some "no-cache"
        | .prefer => none }

/-- What the latest probe of each key found, and when it was done. -/
structure Validator where
  outcomes : OrderedMap (Nat × Bool) := .empty
  deriving DecidableEq, Repr

/-- A validation that is asked for: when and how, and what the server will answer if it is asked. -/
structure Inquiry where
  time : Nat
  service : Service
  probe : ProbePolicy
  /-- Nothing, if the answer is not complete in time. -/
  answer : Option ProbeAnswer
  /-- How long the answer takes. -/
  took : Nat := 0
  deriving Repr, DecidableEq

/-- What came of a validation: whether the endpoint is valid, and whether its server was asked. -/
structure Validation where
  ok : Bool
  asked : Bool
  deriving Repr, DecidableEq

namespace Validator

/-- The outcome for a key that may be used again. -/
def fresh? (v : Validator) (now : Nat) (key : EndpointKey) : Option Bool :=
  (v.outcomes.get? key.text).bind fun o => if now - o.1 < outcomeLifetime then some o.2 else none

/-- The outcome that answers an inquiry without a probe. -/
def reuse? (v : Validator) (q : Inquiry) : Option Bool :=
  match q.probe.cache with
  | .prefer => v.fresh? q.time q.service.key
  | .reload => none

/-- An inquiry is answered from the cache if it may be, and by a probe otherwise. -/
def validate (v : Validator) (q : Inquiry) : Validator × Validation :=
  match v.reuse? q with
  | some ok => (v, ⟨ok, false⟩)
  | none =>
    let ok := q.answer.any ProbeAnswer.isPositive
    (⟨v.outcomes.insert q.service.key.text (q.time + q.took, ok)⟩, ⟨ok, true⟩)

/-- Inquiries one after the other. -/
def validateAll (v : Validator) : List Inquiry → Validator × List Validation
  | [] => (v, [])
  | q :: qs =>
    let (v, r) := v.validate q
    let (v, rs) := v.validateAll qs
    (v, r :: rs)

end Validator
end LanInference
