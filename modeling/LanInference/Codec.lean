/-
# The JSON form of the exchanged types

Each type that is exchanged as JSON has a tree that writes it and a reader that takes it back:
records as objects in the order of their fields, variants by their name or as an object with that
one member.

Key definitions: `Codec`, `Codec.encode`, `Codec.decode?`, and the instances for `Event`,
`StreamError`, `Progress`, `Provider`, `Role`, `ChatMessage`, `Endpoint`, `EndpointKey`,
`PowerMode` and `SessionId`.
-/
import LanInference.Chat
import LanInference.Discovery.Endpoint
import LanInference.Json.Record
import LanInference.Power.State
import LanInference.SessionId

namespace LanInference

/-- A type with a JSON form. The reader is told how many containers the tree stands in. -/
class Codec (α : Type) where
  node : α → Json.Node
  ofNode? : (depth : Nat) → Json.Node → Option α

namespace Codec

variable {α : Type} [Codec α]

/-- The JSON text of a value. -/
def encode (a : α) : String := (node a).text

/-- The value that a JSON text writes. -/
def decode? (text : List Char) : Option α := (Json.Node.parse? text).bind (ofNode? 0)

end Codec

open Json (Node)

/-- A variant that carries something: an object with one member, named for the variant. -/
def variantNode (name : String) (payload : Node) : Node := .ofMembers [(name, payload)]

instance : Codec Progress where
  node p := .ofMembers [("status", .ofString p.status), ("digest", .ofOption .ofString p.digest),
    ("total", .ofOption (fun n => .ofNat n.toNat) p.total),
    ("completed", .ofOption (fun n => .ofNat n.toNat) p.completed)]
  ofNode? depth x := do
    let fs ← x.record? ["status", "digest", "total", "completed"] depth
    return {
      status := ← fs.required? "status" Node.string?
      digest := ← fs.optional? "digest" Node.string?
      total := ← fs.optional? "total" Node.uint64?
      completed := ← fs.optional? "completed" Node.uint64? }

instance : Codec StreamError where
  node
    | .transport reason => variantNode "Transport" (.ofString reason)
    | .status code => variantNode "Status" (.ofNat code.toNat)
    | .provider message => variantNode "Provider" (.ofString message)
  ofNode? depth x := do
    match ← x.variant? depth with
    | ("Transport", some x) => x.string?.map .transport
    | ("Status", some x) => x.uint16?.map .status
    | ("Provider", some x) => x.string?.map .provider
    | _ => none

instance : Codec Event where
  node
    | .delta text => variantNode "Delta" (.ofString text)
    | .progress p => variantNode "Progress" (Codec.node p)
    | .done => .ofString "Done"
    | .error e => variantNode "Error" (Codec.node e)
  ofNode? depth x := do
    match ← x.variant? depth with
    | ("Delta", some x) => x.string?.map .delta
    | ("Progress", some x) => (Codec.ofNode? (depth + 1) x).map .progress
    | ("Done", payload) => (Node.unit? payload).map fun _ => .done
    | ("Error", some x) => (Codec.ofNode? (depth + 1) x).map .error
    | _ => none

instance : Codec Provider where
  node p := .ofString p.name
  ofNode? depth x := x.choice? (Provider.all.map fun p => (p.name, p)) depth

instance : Codec Role where
  node r := .ofString r.name
  ofNode? depth x := x.choice? (Role.all.map fun r => (r.name, r)) depth

instance : Codec PowerMode where
  node m := .ofString m.name
  ofNode? depth x := x.choice? (PowerMode.all.map fun m => (m.name, m)) depth

instance : Codec ChatMessage where
  node m := m.node
  ofNode? depth x := do
    let fs ← x.record? ["role", "content"] depth
    return ⟨← fs.required? "role" (Codec.ofNode? (depth + 1)),
      ← fs.required? "content" Node.string?⟩

instance : Codec EndpointKey where
  node k := .ofString k.text
  ofNode? _ x := x.string?.map .mk

instance : Codec Endpoint where
  node e := .ofMembers [("key", Codec.node e.key), ("name", .ofString e.name),
    ("host", .ofString e.host), ("port", .ofNat e.port.toNat), ("validated", .bool e.validated)]
  ofNode? depth x := do
    let fs ← x.record? ["key", "name", "host", "port", "validated"] depth
    return {
      key := ← fs.required? "key" (Codec.ofNode? (depth + 1))
      name := ← fs.required? "name" Node.string?
      host := ← fs.required? "host" Node.string?
      port := ← fs.required? "port" Node.uint16?
      validated := ← fs.required? "validated" Node.bool? }

instance : Codec SessionId where
  node id := .ofString id.text
  ofNode? _ x := x.string?.bind SessionId.parse?

end LanInference
