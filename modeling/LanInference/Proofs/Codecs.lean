/-
# What is exchanged is read back

Each type that is exchanged as JSON has a law: its values can be written, and each is read back from
its tree wherever the containers it needs may still be nested. So the text of a value is decoded as
that value, whatever characters its strings have and however large its integers are, and different
values have different texts.

Key definitions: `Codec.Lawful`, `Codec.RoundTrips`.
Key theorems: `Codec.Lawful.roundTrips`, `Codec.lawful_progress`, `Codec.lawful_event`,
`Codec.lawful_endpoint`, `Codec.exchanged_roundTrip`.
-/
import LanInference.Codec
import LanInference.Proofs.Json.Records
import LanInference.Proofs.SessionId

namespace LanInference

open Json (Node Fields depthLimit)

namespace Codec

/-- The values of a type can be written, and are read back from their trees wherever `height` more
containers may be nested. -/
structure Lawful (α : Type) [Codec α] (height : Nat) : Prop where
  writable : ∀ a : α, (node a).Writable
  ofNode?_node : ∀ (a : α) (depth : Nat), depth + height ≤ depthLimit →
    ofNode? depth (node a) = some a

/-- The text of a value is decoded as the value, and no other value has it. -/
structure RoundTrips (α : Type) [Codec α] : Prop where
  decode_encode : ∀ a : α, decode? (encode a).toList = some a
  encode_injective : Function.Injective (encode : α → String)

/-- A lawful type round trips, if its containers may be nested at all. -/
theorem Lawful.roundTrips {α : Type} [Codec α] {height : Nat} (h : Lawful α height)
    (hheight : height ≤ depthLimit) : RoundTrips α := by
  have hdecode : ∀ a : α, decode? (encode a).toList = some a := by
    intro a
    unfold decode? encode Node.text
    rw [String.toList_ofList, Node.parse?_write (h.writable a), Option.bind_some]
    exact h.ofNode?_node a 0 (by omega)
  refine ⟨hdecode, ?_⟩
  intro a b hab
  have hsome : some a = some b := by rw [← hdecode a, ← hdecode b, hab]
  exact Option.some.inj hsome

/-! ### Names -/

/-- A type of a few names is lawful if no two of them are equal. -/
theorem lawful_ofNames {α : Type} [Codec α] (all : List α) (name : α → String)
    (hname : Function.Injective name) (hall : ∀ a, a ∈ all)
    (hnode : ∀ a : α, node a = .ofString (name a))
    (hread : ∀ depth x, ofNode? (α := α) depth x = x.choice? (all.map fun a => (name a, a)) depth) :
    Lawful α 0 where
  writable a := by
    rw [hnode]
    exact Node.writable_ofString _
  ofNode?_node a depth _ := by
    rw [hnode, hread]
    exact Node.choice?_ofString hname (hall a) depth

theorem lawful_provider : Lawful Provider 0 := by
  refine lawful_ofNames Provider.all Provider.name ?_ ?_ (fun _ => rfl) fun _ _ => rfl
  · intro a b h
    cases a <;> cases b <;> simp_all [Provider.name]
  · intro a
    cases a <;> decide

theorem lawful_role : Lawful Role 0 := by
  refine lawful_ofNames Role.all Role.name ?_ ?_ (fun _ => rfl) fun _ _ => rfl
  · intro a b h
    cases a <;> cases b <;> simp_all [Role.name]
  · intro a
    cases a <;> decide

theorem lawful_powerMode : Lawful PowerMode 0 := by
  refine lawful_ofNames PowerMode.all PowerMode.name ?_ ?_ (fun _ => rfl) fun _ _ => rfl
  · intro a b h
    cases a <;> cases b <;> simp_all [PowerMode.name]
  · intro a
    cases a <;> decide

/-! ### Texts -/

theorem lawful_endpointKey : Lawful EndpointKey 0 where
  writable k := Node.writable_ofString k.text
  ofNode?_node k depth _ := by
    show ((Node.ofString k.text).string?).map EndpointKey.mk = some k
    rw [Node.string?_ofString, Option.map_some]

theorem lawful_sessionId : Lawful SessionId 0 where
  writable id := Node.writable_ofString id.text
  ofNode?_node id depth _ := by
    show ((Node.ofString id.text).string?).bind SessionId.parse? = some id
    rw [Node.string?_ofString, Option.bind_some, SessionId.parse?_text]

/-! ### Variants -/

theorem variant?_variantNode {depth : Nat} (h : depth < depthLimit) (name : String) (x : Node) :
    (variantNode name x).variant? depth = some (name, some x) := by
  show (if depth < depthLimit then
    (Json.text? (name.toList.map .char)).map fun k => (String.ofList k, some x) else none) = _
  rw [if_pos h, Json.text?_map_char, Option.map_some, String.ofList_toList]

theorem writable_variantNode {name : String} {x : Node} (h : x.Writable) :
    (variantNode name x).Writable :=
  Node.writable_ofMembers _ (by simpa using h)

theorem lawful_streamError : Lawful StreamError 1 where
  writable e := by
    cases e with
    | transport reason => exact writable_variantNode (Node.writable_ofString reason)
    | status code => exact writable_variantNode (Node.writable_ofNat code.toNat)
    | provider message => exact writable_variantNode (Node.writable_ofString message)
  ofNode?_node e depth hd := by
    have hroom : depth < depthLimit := by omega
    cases e with
    | transport reason =>
      simp [node, ofNode?, variant?_variantNode hroom, Node.string?_ofString]
    | status code => simp [node, ofNode?, variant?_variantNode hroom, Node.uint16?_ofNat]
    | provider message =>
      simp [node, ofNode?, variant?_variantNode hroom, Node.string?_ofString]

/-! ### Records -/

theorem lawful_progress : Lawful Progress 1 where
  writable p := by
    have hdigest := Node.writable_ofOption Node.writable_ofString p.digest
    have htotal := Node.writable_ofOption (fun n : UInt64 => Node.writable_ofNat n.toNat) p.total
    have hcompleted :=
      Node.writable_ofOption (fun n : UInt64 => Node.writable_ofNat n.toNat) p.completed
    refine Node.writable_ofMembers _ ?_
    simp [Node.writable_ofString, hdigest, htotal, hcompleted]
  ofNode?_node p depth hd := by
    have hrecord := @Node.record?_ofMembers ["status", "digest", "total", "completed"] depth
      [("status", .ofString p.status), ("digest", .ofOption .ofString p.digest),
        ("total", .ofOption (fun n : UInt64 => .ofNat n.toNat) p.total),
        ("completed", .ofOption (fun n : UInt64 => .ofNat n.toNat) p.completed)]
      (by omega) (by simp) (by simp)
    simp [node, ofNode?, hrecord, Node.string?_ofString,
      Fields.optional?_ofOption Node.ofString_ne_null Node.string?_ofString,
      Fields.optional?_ofOption (fun n : UInt64 => Node.ofNat_ne_null n.toNat) Node.uint64?_ofNat]

theorem lawful_chatMessage : Lawful ChatMessage 1 where
  writable m := by
    refine Node.writable_ofMembers _ ?_
    simp [Node.writable_ofString]
  ofNode?_node m depth hd := by
    have hrecord := @Node.record?_ofMembers ["role", "content"] depth
      [("role", .ofString m.role.name), ("content", .ofString m.content)]
      (by omega) (by simp) (by simp)
    have hrole : (Node.ofString m.role.name).choice? (Role.all.map fun r => (r.name, r))
        (depth + 1) = some m.role := lawful_role.ofNode?_node m.role (depth + 1) hd
    simp [node, ofNode?, ChatMessage.node, hrecord, hrole, Node.string?_ofString]

theorem lawful_endpoint : Lawful Endpoint 1 where
  writable e := by
    have hkey := lawful_endpointKey.writable e.key
    have hport := Node.writable_ofNat e.port.toNat
    refine Node.writable_ofMembers _ ?_
    simp [Node.writable_ofString, hkey, hport, Node.Writable]
  ofNode?_node e depth hd := by
    have hrecord := @Node.record?_ofMembers ["key", "name", "host", "port", "validated"] depth
      [("key", .ofString e.key.text), ("name", .ofString e.name), ("host", .ofString e.host),
        ("port", .ofNat e.port.toNat), ("validated", .bool e.validated)]
      (by omega) (by simp) (by simp)
    simp [node, ofNode?, hrecord, Node.string?_ofString, Node.uint16?_ofNat, Node.bool?]

/-- An event holds a record or an error one level down. -/
theorem lawful_event : Lawful Event 2 where
  writable e := by
    cases e with
    | delta text => exact writable_variantNode (Node.writable_ofString text)
    | progress p => exact writable_variantNode (lawful_progress.writable p)
    | done => exact Node.writable_ofString "Done"
    | error e => exact writable_variantNode (lawful_streamError.writable e)
  ofNode?_node e depth hd := by
    have hroom : depth < depthLimit := by omega
    cases e with
    | delta text => simp [node, ofNode?, variant?_variantNode hroom, Node.string?_ofString]
    | progress p =>
      have hp := lawful_progress.ofNode?_node p (depth + 1) (by omega)
      have hvariant := variant?_variantNode hroom "Progress" (node p)
      show ((variantNode "Progress" (node p)).variant? depth).bind _ = some (Event.progress p)
      rw [hvariant]
      show (ofNode? (depth + 1) (node p)).map Event.progress = some (Event.progress p)
      rw [hp, Option.map_some]
    | done => simp [node, ofNode?, Node.variant?_ofString, Node.unit?]
    | error e =>
      have he := lawful_streamError.ofNode?_node e (depth + 1) (by omega)
      have hvariant := variant?_variantNode hroom "Error" (node e)
      show ((variantNode "Error" (node e)).variant? depth).bind _ = some (Event.error e)
      rw [hvariant]
      show (ofNode? (depth + 1) (node e)).map Event.error = some (Event.error e)
      rw [he, Option.map_some]

/-- **Whatever is exchanged is read back.** Decoding the text of a value gives the value, for every
type that has a JSON form, so that no two values of a type have one text. -/
theorem exchanged_roundTrip : RoundTrips Event ∧ RoundTrips StreamError ∧ RoundTrips Progress ∧
    RoundTrips ChatMessage ∧ RoundTrips Provider ∧ RoundTrips Role ∧ RoundTrips Endpoint ∧
    RoundTrips EndpointKey ∧ RoundTrips PowerMode ∧ RoundTrips SessionId := by
  refine ⟨lawful_event.roundTrips ?_, lawful_streamError.roundTrips ?_,
    lawful_progress.roundTrips ?_, lawful_chatMessage.roundTrips ?_, lawful_provider.roundTrips ?_,
    lawful_role.roundTrips ?_, lawful_endpoint.roundTrips ?_, lawful_endpointKey.roundTrips ?_,
    lawful_powerMode.roundTrips ?_, lawful_sessionId.roundTrips ?_⟩
  all_goals decide

end Codec
end LanInference
