/-
# Reading records and variants

Types with a known shape are read straight from the tree, so what they do not use is checked for
its grammar only. A record may be written as an object, in which its own members come at most once
and others are passed over, or as an array of all its members in order. A variant is written as its
name, or as an object whose only member is named for it.

Key definitions: `Fields`, `Fields.required?`, `Fields.optional?`, `Node.record?`, `Node.variant?`,
`Node.choice?`.
-/
import LanInference.Json.Value

namespace LanInference
namespace Json

/-- The members of a record that are present, by name. -/
abbrev Fields := List (String × Node)

namespace Fields

/-- The member of this name, if it is present. -/
def get? (fs : Fields) (name : String) : Option Node := (fs.find? (·.1 = name)).map (·.2)

/-- A member that must be present. -/
def required? {α : Type} (fs : Fields) (name : String) (read : Node → Option α) : Option α :=
  (fs.get? name).bind read

/-- A member that may be absent or null. A member that is neither must be readable. -/
def optional? {α : Type} (fs : Fields) (name : String) (read : Node → Option α) :
    Option (Option α) :=
  match fs.get? name with
  | none => some none
  | some .null => some none
  | some x => (read x).map some

/-- A member that may be absent, but not null. -/
def default? {α : Type} (fs : Fields) (name : String) (value : α) (read : Node → Option α) :
    Option α :=
  match fs.get? name with
  | none => some value
  | some x => read x

end Fields

namespace Node

/-- The text of a string. -/
def string? : Node → Option String
  | .string ps => (Json.text? ps).map String.ofList
  | _ => none

def bool? : Node → Option Bool
  | .bool b => some b
  | _ => none

/-- A natural number below `bound`. -/
def natural? (bound : Nat) : Node → Option Nat
  | .number n => n.natural? bound
  | _ => none

/-- An integer of 64 bits without sign. -/
def uint64? (x : Node) : Option UInt64 := (x.natural? wordBound).map UInt64.ofNat

/-- An integer of 16 bits without sign. -/
def uint16? (x : Node) : Option UInt16 := (x.natural? UInt16.size).map UInt16.ofNat

/-- The members among `names` after those in `acc`. Every key must be a text, and no member of the
record may come twice. -/
def knownMembers? (names : List String) (acc : Fields) :
    List (List Piece × Node) → Option Fields
  | [] => some acc
  | (k, x) :: ms =>
    match Json.text? k with
    | none => none
    | some k =>
      let k := String.ofList k
      if names.contains k then
        if (acc.get? k).isSome then none else knownMembers? names ((k, x) :: acc) ms
      else knownMembers? names acc ms

/-- The members of a record that stands inside `depth` containers and whose members are called
`names`, in this order. -/
def record? (names : List String) (depth : Nat) : Node → Option Fields
  | .object ms => if depth < depthLimit then knownMembers? names [] ms else none
  | .array xs =>
    if depth < depthLimit ∧ xs.length = names.length then some (names.zip xs) else none
  | _ => none

/-- The items of a list that stands inside `depth` containers. -/
def items? (depth : Nat) : Node → Option (List Node)
  | .array xs => if depth < depthLimit then some xs else none
  | _ => none

/-- The name of a variant and what it carries, if it is written with its own object. -/
def variant? (depth : Nat) : Node → Option (String × Option Node)
  | .string ps => (Json.text? ps).map fun k => (String.ofList k, none)
  | .object [(k, x)] =>
    if depth < depthLimit then (Json.text? k).map fun k => (String.ofList k, some x) else none
  | _ => none

/-- The variant that carries nothing: written as its name, or with null. -/
def unit? : Option Node → Option Unit
  | none => some ()
  | some .null => some ()
  | some _ => none

/-- One of several names, each with its value, written as a variant that carries nothing. -/
def choice? {α : Type} (choices : List (String × α)) (depth : Nat) (x : Node) : Option α := do
  let (name, payload) ← x.variant? depth
  unit? payload
  (choices.find? (·.1 = name)).map (·.2)

end Node
end Json
end LanInference
