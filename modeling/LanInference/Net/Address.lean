/-
# IP addresses

Addresses of both versions, their text and their order. An IPv6 address is written with the first
longest run of two or more zero groups left out, and an IPv4-mapped one with its last two groups as
an IPv4 address.

Key definitions: `Ipv4`, `Ipv6`, `Address`, `Address.text`, `Address.parse?`, `Address.preferred?`.
-/
import LanInference.Text.Digits

namespace LanInference

/-- An IPv4 address by its four octets. -/
structure Ipv4 where
  a : UInt8
  b : UInt8
  c : UInt8
  d : UInt8
  deriving Repr, DecidableEq

/-- An IPv6 address by its eight groups. -/
structure Ipv6 where
  groups : List UInt16
  length_groups : groups.length = 8
  deriving Repr, DecidableEq

inductive Address where
  | v4 (a : Ipv4)
  | v6 (a : Ipv6)
  deriving Repr, DecidableEq

/-! ### Writing -/

/-- The hexadecimal digits of a group, without leading zeros. -/
def groupText (g : UInt16) : List Char := Nat.toDigits 16 g.toNat

/-- Groups with colons between them. -/
def groupsText (gs : List UInt16) : List Char := [':'].intercalate (gs.map groupText)

namespace Ipv4

def text (a : Ipv4) : List Char :=
  ['.'].intercalate ([a.a, a.b, a.c, a.d].map fun n => Text.decimal n.toNat)

/-- The address as a number of 32 bits. -/
def value (a : Ipv4) : Nat :=
  ((a.a.toNat * 256 + a.b.toNat) * 256 + a.c.toNat) * 256 + a.d.toNat

end Ipv4

/-- A run of zero groups: where it starts and how long it is. -/
structure ZeroRun where
  start : Nat
  length : Nat
  deriving Repr, DecidableEq

/-- The first longest run of zero groups. `i` is the place of the first group in the list, `current`
the run that ends before it, `longest` the longest so far. -/
def longestZeroRun (i : Nat) (current longest : ZeroRun) : List UInt16 → ZeroRun
  | [] => longest
  | g :: gs =>
    if g = 0 then
      let run : ZeroRun :=
        if current.length = 0 then ⟨i, 1⟩ else ⟨current.start, current.length + 1⟩
      longestZeroRun (i + 1) run (if longest.length < run.length then run else longest) gs
    else longestZeroRun (i + 1) ⟨0, 0⟩ longest gs

namespace Ipv6

/-- The IPv4 address that the last two groups of an IPv4-mapped address carry. -/
def mapped? (a : Ipv6) : Option Ipv4 :=
  match a.groups with
  | [0, 0, 0, 0, 0, 0xFFFF, g, h] =>
    some ⟨(g >>> 8).toUInt8, g.toUInt8, (h >>> 8).toUInt8, h.toUInt8⟩
  | _ => none

/-- The groups in hexadecimal, with the first longest run of two or more zero groups left out. -/
def hexText (a : Ipv6) : List Char :=
  let run := longestZeroRun 0 ⟨0, 0⟩ ⟨0, 0⟩ a.groups
  if 1 < run.length then
    groupsText (a.groups.take run.start) ++ ':' :: ':' ::
      groupsText (a.groups.drop (run.start + run.length))
  else groupsText a.groups

def text (a : Ipv6) : List Char :=
  match a.mapped? with
  | some v4 => [':', ':', 'f', 'f', 'f', 'f', ':'] ++ v4.text
  | none => a.hexText

/-- The address as a number of 128 bits. -/
def value (a : Ipv6) : Nat := a.groups.foldl (fun n g => n * 65536 + g.toNat) 0

end Ipv6

/-! ### Reading -/

/-- An octet in one to three decimal digits without a leading zero, with what follows it. -/
def octet? (cs : List Char) : Option (UInt8 × List Char) :=
  let (ds, rest) := cs.span Char.isDigit
  if ds = [] ∨ 3 < ds.length ∨ (1 < ds.length ∧ ds.head? = some '0') ∨ 255 < Text.decimalValue ds
  then none
  else some (UInt8.ofNat (Text.decimalValue ds), rest)

/-- What follows the character `c`, if the text starts with it. -/
def after? (c : Char) : List Char → Option (List Char)
  | d :: rest => if d = c then some rest else none
  | [] => none

def Ipv4.read? (cs : List Char) : Option (Ipv4 × List Char) := do
  let (a, cs) ← octet? cs
  let (b, cs) ← octet? (← after? '.' cs)
  let (c, cs) ← octet? (← after? '.' cs)
  let (d, cs) ← octet? (← after? '.' cs)
  return (⟨a, b, c, d⟩, cs)

/-- A group of one to four hexadecimal digits, with what follows it. -/
def group? (cs : List Char) : Option (UInt16 × List Char) :=
  let (ds, rest) := cs.span fun c => (Text.hexDigit? c).isSome
  if ds = [] ∨ 4 < ds.length then none
  else (Text.hexValue? ds).map fun n => (UInt16.ofNat n, rest)

/-- Groups read with colons between them: the groups, whether the last two were written as an IPv4
address, and what follows. -/
structure GroupsRead where
  groups : List UInt16
  endsInIpv4 : Bool
  rest : List Char
  deriving Repr, DecidableEq

/-- At most `limit` groups; where two may still stand, an IPv4 address may stand for both. -/
def readGroups : (limit : Nat) → (first : Bool) → List Char → GroupsRead
  | 0, _, cs => ⟨[], false, cs⟩
  | n + 1, first, cs =>
    match if first then some cs else after? ':' cs with
    | none => ⟨[], false, cs⟩
    | some here =>
      match if n = 0 then none else Ipv4.read? here with
      | some (v4, rest) =>
        let high := v4.a.toUInt16 <<< 8 ||| v4.b.toUInt16
        let low := v4.c.toUInt16 <<< 8 ||| v4.d.toUInt16
        ⟨[high, low], true, rest⟩
      | none =>
        match group? here with
        | some (g, rest) =>
          let more := readGroups n false rest
          { more with groups := g :: more.groups }
        | none => ⟨[], false, cs⟩

/-- Eight groups, or two lists of fewer around a double colon that stands for at least one zero
group. -/
def Ipv6.read? (cs : List Char) : Option (Ipv6 × List Char) :=
  let head := readGroups 8 true cs
  if h : head.groups.length = 8 then some (⟨head.groups, h⟩, head.rest)
  else if head.endsInIpv4 then none
  else
    match head.rest with
    | ':' :: ':' :: rest =>
      let tail := readGroups (7 - head.groups.length) true rest
      let zeros := 8 - head.groups.length - tail.groups.length
      let groups := head.groups ++ List.replicate zeros 0 ++ tail.groups
      if h : groups.length = 8 then some (⟨groups, h⟩, tail.rest) else none
    | _ => none

namespace Address

/-- The address that is written like this, and nothing after it. -/
def parse? (s : String) : Option Address :=
  let cs := s.toList
  let read := match Ipv4.read? cs with
    | some (a, rest) => some (v4 a, rest)
    | none => (Ipv6.read? cs).map fun (a, rest) => (v6 a, rest)
  match read with
  | some (a, []) => some a
  | _ => none

def text : Address → String
  | v4 a => String.ofList a.text
  | v6 a => String.ofList a.text

/-- The place of an address in the order of preference: IPv4 before IPv6, smaller before larger. -/
def rank : Address → Nat
  | v4 a => a.value
  | v6 a => UInt32.size + a.value

/-- The preferred one of several addresses. -/
def preferred? : List Address → Option Address
  | [] => none
  | a :: as =>
    match preferred? as with
    | none => some a
    | some b => some (if a.rank ≤ b.rank then a else b)

end Address
end LanInference
