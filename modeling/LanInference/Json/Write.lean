/-
# Writing JSON

A tree is written without any space, members in their order. A value is written through its tree:
each key once with its last value, in ascending order, integers in decimal and doubles by the
fewest digits that read back.

Key definitions: `quote`, `Literal.write`, `Node.write`, `decimalLiteral`, `Number.literal`,
`Value.node`, `Value.compact`.
-/
import LanInference.Binary.Shortest
import LanInference.Json.Value

namespace LanInference
namespace Json

/-! ### Trees -/

/-- The escape of a unit by its four hexadecimal digits. -/
def unitEscape (n : Nat) : List Char := '\\' :: 'u' :: Text.hexFixed 4 n

/-- The escape of a character in a string, or the character itself. Only quotes, backslashes and
the characters below the space are escaped. -/
def quoteChar (c : Char) : List Char :=
  if c = '"' then ['\\', '"']
  else if c = '\\' then ['\\', '\\']
  else if c = Char.ofNat 8 then ['\\', 'b']
  else if c = Char.ofNat 12 then ['\\', 'f']
  else if c = '\n' then ['\\', 'n']
  else if c = '\r' then ['\\', 'r']
  else if c = '\t' then ['\\', 't']
  else if c.toNat < 0x20 then unitEscape c.toNat
  else [c]

/-- An element of a string as written. -/
def Piece.write : Piece → List Char
  | .char c => quoteChar c
  | .high n => unitEscape (0xD800 + n)
  | .low n => unitEscape (0xDC00 + n)

/-- A string in quotes. -/
def quote (ps : List Piece) : List Char := '"' :: (ps.flatMap Piece.write ++ ['"'])

/-- A number as written; an exponent always has a sign. -/
def Literal.write (n : Literal) : List Char :=
  let sign := if n.negative then ['-'] else []
  let fraction := match n.fraction with
    | some ds => '.' :: ds
    | none => []
  let exponent := match n.exponent with
    | some (negative, ds) => 'e' :: (if negative then '-' else '+') :: ds
    | none => []
  sign ++ n.whole ++ fraction ++ exponent

/-- Texts with commas between them. -/
def separated (ts : List (List Char)) : List Char := (ts.intersperse [',']).flatten

namespace Node

mutual

/-- The text of a tree, without any space. -/
def write : Node → List Char
  | .null => ['n', 'u', 'l', 'l']
  | .bool true => ['t', 'r', 'u', 'e']
  | .bool false => ['f', 'a', 'l', 's', 'e']
  | .number n => n.write
  | .string ps => quote ps
  | .array xs => '[' :: (separated (itemTexts xs) ++ [']'])
  | .object ms => '{' :: (separated (memberTexts ms) ++ ['}'])

def itemTexts : List Node → List (List Char)
  | [] => []
  | x :: xs => write x :: itemTexts xs

/-- Each member as its key, a colon and its value. -/
def memberTexts : List (List Piece × Node) → List (List Char)
  | [] => []
  | (k, x) :: ms => (quote k ++ ':' :: write x) :: memberTexts ms

end

/-- The text of a tree as a string. -/
def text (x : Node) : String := String.ofList x.write

/-- The tree of a string. -/
def ofString (s : String) : Node := .string (s.toList.map .char)

/-- The tree of a natural number. -/
def ofNat (n : Nat) : Node := .number ⟨false, Text.decimal n, none, none⟩

/-- The tree of something that may be missing. -/
def ofOption {α : Type} (f : α → Node) : Option α → Node
  | some a => f a
  | none => .null

/-- An object with named members. -/
def ofMembers (ms : List (String × Node)) : Node :=
  .object (ms.map fun m => (m.1.toList.map .char, m.2))

end Node

/-! ### Values -/

/-- The digits of a decimal, set positionally when the leading digit stands for `10^-5` up to
`10^15`, with at least one digit on each side of the point, and with an exponent otherwise. -/
def decimalLiteral (negative : Bool) (d : Decimal) : Literal :=
  let ds := Text.decimal d.digits
  let lead : Int := d.exponent + ds.length - 1
  if d.digits = 0 then ⟨negative, ['0'], some ['0'], none⟩
  else if -5 ≤ lead ∧ lead ≤ 15 then
    if 0 ≤ d.exponent then
      ⟨negative, ds ++ List.replicate d.exponent.toNat '0', some ['0'], none⟩
    else if 0 ≤ lead then
      ⟨negative, ds.take (lead.toNat + 1), some (ds.drop (lead.toNat + 1)), none⟩
    else ⟨negative, ['0'], some (List.replicate (-lead - 1).toNat '0' ++ ds), none⟩
  else
    ⟨negative, ds.take 1, if ds.length = 1 then none else some (ds.drop 1),
      some (lead < 0, Text.decimal lead.natAbs)⟩

/-- An integer in decimal, a double by the fewest digits that read back. -/
def Number.literal : Number → Literal
  | .integer i => ⟨i < 0, Text.decimal i.natAbs, none, none⟩
  | .double negative x => decimalLiteral negative x.shortest

/-- Members in ascending order of their keys, each key once with its last value. -/
def distinct {α : Type} (ms : List (String × α)) : List (String × α) :=
  keepLast (ms.mergeSort fun a b => a.1 ≤ b.1)
where
  /-- Of neighbours with one key the last. -/
  keepLast : List (String × α) → List (String × α)
    | [] => []
    | [m] => [m]
    | m :: n :: ms => if m.1 = n.1 then keepLast (n :: ms) else m :: keepLast (n :: ms)

namespace Value

mutual

/-- The tree of a value. -/
def node : Value → Node
  | .null => .null
  | .bool b => .bool b
  | .number n => .number n.literal
  | .string s => .ofString s
  | .array xs => .array (itemNodes xs)
  | .object ms => .ofMembers (distinct (memberNodes ms))

def itemNodes : List Value → List Node
  | [] => []
  | x :: xs => node x :: itemNodes xs

def memberNodes : List (String × Value) → List (String × Node)
  | [] => []
  | (k, x) :: ms => (k, node x) :: memberNodes ms

end

/-- The text of a value without any space. -/
def compact (v : Value) : String := v.node.text

end Value
end Json
end LanInference
