/-
# The tokens of a JSON text

The first reading of a JSON text: brackets, separators, words, numbers as written and strings as
written. Strings keep the surrogates that their escapes name, since only a string that is used
has to pair them; numbers keep their digits, since only a number that is used has to have a value.

Key definitions: `Piece`, `text?`, `Literal`, `Token`, `tokens?`.
-/
import LanInference.Text.Digits

namespace LanInference
namespace Json

/-- One element of a string as written: a character, or a surrogate named by an escape, by its
offset in its range. -/
inductive Piece where
  | char (c : Char)
  | high (offset : Nat)
  | low (offset : Nat)
  deriving Repr, DecidableEq

/-- The piece an escape of four hexadecimal digits names. -/
def Piece.ofUnit (n : Nat) : Piece :=
  if 0xD800 ≤ n ∧ n < 0xDC00 then .high (n - 0xD800)
  else if 0xDC00 ≤ n ∧ n < 0xE000 then .low (n - 0xDC00)
  else .char (Char.ofNat n)

/-- The text of a string as written, if every surrogate in it belongs to a pair. -/
def text? (ps : List Piece) : Option (List Char) := go [] ps
where
  go (acc : List Char) : List Piece → Option (List Char)
    | [] => some acc.reverse
    | .char c :: ps => go (c :: acc) ps
    | .high h :: .low l :: ps => go (Char.ofNat (0x10000 + h * 0x400 + l) :: acc) ps
    | _ => none

/-- A number as written: sign, digits before the point, digits after it, and the exponent's sign
(`true` for minus) and digits. -/
structure Literal where
  negative : Bool
  whole : List Char
  fraction : Option (List Char)
  exponent : Option (Bool × List Char)
  deriving Repr, DecidableEq

inductive Token where
  | openArray | closeArray | openObject | closeObject | comma | colon
  | null
  | bool (b : Bool)
  | number (n : Literal)
  | string (ps : List Piece)
  deriving Repr, DecidableEq

/-- The four characters that may stand between tokens. -/
def isSpace (c : Char) : Bool := c == ' ' || c == '\n' || c == '\t' || c == '\r'

/-- The character that a one-letter escape stands for. -/
def simpleEscape? : Char → Option Char
  | '"' => some '"'
  | '\\' => some '\\'
  | '/' => some '/'
  | 'b' => some (Char.ofNat 8)
  | 'f' => some (Char.ofNat 12)
  | 'n' => some '\n'
  | 'r' => some '\r'
  | 't' => some '\t'
  | _ => none

/-- The rest of a string after its opening quote, with what follows its closing quote. `acc` holds
the pieces so far, the newest first. -/
def stringBody? (acc : List Piece) : List Char → Option (List Piece × List Char)
  | [] => none
  | '\\' :: 'u' :: a :: b :: c :: d :: rest =>
    match hexDigit a, hexDigit b, hexDigit c, hexDigit d with
    | some a, some b, some c, some d =>
      stringBody? (Piece.ofUnit (((a * 16 + b) * 16 + c) * 16 + d) :: acc) rest
    | _, _, _, _ => none
  | '\\' :: e :: rest =>
    match simpleEscape? e with
    | some c => stringBody? (.char c :: acc) rest
    | none => none
  | c :: rest =>
    if c = '"' then some (acc.reverse, rest)
    else if c.toNat < 0x20 ∨ c = '\\' then none
    else stringBody? (.char c :: acc) rest
where
  hexDigit (c : Char) : Option Nat := Text.hexDigit? c

/-- The part of a number after the digits before the point. -/
def fractionPart? (cs : List Char) : Option (Option (List Char) × List Char) :=
  match cs with
  | '.' :: rest =>
    let (ds, rest) := rest.span Char.isDigit
    if ds.isEmpty then none else some (some ds, rest)
  | _ => some (none, cs)

/-- The exponent of a number: the letter, perhaps a sign, and digits. -/
def exponentPart? (cs : List Char) : Option (Option (Bool × List Char) × List Char) :=
  match cs with
  | e :: rest =>
    if e = 'e' ∨ e = 'E' then
      let (negative, rest) := match rest with
        | '+' :: rest => (false, rest)
        | '-' :: rest => (true, rest)
        | _ => (false, rest)
      let (ds, rest) := rest.span Char.isDigit
      if ds.isEmpty then none else some (some (negative, ds), rest)
    else some (none, cs)
  | [] => some (none, [])

/-- A number, with what follows it. The digits before the point have no leading zero. -/
def number? (cs : List Char) : Option (Literal × List Char) :=
  let (negative, cs) := match cs with
    | '-' :: rest => (true, rest)
    | _ => (false, cs)
  let (whole, rest) := cs.span Char.isDigit
  if whole.isEmpty ∨ (whole.head? = some '0' ∧ whole.length ≠ 1) then none
  else do
    let (fraction, rest) ← fractionPart? rest
    let (exponent, rest) ← exponentPart? rest
    return (⟨negative, whole, fraction, exponent⟩, rest)

/-- The token that starts with the first character, with what follows it. -/
def token? : List Char → Option (Token × List Char)
  | '[' :: rest => some (.openArray, rest)
  | ']' :: rest => some (.closeArray, rest)
  | '{' :: rest => some (.openObject, rest)
  | '}' :: rest => some (.closeObject, rest)
  | ',' :: rest => some (.comma, rest)
  | ':' :: rest => some (.colon, rest)
  | 'n' :: 'u' :: 'l' :: 'l' :: rest => some (.null, rest)
  | 't' :: 'r' :: 'u' :: 'e' :: rest => some (.bool true, rest)
  | 'f' :: 'a' :: 'l' :: 's' :: 'e' :: rest => some (.bool false, rest)
  | '"' :: rest => (stringBody? [] rest).map fun (ps, rest) => (.string ps, rest)
  | cs => (number? cs).map fun (n, rest) => (.number n, rest)

/-- The tokens of a text. Every token and every space takes a character, so the text's length
bounds the steps. -/
def tokens? (cs : List Char) : Option (List Token) := go cs.length [] cs
where
  go : Nat → List Token → List Char → Option (List Token)
    | _, acc, [] => some acc.reverse
    | 0, _, _ :: _ => none
    | n + 1, acc, c :: cs =>
      if isSpace c then go n acc cs
      else
        match token? (c :: cs) with
        | some (t, rest) => go n (t :: acc) rest
        | none => none

end Json
end LanInference
