/-
# Settings files

A settings file is TOML with nothing but comments, blank lines and assignments of strings and
integers at the top level. Strings come in the four forms of TOML: basic and literal, on one line or
on several. Any other document is refused.

Key definitions: `Toml.Scalar`, `Toml.string?`, `Toml.integer?`, `Toml.assignments?`.
-/
import LanInference.Text.Digits

namespace LanInference
namespace Toml

inductive Scalar where
  | string (s : String)
  | integer (i : Int)
  deriving Repr, DecidableEq

/-- Space and tab, which may stand between the parts of a line. -/
def isGap (c : Char) : Bool := c == ' ' || c == '\t'

/-- Characters that may stand in a comment or a string: no control characters but the tab. -/
def isPlain (c : Char) : Bool := c == '\t' || (0x20 ≤ c.toNat && c.toNat != 0x7F)

def skipGap (cs : List Char) : List Char := cs.dropWhile isGap

/-- What follows a newline, if the text starts with one. -/
def newline? : List Char → Option (List Char)
  | '\n' :: rest => some rest
  | '\r' :: '\n' :: rest => some rest
  | _ => none

/-- What follows the newline that a string of several lines may start with. -/
def skipNewline (cs : List Char) : List Char := (newline? cs).getD cs

/-! ### Strings -/

/-- The character with this code point, written in hexadecimal. -/
def codePoint? (ds : List Char) : Option Char :=
  (Text.hexValue? ds).bind fun n => if n.isValidChar then some (Char.ofNat n) else none

/-- The character that a one-letter escape stands for. -/
def simpleEscape? : Char → Option Char
  | 'b' => some (Char.ofNat 8)
  | 'f' => some (Char.ofNat 12)
  | 'n' => some '\n'
  | 'r' => some '\r'
  | 't' => some '\t'
  | '"' => some '"'
  | '\\' => some '\\'
  | _ => none

/-- A basic string on one line after its opening quote. `acc` holds what was read, the newest
first; what follows the closing quote comes with the text. -/
def basic? (acc : List Char) : List Char → Option (List Char × List Char)
  | [] => none
  | '\\' :: 'u' :: a :: b :: c :: d :: rest =>
    match codePoint? [a, b, c, d] with
    | some x => basic? (x :: acc) rest
    | none => none
  | '\\' :: 'U' :: a :: b :: c :: d :: e :: f :: g :: h :: rest =>
    match codePoint? [a, b, c, d, e, f, g, h] with
    | some x => basic? (x :: acc) rest
    | none => none
  | '\\' :: e :: rest =>
    match simpleEscape? e with
    | some x => basic? (x :: acc) rest
    | none => none
  | c :: rest =>
    if c = '"' then some (acc.reverse, rest)
    else if isPlain c ∧ c ≠ '\\' then basic? (c :: acc) rest
    else none

/-- A literal string on one line after its opening quote. -/
def literal? (acc : List Char) : List Char → Option (List Char × List Char)
  | [] => none
  | c :: rest =>
    if c = '\'' then some (acc.reverse, rest)
    else if isPlain c then literal? (c :: acc) rest
    else none

/-- A basic string of several lines after its opening quotes. Up to two quotes may stand right
before the closing three. A backslash at the end of a line takes the blanks and newlines that follow
with it: `skipping` says that such a run is being passed over. -/
def basicLines? (skipping : Bool) (acc : List Char) : List Char → Option (List Char × List Char)
  | [] => none
  | '"' :: '"' :: '"' :: '"' :: '"' :: rest => some (('"' :: '"' :: acc).reverse, rest)
  | '"' :: '"' :: '"' :: '"' :: rest => some (('"' :: acc).reverse, rest)
  | '"' :: '"' :: '"' :: rest => some (acc.reverse, rest)
  | '\r' :: '\n' :: rest => basicLines? skipping (if skipping then acc else '\n' :: acc) rest
  | '\\' :: 'u' :: a :: b :: c :: d :: rest =>
    match codePoint? [a, b, c, d] with
    | some x => basicLines? false (x :: acc) rest
    | none => none
  | '\\' :: 'U' :: a :: b :: c :: d :: e :: f :: g :: h :: rest =>
    match codePoint? [a, b, c, d, e, f, g, h] with
    | some x => basicLines? false (x :: acc) rest
    | none => none
  | '\\' :: e :: rest =>
    match simpleEscape? e with
    | some x => basicLines? false (x :: acc) rest
    | none =>
      if (newline? (skipGap (e :: rest))).isSome then basicLines? true acc rest else none
  | c :: rest =>
    if skipping ∧ (isGap c ∨ c = '\n') then basicLines? true acc rest
    else if c = '\n' ∨ (isPlain c ∧ c ≠ '\\') then basicLines? false (c :: acc) rest
    else none

/-- A literal string of several lines after its opening quotes. -/
def literalLines? (acc : List Char) : List Char → Option (List Char × List Char)
  | [] => none
  | '\'' :: '\'' :: '\'' :: '\'' :: '\'' :: rest => some (('\'' :: '\'' :: acc).reverse, rest)
  | '\'' :: '\'' :: '\'' :: '\'' :: rest => some (('\'' :: acc).reverse, rest)
  | '\'' :: '\'' :: '\'' :: rest => some (acc.reverse, rest)
  | '\r' :: '\n' :: rest => literalLines? ('\n' :: acc) rest
  | c :: rest => if c = '\n' ∨ isPlain c then literalLines? (c :: acc) rest else none

/-- A string of any form, with what follows it. -/
def string? : List Char → Option (List Char × List Char)
  | '"' :: '"' :: '"' :: rest => basicLines? false [] (skipNewline rest)
  | '"' :: rest => basic? [] rest
  | '\'' :: '\'' :: '\'' :: rest => literalLines? [] (skipNewline rest)
  | '\'' :: rest => literal? [] rest
  | _ => none

/-! ### Integers -/

/-- Digits that single underscores may separate: the digits, with what follows them. -/
def digits? (isDigit : Char → Bool) (acc : List Char) : List Char → Option (List Char × List Char)
  | '_' :: d :: rest =>
    if acc ≠ [] ∧ isDigit d then digits? isDigit (d :: acc) rest else none
  | d :: rest =>
    if isDigit d then digits? isDigit (d :: acc) rest
    else if acc = [] ∨ d = '_' then none
    else some (acc.reverse, d :: rest)
  | [] => if acc = [] then none else some (acc.reverse, [])

/-- The value of digits in a base. -/
def valueIn (base : Nat) (ds : List Char) : Nat :=
  ds.foldl (fun n d => base * n + (Text.hexDigit? d).getD 0) 0

def isDigitBelow (base : Nat) (c : Char) : Bool :=
  match Text.hexDigit? c with
  | some n => n < base
  | none => false

/-- The integers that 64 bits hold. -/
def word? (i : Int) : Option Int :=
  if -0x8000000000000000 ≤ i ∧ i < 0x8000000000000000 then some i else none

/-- An integer in a base other than ten, after its mark. -/
def based? (base : Nat) (cs : List Char) : Option (Int × List Char) := do
  let (ds, rest) ← digits? (isDigitBelow base) [] cs
  return (← word? (valueIn base ds), rest)

/-- An integer in decimal, without leading zeros, after its sign. -/
def decimal? (negative : Bool) (cs : List Char) : Option (Int × List Char) :=
  match cs with
  | '0' :: rest => some (0, rest)
  | _ => do
    let (ds, rest) ← digits? (isDigitBelow 10) [] cs
    let n : Int := valueIn 10 ds
    return (← word? (if negative then -n else n), rest)

def integer? : List Char → Option (Int × List Char)
  | '0' :: 'x' :: rest => based? 16 rest
  | '0' :: 'o' :: rest => based? 8 rest
  | '0' :: 'b' :: rest => based? 2 rest
  | '+' :: rest => decimal? false rest
  | '-' :: rest => decimal? true rest
  | cs => decimal? false cs

/-! ### Assignments -/

def isBareKeyChar (c : Char) : Bool := c.isAlphanum || c == '-' || c == '_'

/-- A key, bare or quoted, with what follows it. -/
def key? (cs : List Char) : Option (List Char × List Char) :=
  match cs with
  | '"' :: rest => basic? [] rest
  | '\'' :: rest => literal? [] rest
  | _ =>
    let (name, rest) := cs.span isBareKeyChar
    if name.isEmpty then none else some (name, rest)

def scalar? (cs : List Char) : Option (Scalar × List Char) :=
  match cs with
  | '"' :: _ => (string? cs).map fun (s, rest) => (.string (String.ofList s), rest)
  | '\'' :: _ => (string? cs).map fun (s, rest) => (.string (String.ofList s), rest)
  | _ => (integer? cs).map fun (i, rest) => (.integer i, rest)

/-- What follows the end of a line: a gap, perhaps a comment, and a newline or the end. -/
def lineEnd? (cs : List Char) : Option (List Char) :=
  let rest := match skipGap cs with
    | '#' :: rest => rest.dropWhile isPlain
    | rest => rest
  if rest.isEmpty then some [] else newline? rest

/-- An assignment and the end of its line, with what follows. -/
def assignment? (cs : List Char) : Option ((String × Scalar) × List Char) := do
  let (name, rest) ← key? cs
  match skipGap rest with
  | '=' :: rest =>
    let (value, rest) ← scalar? (skipGap rest)
    return ((String.ofList name, value), ← lineEnd? rest)
  | _ => none

/-- The assignments of a document in their order. Each line takes a character, so the text's length
bounds the steps. -/
def assignments? (cs : List Char) : Option (List (String × Scalar)) :=
  go cs.length [] (match cs with
    | c :: rest => if c.toNat = 0xFEFF then rest else cs
    | [] => [])
where
  go : Nat → List (String × Scalar) → List Char → Option (List (String × Scalar))
    | _, acc, [] => some acc.reverse
    | 0, _, _ :: _ => none
    | n + 1, acc, cs =>
      match lineEnd? cs with
      | some rest => go n acc rest
      | none =>
        match assignment? (skipGap cs) with
        | some (a, rest) => go n (a :: acc) rest
        | none => none

end Toml
end LanInference
