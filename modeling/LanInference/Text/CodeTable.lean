/-
# Tables of characters

A property of characters is given by ranges of code points, each with a value. A table keeps its
ranges in ascending order and finds the one that holds a character by halving. It is written as a
text of entries with blanks between them: a code point in hexadecimal or a range of them as
`first-last`, and behind it whatever tells the value.

Key definitions: `CodeRange`, `CodeTable`, `CodeTable.range?`, `CodeTable.ofText`, `CodeSet`,
`SequenceTable`.
-/
import LanInference.Text.Digits

namespace LanInference
namespace Text

/-- The code points from `first` to `last` and what is said of them. -/
structure CodeRange (α : Type) where
  first : Nat
  last : Nat
  value : α

structure CodeTable (α : Type) where
  ranges : Array (CodeRange α)

namespace CodeTable
variable {α : Type}

/-- The range that holds a code point, looked for in the places from `low` up to `high`. -/
def rangeBetween? (t : CodeTable α) (code low high : Nat) : Option (CodeRange α) :=
  if low < high then
    let middle := (low + high) / 2
    match t.ranges[middle]? with
    | none => none
    | some r =>
      if code < r.first then rangeBetween? t code low middle
      else if r.last < code then rangeBetween? t code (middle + 1) high
      else some r
  else none
termination_by high - low

def range? (t : CodeTable α) (c : Char) : Option (CodeRange α) :=
  t.rangeBetween? c.toNat 0 t.ranges.size

/-- What is said of a character. -/
def value? (t : CodeTable α) (c : Char) : Option α := (t.range? c).map CodeRange.value

/-- A code point in hexadecimal. -/
def code (ds : List Char) : Nat := (hexValue? ds).getD 0

/-- The range of an entry. What stands behind its code points tells the value. -/
def entry (value : List Char → α) (cs : List Char) : CodeRange α :=
  let (ends, rest) := cs.span fun c => c.isAlphanum || c == '-'
  let (first, last) := ends.span (· ≠ '-')
  { first := code first
    last := if last = [] then code first else code last.tail
    value := value rest }

/-- The table that a text describes. -/
def ofText (value : List Char → α) (s : String) : CodeTable α :=
  ⟨(((s.toList.splitOnP fun c => c == ' ' || c == '\n').filter (· ≠ [])).map (entry value)).toArray⟩

end CodeTable

/-- A set of characters, by its ranges. -/
abbrev CodeSet := CodeTable Unit

namespace CodeSet

def ofText (s : String) : CodeSet := CodeTable.ofText (fun _ => ()) s

def contains (t : CodeSet) (c : Char) : Bool := (t.range? c).isSome

end CodeSet

/-- For each character of a range a sequence of others. -/
abbrev SequenceTable := CodeTable (Array (List Char))

namespace SequenceTable

/-- Code points with points between them. -/
def sequenceOf (cs : List Char) : List Char :=
  (cs.splitOn '.').map fun ds => Char.ofNat (CodeTable.code ds)

/-- The table of a text whose entries give the sequences behind an equals sign, with commas between
them. -/
def ofText (s : String) : SequenceTable :=
  CodeTable.ofText (fun cs => ((cs.tail.splitOn ',').map sequenceOf).toArray) s

def sequence? (t : SequenceTable) (c : Char) : Option (List Char) :=
  (t.range? c).bind fun r => r.value[c.toNat - r.first]?

end SequenceTable
end Text
end LanInference
