/-
# Names of hosts

A name is a row of labels with dots between them. A name may be in any script: its characters are
mapped to those that they stand for, and in ASCII a label that has other characters is a code behind
`xn--`. A name is right if its characters stand for themselves, every coded label can be read, and
the text of every label is composed, in such characters too, does not begin with a mark, and has
joiners and directions where they may be.

Key definitions: `mapped?`, `labelText?`, `isLabel`, `isName`, `asciiForm?`, `ofText?`.
Key theorems: `mapped?_of_isLowerAscii`, `ofText?_of_isName`.
-/
import LanInference.Net.NameMapping
import LanInference.Net.Punycode
import LanInference.Text.Composition
import LanInference.Text.Direction
import LanInference.Text.Joining

namespace LanInference
namespace DomainName

open Text

def isAscii (c : Char) : Bool := decide (c.toNat < 0x80)

/-- The characters that those of a name stand for. -/
def mapped? (cs : List Char) : Option (List Char) :=
  if cs.all isAscii then some (cs.map Char.toLower)
  else (cs.mapM NameMapping.meaning?).map fun parts => compose parts.flatten

/-! ### Labels -/

/-- How a coded label starts. -/
def codedStart : List Char := "xn--".toList

def isCoded (label : List Char) : Bool := codedStart.isPrefixOf label

/-- The greatest length of a code that is read. -/
def longestCode : Nat := 2000

/-- The greatest length of a text that is coded. -/
def longestText : Nat := 1000

/-- The text of a label. A code is in ASCII, and one that leaves nothing to write but ASCII is
none. -/
def labelText? (label : List Char) : Option (List Char) :=
  if isCoded label then
    let code := label.drop codedStart.length
    if label.all isAscii ∧ label.getLast? ≠ some '-' ∧ code.length ≤ longestCode then
      Punycode.decode? code
    else none
  else some label

/-- Whether a text can be that of a label. -/
def isLabel (text : List Char) : Bool :=
  text.all isAscii ||
    (text.all NameMapping.isPlain && compose text == text && !text.head?.any isMark &&
      joinersFit [] text)

/-- A label in ASCII. -/
def asciiLabel? (label : List Char) : Option (List Char) :=
  if label.all isAscii then some label
  else if label.length ≤ longestText then some (codedStart ++ Punycode.encode label)
  else none

/-! ### Names -/

/-- Whether a mapped name is right. -/
def isName (name : List Char) : Bool :=
  name.all NameMapping.isPlain &&
    match (name.splitOn '.').mapM labelText? with
    | some texts => texts.all isLabel && (!texts.any isLeftward || texts.all keepsOrder)
    | none => false

/-- A mapped name in ASCII. -/
def asciiForm? (name : List Char) : Option (List Char) :=
  if name.all isAscii then some name
  else ((name.splitOn '.').mapM asciiLabel?).map (List.intercalate ['.'])

/-- The name that a text is, in ASCII. -/
def ofText? (cs : List Char) : Option (List Char) :=
  (mapped? cs).bind fun name => if isName name then asciiForm? name else none

/-- Whether a name is in the form that names are brought into. -/
def isLowerAscii (name : List Char) : Bool := name.all fun c => isAscii c && c.toLower == c

theorem mapped?_of_isLowerAscii {name : List Char} (h : isLowerAscii name = true) :
    mapped? name = some name := by
  have h : ∀ c ∈ name, isAscii c = true ∧ c.toLower = c := by
    simpa [isLowerAscii, List.all_eq_true] using h
  have hlower : name.map Char.toLower = name := by
    conv => rhs; rw [← List.map_id name]
    exact List.map_congr_left fun c hc => (h c hc).2
  rw [mapped?, if_pos (List.all_eq_true.2 fun c hc => (h c hc).1), hlower]

/-- A right name in ASCII is read as itself. -/
theorem ofText?_of_isName {name : List Char} (hl : isLowerAscii name = true)
    (h : isName name = true) : ofText? name = some name := by
  have ha : name.all isAscii = true := by
    simp only [isLowerAscii, List.all_eq_true, Bool.and_eq_true] at hl
    exact List.all_eq_true.2 fun c hc => (hl c hc).1
  rw [ofText?, mapped?_of_isLowerAscii hl, Option.bind_some, if_pos h, asciiForm?, if_pos ha]

end DomainName
end LanInference
