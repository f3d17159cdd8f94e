/-
# Session ids

A session id is a number of 128 bits. It is written as 32 hexadecimal digits in groups of 8, 4, 4,
4 and 12 with hyphens between them, and read from that form, from the bare digits, from the form in
braces and from the form of a URN, the digits in either letter case. Readers of ids differ in the
letter case they take at the start of a URN, so reading is defined for each of them.

Key definitions: `SessionId`, `SessionId.text`, `SessionId.UrnReading`,
`SessionId.UrnReading.read?`, `SessionId.parse?`.
-/
import LanInference.Text.Digits

namespace LanInference

structure SessionId where
  value : BitVec 128
  deriving Repr, DecidableEq

namespace SessionId

/-- 32 digits in groups, with hyphens between them. -/
def hyphenated (ds : List Char) : List Char :=
  ds.take 8 ++ '-' :: ((ds.drop 8).take 4 ++ '-' :: ((ds.drop 12).take 4 ++ '-' ::
    ((ds.drop 16).take 4 ++ '-' :: ds.drop 20)))

def text (id : SessionId) : String :=
  String.ofList (hyphenated (Text.hexFixed 32 id.value.toNat))

/-- The id of 32 hexadecimal digits. -/
def ofDigits? (ds : List Char) : Option SessionId :=
  if ds.length = 32 then (Text.hexValue? ds).map fun n => ⟨BitVec.ofNat 128 n⟩ else none

/-- The id of 32 hexadecimal digits in groups with hyphens between them. -/
def ofHyphenated? (cs : List Char) : Option SessionId :=
  let ds := cs.take 8 ++ (cs.drop 9).take 4 ++ (cs.drop 14).take 4 ++ (cs.drop 19).take 4 ++
    cs.drop 24
  if cs.length = 36 ∧ hyphenated ds = cs then ofDigits? ds else none

/-- How a URN of an id starts, in lower case. -/
def urnStart : List Char := "urn:uuid:".toList

/-- What a reader takes as the start of a URN: the start in lower case, and possibly with other
letters in upper case, but no other text. -/
structure UrnReading where
  takes : List Char → Bool
  takes_urnStart : takes urnStart = true
  map_toLower_of_takes : ∀ {cs : List Char}, takes cs = true → cs.map Char.toLower = urnStart

namespace UrnReading

/-- The reader that takes the start in lower case only. -/
def lowerCase : UrnReading where
  takes cs := cs = urnStart
  takes_urnStart := by decide
  map_toLower_of_takes h := by
    rw [of_decide_eq_true h]
    decide

/-- The reader that takes the start in any letter case. -/
def anyCase : UrnReading where
  takes cs := cs.map Char.toLower = urnStart
  takes_urnStart := by decide
  map_toLower_of_takes h := of_decide_eq_true h

/-- The id of a text. -/
def read? (u : UrnReading) (s : String) : Option SessionId :=
  let cs := s.toList
  match cs.length with
  | 32 => ofDigits? cs
  | 36 => ofHyphenated? cs
  | 38 =>
    if cs.head? = some '{' ∧ cs.getLast? = some '}' then ofHyphenated? (cs.tail.dropLast) else none
  | 45 => if u.takes (cs.take 9) then ofHyphenated? (cs.drop 9) else none
  | _ => none

end UrnReading

/-- The id of a text, where a URN may start in any letter case. -/
def parse? (s : String) : Option SessionId := UrnReading.anyCase.read? s

end SessionId
end LanInference
