/-
# Direction of writing

Letters are written to the right or to the left, numbers to the right in either script, and other
characters as what is around them. Parts that stand side by side in one line keep their order if
each begins with a letter, ends with a letter or a number, and does not mix directions.

Key definitions: `Direction`, `direction`, `isLeftward`, `keepsOrder`.
-/
import LanInference.Text.Mark

namespace LanInference
namespace Text

/-- How a character is written. -/
inductive Direction where
  | rightward
  | leftward
  /-- A digit that goes with either script. -/
  | number
  /-- A digit that goes with letters written to the left. -/
  | arabicNumber
  /-- A mark: as its character. -/
  | mark
  /-- As what is around it. -/
  | neutral
  deriving Repr, DecidableEq

namespace Direction

/-- The marks that are written to the right by themselves. -/
def rightwardMarks : CodeSet := .ofText "cbf cc6 11a07-11a08 11c3f"

def ofLetter (cs : List Char) : Direction :=
  match cs with
  | ['r'] => leftward
  | ['n'] => number
  | ['a'] => arabicNumber
  | _ => neutral

/-- The characters that are no marks and not written to the right, of those a name can have. -/
def table : CodeTable Direction := .ofText (fun cs => ofLetter cs.tail) "
  0-2f=o 30-39=n 3a-60=o 7b-d7=o f7=o 2b9-2ba=o 2c2-2cf=o 2d2-2ed=o 2ef-2ff=o 375=o 3f6=o
  58a-58f=o 5be-5f4=r 606-607=o 608=r 609-60a=o 60b=r 60c=o 60d=r 60e-60f=o 61b-64a=r 660-669=a
  66a=o 66b-66c=a 66d-6d5=r 6de=o 6e5-6e6=r 6e9=o 6ee-6ef=r 6f0-6f9=n 6fa-7f5=r 7f6-7f9=o
  7fa-8c9=r 9f2-9f3=o 9fb=o af1=o bf3-bfa=o c78-c7e=o e3f=o f3a-f3d=o 1390-1399=o 1400=o
  169b-169c=o 17db=o 17f0-180a=o 1940-1945=o 19de-19ff=o 200c-214d=o 218a-2335=o 237b-2394=o
  2396-26ab=o 26ad-27ff=o 2900-2bff=o 2ce5-2cea=o 2cf9-2cff=o 2e00-3004=o 3008-3020=o 3030=o
  3037=o 303d-303f=o 30a0=o 30fb=o 31c0-31e5=o 4dc0-4dff=o a490-a4c6=o a60d-a60f=o a673-a67f=o
  a700-a721=o a788=o a828-a82b=o a838-a839=o a874-a877=o ab6a-ab6b=o fbb2-fbc2=r fbc3-fe46=o
  fe73=r 10101=o 10140-1018c=o 10190-101a0=o 102e1-102fb=n 10800-1091b=r 1091f=o 10920-10b35=r
  10b39-10b3f=o 10b40-10d23=r 10d30-10d49=a 10d4a-10d4f=r 10d6e=o 10d6f-10d8f=r 10e60-10e7e=a
  10e80-10ec7=r 10ed0-10ed8=o 10f00-10ff6=r 11052-11065=o 11660-1166c=o 11fd5-11ff1=o 16fe2=o
  1cc00-1cef0=o 1d1e9-1d245=o 1d300-1d356=o 1e2ff=o 1e800-1ed3d=r 1eef0-1f12f=o 1f16d-1f16f=o
  1f1ad=o 1f260-1fbfa=o"

end Direction

open Direction

def direction (c : Char) : Direction :=
  if isNonspacingMark c then if rightwardMarks.contains c then rightward else mark
  else (Direction.table.value? c).getD rightward

/-- Whether a text is written to the left in some part. Nothing of ASCII is. -/
def isLeftward (cs : List Char) : Bool :=
  cs.any fun c =>
    decide (0x80 ≤ c.toNat) && (direction c == leftward || direction c == arabicNumber)

/-- Whether a text keeps its order beside others that are written in the other direction. Marks do
not count as its end. -/
def keepsOrder (cs : List Char) : Bool :=
  match cs.map direction with
  | [] => true
  | first :: rest =>
    let last := (rest.reverse.find? (· ≠ mark)).getD first
    match first with
    | rightward =>
      rest.all ([rightward, number, neutral, mark].contains ·) &&
        [rightward, number].contains last
    | leftward =>
      rest.all ([leftward, number, arabicNumber, neutral, mark].contains ·) &&
        [leftward, number, arabicNumber].contains last &&
        !(rest.contains number && rest.contains arabicNumber)
    | _ => false

end Text
end LanInference
