/-
# White space and trimming

Lines from a server are trimmed by the Unicode property `White_Space`, names and URLs by one
character (a dot, a slash). All of it works on lists of characters.

Key definitions: `isBlank`, `dropTrailing`, `trimEnd`, `trim`, `stripTrailing`.
Key theorems: `dropTrailing_append_of_forall`, `dropTrailing_of_getLast?`,
`dropTrailing_append_of_getLast?`.
-/

namespace LanInference
namespace Text

/-- The characters with the Unicode property `White_Space`: 25 code points. -/
def isBlank (c : Char) : Bool :=
  let n := c.toNat
  (0x09 ≤ n && n ≤ 0x0D) || n == 0x20 || n == 0x85 || n == 0xA0 || n == 0x1680 ||
    (0x2000 ≤ n && n ≤ 0x200A) || n == 0x2028 || n == 0x2029 || n == 0x202F || n == 0x205F ||
    n == 0x3000

/-- The list without its longest ending whose members all satisfy `p`. -/
def dropTrailing (p : Char → Bool) (cs : List Char) : List Char :=
  (cs.reverse.dropWhile p).reverse

/-- The text without blanks at its end. -/
def trimEnd (cs : List Char) : List Char := dropTrailing isBlank cs

/-- The text without blanks at either end. -/
def trim (cs : List Char) : List Char := trimEnd (cs.dropWhile isBlank)

/-- The text without the copies of `c` at its end. -/
def stripTrailing (c : Char) (s : String) : String :=
  String.ofList (dropTrailing (· == c) s.toList)

/-- An ending of dropped characters leaves no trace. -/
theorem dropTrailing_append_of_forall (p : Char → Bool) (cs ds : List Char)
    (h : ∀ d ∈ ds, p d = true) : dropTrailing p (cs ++ ds) = dropTrailing p cs := by
  unfold dropTrailing
  rw [List.reverse_append, List.dropWhile_append_of_pos]
  intro d hd
  exact h d (List.mem_reverse.mp hd)

/-- Of two texts the second loses its ending, and the first only if nothing is left of that. -/
theorem dropTrailing_append (p : Char → Bool) (cs ds : List Char) :
    dropTrailing p (cs ++ ds) =
      if dropTrailing p ds = [] then dropTrailing p cs else cs ++ dropTrailing p ds := by
  unfold dropTrailing
  rw [List.reverse_append, List.dropWhile_append]
  by_cases h : ds.reverse.dropWhile p = []
  · simp [h]
  · simp [h]

theorem dropTrailing_prefix (p : Char → Bool) (cs : List Char) : dropTrailing p cs <+: cs := by
  have hsuffix : cs.reverse.dropWhile p <:+ cs.reverse := List.dropWhile_suffix p
  exact List.reverse_suffix.mp (by rwa [dropTrailing, List.reverse_reverse])

/-- A text whose last character is kept is kept whole. -/
theorem dropTrailing_of_getLast? (p : Char → Bool) (cs : List Char)
    (h : ∀ c, cs.getLast? = some c → p c = false) : dropTrailing p cs = cs := by
  unfold dropTrailing
  cases hr : cs.reverse with
  | nil => simp [List.reverse_eq_nil_iff.mp hr]
  | cons c r =>
    have hc : cs.getLast? = some c := by
      rw [← List.head?_reverse, hr]; rfl
    rw [List.dropWhile_cons_of_neg (by simp [h c hc]), ← hr, List.reverse_reverse]

/-- What is behind a character that is kept loses its ending alone. -/
theorem dropTrailing_append_of_getLast? {p : Char → Bool} {cs : List Char} {c : Char}
    (hlast : cs.getLast? = some c) (hkept : p c = false) (ds : List Char) :
    dropTrailing p (cs ++ ds) = cs ++ dropTrailing p ds := by
  have hcs : dropTrailing p cs = cs := dropTrailing_of_getLast? p cs fun d hd => by
    rw [hlast] at hd
    cases hd
    exact hkept
  rw [dropTrailing_append]
  split
  · rename_i hnil
    rw [hcs, hnil, List.append_nil]
  · rfl

end Text
end LanInference
