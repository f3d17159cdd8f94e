/-
# How a JSON text is spelled

The grammar of JSON in its two levels. A token has its spellings: a character of a string stands for
itself, or is named by a letter or by four hexadecimal digits after a backslash; an exponent has
either letter, and its plus sign may be left out. A text spells tokens if it is their spellings in
order, with spaces between them. A number has no end of its own, so it must not be followed by a
character that could go on with it.

The reader takes a text that spells tokens as these tokens, and blanks may be cut off at both ends
of a text without a change in what it spells.

Key definitions: `Piece.Spelled`, `PiecesSpelled`, `Literal.Writable`, `Literal.Spelled`,
`Token.Spelled`, `Spells`, `Node.Spelled`.
Key theorems: `stringBody?_of_spelled`, `number?_of_spelled`, `token?_of_spelled`,
`tokens?_of_spells`, `Spells.trim`.
-/
import Mathlib.Data.List.Basic
import Mathlib.Data.List.TakeDrop
import Mathlib.Data.List.TakeWhile
import LanInference.Json.Node
import LanInference.Proofs.Text.Digits
import LanInference.Text.Trim

namespace LanInference
namespace Json

/-! ### Strings -/

/-- How an element of a string is spelled. -/
inductive Piece.Spelled : Piece → List Char → Prop
  | plain {c : Char} (hq : c ≠ '"') (hb : c ≠ '\\') (hc : 0x20 ≤ c.toNat) :
      Spelled (.char c) [c]
  | simple {e c : Char} (he : simpleEscape? e = some c) : Spelled (.char c) ['\\', e]
  | unit {a b c d : Char} {n : Nat} (hn : Text.hexValue? [a, b, c, d] = some n) :
      Spelled (.ofUnit n) ['\\', 'u', a, b, c, d]

/-- How the elements of a string are spelled, one after the other. -/
inductive PiecesSpelled : List Piece → List Char → Prop
  | nil : PiecesSpelled [] []
  | cons {p : Piece} {ps : List Piece} {cs ds : List Char} :
      p.Spelled cs → PiecesSpelled ps ds → PiecesSpelled (p :: ps) (cs ++ ds)

theorem stringBody?_plain {c : Char} (hq : c ≠ '"') (hb : c ≠ '\\') (hc : 0x20 ≤ c.toNat)
    (acc : List Piece) (rest : List Char) :
    stringBody? acc (c :: rest) = stringBody? (.char c :: acc) rest := by
  have hn : ¬ (c.toNat < 0x20 ∨ c = '\\') := by
    rintro (h | h)
    · omega
    · exact hb h
  rw [stringBody?.eq_def]
  split
  · rename_i h
    cases h
  · rename_i h
    exact absurd (List.cons.inj h).1 hb
  · rename_i h
    exact absurd (List.cons.inj h).1 hb
  · rename_i h
    obtain ⟨rfl, rfl⟩ := List.cons.inj h
    rw [if_neg hq, if_neg hn]

theorem stringBody?_simple {e c : Char} (he : simpleEscape? e = some c) (acc : List Piece)
    (rest : List Char) :
    stringBody? acc ('\\' :: e :: rest) = stringBody? (.char c :: acc) rest := by
  have hu : e ≠ 'u' := fun h => by
    subst h
    cases he
  rw [stringBody?.eq_def]
  split
  · rename_i h
    cases h
  · rename_i h
    exact absurd (List.cons.inj (List.cons.inj h).2).1 hu
  · rename_i h
    obtain ⟨rfl, rfl⟩ := List.cons.inj (List.cons.inj h).2
    rw [he]
  · rename_i hne h
    obtain ⟨rfl, rfl⟩ := List.cons.inj h
    exact absurd rfl (hne e rest rfl)

theorem stringBody?_unit {a b c d : Char} {n : Nat} (hn : Text.hexValue? [a, b, c, d] = some n)
    (acc : List Piece) (rest : List Char) :
    stringBody? acc ('\\' :: 'u' :: a :: b :: c :: d :: rest) =
      stringBody? (.ofUnit n :: acc) rest := by
  simp only [Text.hexValue?, List.foldlM_cons, List.foldlM_nil] at hn
  obtain ⟨_, ha, hn⟩ := Option.bind_eq_some_iff.mp hn
  obtain ⟨_, hb, hn⟩ := Option.bind_eq_some_iff.mp hn
  obtain ⟨_, hc, hn⟩ := Option.bind_eq_some_iff.mp hn
  obtain ⟨_, hd, hn⟩ := Option.bind_eq_some_iff.mp hn
  obtain ⟨x, hx, rfl⟩ := Option.map_eq_some_iff.mp ha
  obtain ⟨y, hy, rfl⟩ := Option.map_eq_some_iff.mp hb
  obtain ⟨z, hz, rfl⟩ := Option.map_eq_some_iff.mp hc
  obtain ⟨w, hw, rfl⟩ := Option.map_eq_some_iff.mp hd
  have hsum : ((x * 16 + y) * 16 + z) * 16 + w = n := by
    rw [← Option.some.inj hn]
    omega
  rw [stringBody?]
  simp only [stringBody?.hexDigit, hx, hy, hz, hw, hsum]

theorem stringBody?_piece {p : Piece} {cs : List Char} (h : p.Spelled cs) (acc : List Piece)
    (rest : List Char) : stringBody? acc (cs ++ rest) = stringBody? (p :: acc) rest := by
  cases h with
  | plain hq hb hc => exact stringBody?_plain hq hb hc acc rest
  | simple he => exact stringBody?_simple he acc rest
  | unit hn => exact stringBody?_unit hn acc rest

/-- A string is read up to the quote that closes it. -/
theorem stringBody?_of_spelled {ps : List Piece} {cs : List Char} (h : PiecesSpelled ps cs)
    (acc : List Piece) (rest : List Char) :
    stringBody? acc (cs ++ '"' :: rest) = some (acc.reverse ++ ps, rest) := by
  induction h generalizing acc with
  | nil =>
    rw [List.nil_append, List.append_nil, stringBody?.eq_def]
    rfl
  | cons hp _ ih =>
    rw [List.append_assoc, stringBody?_piece hp, ih]
    simp

/-! ### Numbers -/

/-- At least one digit, and nothing else. -/
def Digits (ds : List Char) : Prop := ds ≠ [] ∧ ∀ c ∈ ds, c.isDigit = true

/-- A number as JSON has it: digits in each of its parts, and no leading zero. -/
structure Literal.Writable (n : Literal) : Prop where
  whole : Digits n.whole
  leading : n.whole.head? = some '0' → n.whole.length = 1
  fraction : ∀ ds, n.fraction = some ds → Digits ds
  exponent : ∀ s ds, n.exponent = some (s, ds) → Digits ds

/-- The text of a fraction. -/
def fractionText : Option (List Char) → List Char
  | some ds => '.' :: ds
  | none => []

/-- How an exponent is spelled. -/
inductive ExponentSpelled : Option (Bool × List Char) → List Char → Prop
  | none : ExponentSpelled none []
  | minus {e : Char} (ds : List Char) : e = 'e' ∨ e = 'E' →
      ExponentSpelled (some (true, ds)) (e :: '-' :: ds)
  | plus {e : Char} (ds : List Char) : e = 'e' ∨ e = 'E' →
      ExponentSpelled (some (false, ds)) (e :: '+' :: ds)
  | bare {e : Char} (ds : List Char) : e = 'e' ∨ e = 'E' →
      ExponentSpelled (some (false, ds)) (e :: ds)

/-- How a number is spelled. -/
inductive Literal.Spelled (n : Literal) : List Char → Prop
  | mk {es : List Char} : n.Writable → ExponentSpelled n.exponent es →
      Spelled n ((if n.negative then ['-'] else []) ++ n.whole ++ fractionText n.fraction ++ es)

/-- What follows does not go on with a number. -/
def Boundary (rest : List Char) : Prop :=
  ∀ c, rest.head? = some c → c.isDigit = false ∧ c ≠ '.' ∧ c ≠ 'e' ∧ c ≠ 'E'

/-- Digits end where something else starts. -/
theorem takeWhile_digits {ds rest : List Char} (h : ∀ c ∈ ds, c.isDigit = true)
    (hr : ∀ c, rest.head? = some c → c.isDigit = false) :
    (ds ++ rest).takeWhile Char.isDigit = ds ∧ (ds ++ rest).dropWhile Char.isDigit = rest := by
  have hspan := Text.span_append h hr
  rw [List.span_eq_takeWhile_dropWhile] at hspan
  exact Prod.mk.inj hspan

/-- Digits do not start with a sign. -/
theorem Digits.append_ne {ds : List Char} (h : Digits ds) {sign : Char}
    (hsign : sign.isDigit = false) (cs rest : List Char) : ds ++ cs ≠ sign :: rest := by
  intro he
  cases ds with
  | nil => exact h.1 rfl
  | cons d ds =>
    have hd := h.2 d List.mem_cons_self
    rw [(List.cons.inj he).1, hsign] at hd
    cases hd

theorem fractionPart?_of_spelled {fraction : Option (List Char)} {rest : List Char}
    (hf : ∀ ds, fraction = some ds → Digits ds)
    (hr : ∀ c, rest.head? = some c → c.isDigit = false ∧ c ≠ '.') :
    fractionPart? (fractionText fraction ++ rest) = some (fraction, rest) := by
  cases fraction with
  | none =>
    rw [fractionText, List.nil_append, fractionPart?.eq_def]
    split
    · rename_i cs _
      exact absurd rfl (hr '.' rfl).2
    · rfl
  | some ds =>
    obtain ⟨hne, hd⟩ := hf ds rfl
    simp [fractionText, fractionPart?, takeWhile_digits hd fun c hc => (hr c hc).1, hne]

theorem exponentPart?_of_spelled {exponent : Option (Bool × List Char)} {es rest : List Char}
    (h : ExponentSpelled exponent es) (he : ∀ s ds, exponent = some (s, ds) → Digits ds)
    (hr : Boundary rest) : exponentPart? (es ++ rest) = some (exponent, rest) := by
  have hdigits : ∀ {s : Bool} {ds : List Char}, exponent = some (s, ds) →
      (ds ++ rest).takeWhile Char.isDigit = ds ∧ (ds ++ rest).dropWhile Char.isDigit = rest :=
    fun {s ds} hs => takeWhile_digits (he s ds hs).2 fun c hc => (hr c hc).1
  cases h with
  | none =>
    cases rest with
    | nil => rfl
    | cons c rest =>
      obtain ⟨_, _, h1, h2⟩ := hr c rfl
      simp [exponentPart?, h1, h2]
  | minus ds hletter => simp [exponentPart?, hletter, hdigits rfl, (he _ ds rfl).1]
  | plus ds hletter => simp [exponentPart?, hletter, hdigits rfl, (he _ ds rfl).1]
  | bare ds hletter =>
    have hd := he _ ds rfl
    simp [exponentPart?, hletter, hdigits rfl, hd.1, hd.append_ne (by decide : '+'.isDigit = false),
      hd.append_ne (by decide : '-'.isDigit = false)]

/-- An exponent does not go on with digits or a fraction, and a fraction not with digits. -/
theorem ExponentSpelled.head?_append {exponent : Option (Bool × List Char)} {es rest : List Char}
    (h : ExponentSpelled exponent es) (hr : Boundary rest) (c : Char)
    (hc : (es ++ rest).head? = some c) : c.isDigit = false ∧ c ≠ '.' := by
  have hletter : ∀ {e : Char}, e = 'e' ∨ e = 'E' → e.isDigit = false ∧ e ≠ '.' := by
    rintro e (rfl | rfl) <;> decide
  cases h with
  | none => exact ⟨(hr c hc).1, (hr c hc).2.1⟩
  | minus ds he | plus ds he | bare ds he =>
    cases hc
    exact hletter he

theorem head?_fractionText (fraction : Option (List Char)) {rest : List Char}
    (hr : ∀ c, rest.head? = some c → c.isDigit = false) (c : Char)
    (h : (fractionText fraction ++ rest).head? = some c) : c.isDigit = false := by
  cases fraction with
  | none => exact hr c h
  | some ds =>
    cases h
    decide

/-- A number is read up to its boundary. -/
theorem number?_of_spelled {n : Literal} {cs rest : List Char} (h : n.Spelled cs)
    (hr : Boundary rest) : number? (cs ++ rest) = some (n, rest) := by
  obtain ⟨hn, hes⟩ := h
  rename_i es
  obtain ⟨negative, whole, fraction, exponent⟩ := n
  obtain ⟨hw, hl, hfd, hxd⟩ := hn
  simp only at hw hl hfd hxd hes
  have he := hes.head?_append hr
  have hs := takeWhile_digits hw.2
    (head?_fractionText fraction fun c hc => (he c hc).1)
  have hf := fractionPart?_of_spelled hfd he
  have hx := exponentPart?_of_spelled hes hxd hr
  simp only [List.append_assoc]
  cases negative with
  | true => simpa [number?, hs, hf, hx, hw.1] using hl
  | false =>
    have hsign := hw.append_ne (by decide : '-'.isDigit = false)
    simpa [number?, hsign, hs, hf, hx, hw.1] using hl

/-- A number starts with a sign or a digit, and no other token does. -/
theorem token?_of_number {c : Char} (hc : c = '-' ∨ c.isDigit = true) (cs : List Char) :
    token? (c :: cs) = (number? (c :: cs)).map fun (n, rest) => (.number n, rest) := by
  rw [token?.eq_def]
  split
  case h_11 => rfl
  all_goals
    rename_i h
    obtain ⟨rfl, rfl⟩ := List.cons.inj h
    exact absurd hc (by decide)

theorem Literal.Spelled.starts {n : Literal} {cs : List Char} (h : n.Spelled cs) :
    ∃ c ds, cs = c :: ds ∧ (c = '-' ∨ c.isDigit = true) := by
  obtain ⟨hn, -⟩ := h
  obtain ⟨hne, hd⟩ := hn.whole
  cases n.negative with
  | true => exact ⟨'-', _, rfl, .inl rfl⟩
  | false =>
    cases hw : n.whole with
    | nil => exact absurd hw hne
    | cons c cs => exact ⟨c, _, rfl, .inr (hd c (by simp [hw]))⟩

/-- A number ends with a digit. -/
theorem Literal.Spelled.ends {n : Literal} {cs : List Char} (h : n.Spelled cs) :
    ∃ c, cs.getLast? = some c ∧ c.isDigit = true := by
  have hlast : ∀ {ds : List Char} (front : List Char), Digits ds →
      ∃ c, (front ++ ds).getLast? = some c ∧ c.isDigit = true := fun {ds} front hd => by
    rw [List.getLast?_append_of_ne_nil _ hd.1, List.getLast?_eq_some_getLast hd.1]
    exact ⟨_, rfl, hd.2 _ (List.getLast_mem hd.1)⟩
  obtain ⟨hn, hes⟩ := h
  rename_i es
  cases hexponent : n.exponent with
  | none =>
    rw [hexponent] at hes
    cases hes
    rw [List.append_nil]
    cases hfraction : n.fraction with
    | none =>
      rw [fractionText, List.append_nil]
      exact hlast _ hn.whole
    | some ds =>
      rw [fractionText, List.append_cons]
      exact hlast _ (hn.fraction ds hfraction)
  | some e =>
    obtain ⟨s, ds⟩ := e
    have hd := hn.exponent s ds hexponent
    rw [hexponent] at hes
    cases hes with
    | minus | plus =>
      rw [List.append_cons, List.append_cons]
      exact hlast _ hd
    | bare =>
      rw [List.append_cons]
      exact hlast _ hd

/-! ### Tokens -/

/-- How a token is spelled. -/
inductive Token.Spelled : Token → List Char → Prop
  | openArray : Spelled .openArray ['[']
  | closeArray : Spelled .closeArray [']']
  | openObject : Spelled .openObject ['\x7b']
  | closeObject : Spelled .closeObject ['\x7d']
  | comma : Spelled .comma [',']
  | colon : Spelled .colon [':']
  | null : Spelled .null ['n', 'u', 'l', 'l']
  | trueWord : Spelled (.bool true) ['t', 'r', 'u', 'e']
  | falseWord : Spelled (.bool false) ['f', 'a', 'l', 's', 'e']
  | number {n : Literal} {cs : List Char} (h : n.Spelled cs) : Spelled (.number n) cs
  | string {ps : List Piece} {cs : List Char} (h : PiecesSpelled ps cs) :
      Spelled (.string ps) ('"' :: (cs ++ ['"']))

/-- How tokens are spelled: in order, with spaces before, between and after them. -/
inductive Spells : List Token → List Char → Prop
  | nil : Spells [] []
  | space {c : Char} {ts : List Token} {cs : List Char} : isSpace c = true → Spells ts cs →
      Spells ts (c :: cs)
  | token {t : Token} {ts : List Token} {cs rest : List Char} : t.Spelled cs →
      (∀ n, t = .number n → Boundary rest) → Spells ts rest → Spells (t :: ts) (cs ++ rest)

/-- The texts of a tree. -/
def Node.Spelled (x : Node) (cs : List Char) : Prop := Spells x.tokens cs

theorem isBlank_of_isSpace {c : Char} (h : isSpace c = true) : Text.isBlank c = true := by
  simp only [isSpace, Bool.or_eq_true, beq_iff_eq] at h
  rcases h with ((rfl | rfl) | rfl) | rfl <;> decide

theorem not_isBlank_of_isDigit {c : Char} (h : c.isDigit = true) : Text.isBlank c = false := by
  rw [Char.isDigit, Bool.and_eq_true, decide_eq_true_eq, decide_eq_true_eq, ge_iff_le,
    UInt32.le_iff_toNat_le, UInt32.le_iff_toNat_le] at h
  have hlow : 48 ≤ c.toNat := h.1
  have hhigh : c.toNat ≤ 57 := h.2
  simp only [Text.isBlank, Bool.or_eq_false_iff, Bool.and_eq_false_iff, decide_eq_false_iff_not,
    beq_eq_false_iff_ne]
  omega

namespace Token.Spelled

variable {t : Token} {cs rest : List Char}

/-- A token starts and ends with characters that are not blank. -/
theorem starts (h : t.Spelled cs) : ∃ c ds, cs = c :: ds ∧ Text.isBlank c = false := by
  cases h with
  | number h =>
    obtain ⟨c, ds, rfl, hc⟩ := h.starts
    refine ⟨c, ds, rfl, ?_⟩
    rcases hc with rfl | hc
    · decide
    · exact not_isBlank_of_isDigit hc
  | _ => exact ⟨_, _, rfl, by decide⟩

theorem ends (h : t.Spelled cs) : ∀ c, cs.getLast? = some c → Text.isBlank c = false := by
  intro c hc
  cases h with
  | number h =>
    obtain ⟨d, hd, hdigit⟩ := h.ends
    obtain rfl : d = c := Option.some.inj (hd.symm.trans hc)
    exact not_isBlank_of_isDigit hdigit
  | string h =>
    rw [← List.cons_append, List.getLast?_concat] at hc
    cases hc
    decide
  | _ =>
    cases hc
    decide

end Token.Spelled

/-- A token is read up to its end. -/
theorem token?_of_spelled {t : Token} {cs rest : List Char} (h : t.Spelled cs)
    (hr : ∀ n, t = .number n → Boundary rest) : token? (cs ++ rest) = some (t, rest) := by
  cases h with
  | number hn =>
    obtain ⟨c, ds, rfl, hc⟩ := hn.starts
    rw [List.cons_append, token?_of_number hc, ← List.cons_append,
      number?_of_spelled hn (hr _ rfl)]
    rfl
  | string hp =>
    simp only [List.cons_append, List.append_assoc, List.nil_append, token?]
    rw [stringBody?_of_spelled hp]
    rfl
  | _ => rfl

theorem go_of_spells {ts : List Token} {cs : List Char} (h : Spells ts cs) :
    ∀ (n : Nat) (acc : List Token), cs.length ≤ n →
      tokens?.go n acc cs = some (acc.reverse ++ ts) := by
  induction h with
  | nil =>
    intro n acc _
    cases n <;> simp [tokens?.go]
  | space hc _ ih =>
    intro n acc hn
    cases n with
    | zero => simp at hn
    | succ n =>
      rw [tokens?.go, if_pos hc]
      exact ih n acc (by simpa using hn)
  | token ht hr _ ih =>
    intro n acc hn
    obtain ⟨c, ds, rfl, hc⟩ := ht.starts
    have hspace : ¬ isSpace c = true := fun hs => by
      rw [isBlank_of_isSpace hs] at hc
      cases hc
    cases n with
    | zero => simp at hn
    | succ n =>
      have hread := token?_of_spelled ht hr
      rw [List.cons_append] at hread hn ⊢
      rw [tokens?.go, if_neg hspace, hread]
      simp only
      rw [ih n _ (by simp only [List.length_cons, List.length_append] at hn; omega)]
      simp

/-- **A text that spells tokens is read as these tokens.** -/
theorem tokens?_of_spells {ts : List Token} {cs : List Char} (h : Spells ts cs) :
    tokens? cs = some ts := by
  rw [tokens?, go_of_spells h _ _ (Nat.le_refl _)]
  rfl

/-! ### Blanks around a text -/

namespace Spells

variable {ts : List Token} {cs : List Char}

theorem dropWhile_isBlank (h : Spells ts cs) : Spells ts (cs.dropWhile Text.isBlank) := by
  induction h with
  | nil => exact .nil
  | space hc _ ih => rwa [List.dropWhile_cons_of_pos (isBlank_of_isSpace hc)]
  | token ht hr hrest =>
    obtain ⟨c, ds, rfl, hc⟩ := ht.starts
    rw [List.cons_append, List.dropWhile_cons_of_neg (by simp [hc]), ← List.cons_append]
    exact .token ht hr hrest

theorem trimEnd (h : Spells ts cs) : Spells ts (Text.trimEnd cs) := by
  induction h with
  | nil => exact .nil
  | @space c ts cs hc _ ih =>
    have hcons : Text.trimEnd (c :: cs) =
        if Text.trimEnd cs = [] then Text.trimEnd [c] else c :: Text.trimEnd cs :=
      Text.dropTrailing_append Text.isBlank [c] cs
    rw [hcons]
    split
    · rename_i hnil
      have hblank : Text.trimEnd [c] = [] := by
        simp [Text.trimEnd, Text.dropTrailing, isBlank_of_isSpace hc]
      rwa [hblank, ← hnil]
    · exact .space hc ih
  | @token t ts cs rest ht hr _ ih =>
    have hkept : Text.trimEnd (cs ++ rest) = cs ++ Text.trimEnd rest := by
      have happend : Text.trimEnd (cs ++ rest) =
          if Text.trimEnd rest = [] then Text.trimEnd cs else cs ++ Text.trimEnd rest :=
        Text.dropTrailing_append Text.isBlank cs rest
      rw [happend]
      split
      · rename_i hnil
        rw [hnil, List.append_nil]
        exact Text.dropTrailing_of_getLast? _ _ ht.ends
      · rfl
    rw [hkept]
    obtain ⟨ds, hds⟩ : Text.trimEnd rest <+: rest := Text.dropTrailing_prefix _ _
    refine .token ht (fun n hn c hc => hr n hn c ?_) ih
    rw [← hds, List.head?_append, hc]
    rfl

/-- Blanks around a text change nothing in what it spells. -/
theorem trim {before after : List Char} (h : Spells ts cs)
    (hb : ∀ c ∈ before, Text.isBlank c = true) (ha : ∀ c ∈ after, Text.isBlank c = true) :
    Spells ts (Text.trim (before ++ cs ++ after)) := by
  have hstart := h.dropWhile_isBlank
  rw [Text.trim, List.append_assoc, List.dropWhile_append_of_pos hb, List.dropWhile_append]
  split
  · rename_i hnil
    rw [List.isEmpty_iff.mp hnil] at hstart
    rwa [List.dropWhile_eq_nil_iff.mpr ha]
  · have hend : Text.trimEnd (cs.dropWhile Text.isBlank ++ after) =
        Text.trimEnd (cs.dropWhile Text.isBlank) :=
      Text.dropTrailing_append_of_forall _ _ _ ha
    rw [hend]
    exact hstart.trimEnd

/-- A space at the front may be left out. -/
theorem of_space {c : Char} (hc : isSpace c = true) (h : Spells ts (c :: cs)) : Spells ts cs := by
  generalize hcs : c :: cs = text at h
  cases h with
  | nil => cases hcs
  | space _ h =>
    obtain ⟨-, rfl⟩ := List.cons.inj hcs
    exact h
  | token ht =>
    obtain ⟨d, ds, rfl, hd⟩ := ht.starts
    obtain ⟨rfl, -⟩ := List.cons.inj hcs
    rw [isBlank_of_isSpace hc] at hd
    cases hd

end Spells

end Json
end LanInference
