/-
# What is written is a spelling

What is written for a tree spells its tokens, if the tree is `Writable`: numbers in it have the
digits that JSON asks for, and surrogates in its strings are in their range. So the reader takes a
written text as the tokens of its tree.

Key definitions: `Piece.Writable`, `Node.Writable`.
Key theorems: `Piece.spelled_write`, `Literal.spelled_write`, `spells_write`, `Node.spelled_write`.
-/
import LanInference.Json.Write
import LanInference.Proofs.Json.Grammar
import LanInference.Proofs.Text.Digits

namespace LanInference
namespace Json

/-! ### Strings -/

/-- A surrogate lies in its range. -/
def Piece.Writable : Piece → Prop
  | .char _ => True
  | .high n => n < 0x400
  | .low n => n < 0x400

theorem spelled_unitEscape {n : Nat} (h : n < 0x10000) :
    (Piece.ofUnit n).Spelled (unitEscape n) := by
  have hvalue : Text.hexValue? (Text.hexFixed 4 n) = some n := by
    rw [Text.hexValue?_hexFixed, Nat.mod_eq_of_lt (by omega)]
  rw [Text.hexFixed_four] at hvalue
  rw [unitEscape, Text.hexFixed_four]
  exact .unit hvalue

/-- How a character stands in a string: by a letter, by its digits, or as itself. -/
inductive Quoted (c : Char) : List Char → Prop
  | simple (e : Char) (he : simpleEscape? e = some c) (hp : 0x20 ≤ e.toNat) : Quoted c ['\\', e]
  | unit (hc : c.toNat < 0x20) : Quoted c (unitEscape c.toNat)
  | plain (hq : c ≠ '"') (hb : c ≠ '\\') (hc : 0x20 ≤ c.toNat) : Quoted c [c]

theorem quoted_quoteChar (c : Char) : Quoted c (quoteChar c) := by
  unfold quoteChar
  split
  · exact .simple '"' (by simp [simpleEscape?, *]) (by decide)
  split
  · exact .simple '\\' (by simp [simpleEscape?, *]) (by decide)
  split
  · exact .simple 'b' (by simp [simpleEscape?, *]) (by decide)
  split
  · exact .simple 'f' (by simp [simpleEscape?, *]) (by decide)
  split
  · exact .simple 'n' (by simp [simpleEscape?, *]) (by decide)
  split
  · exact .simple 'r' (by simp [simpleEscape?, *]) (by decide)
  split
  · exact .simple 't' (by simp [simpleEscape?, *]) (by decide)
  split
  · rename_i hc
    exact .unit hc
  · rename_i hq hb _ _ _ _ _ hc
    exact .plain hq hb (by omega)

theorem Quoted.spelled {c : Char} {cs : List Char} (h : Quoted c cs) :
    (Piece.char c).Spelled cs := by
  cases h with
  | simple e he _ => exact .simple he
  | unit hc =>
    have hu : Piece.ofUnit c.toNat = .char c := by
      rw [Piece.ofUnit, if_neg (by omega), if_neg (by omega), Char.ofNat_toNat]
    rw [← hu]
    exact spelled_unitEscape (by omega)
  | plain hq hb hc => exact .plain hq hb hc

theorem Piece.spelled_write {p : Piece} (hp : p.Writable) : p.Spelled p.write := by
  cases p with
  | char c => exact (quoted_quoteChar c).spelled
  | high n =>
    have hn : n < 0x400 := hp
    have hu : Piece.ofUnit (0xD800 + n) = .high n := by
      rw [Piece.ofUnit, if_pos (by omega), Nat.add_sub_cancel_left]
    have hs := spelled_unitEscape (n := 0xD800 + n) (by omega)
    rwa [hu] at hs
  | low n =>
    have hn : n < 0x400 := hp
    have hu : Piece.ofUnit (0xDC00 + n) = .low n := by
      rw [Piece.ofUnit, if_neg (by omega), if_pos (by omega), Nat.add_sub_cancel_left]
    have hs := spelled_unitEscape (n := 0xDC00 + n) (by omega)
    rwa [hu] at hs

theorem spelled_quote {ps : List Piece} (h : ∀ p ∈ ps, p.Writable) :
    (Token.string ps).Spelled (quote ps) := by
  refine .string ?_
  induction ps with
  | nil => exact .nil
  | cons p ps ih =>
    rw [List.flatMap_cons]
    exact .cons (Piece.spelled_write (h p List.mem_cons_self))
      (ih fun q hq => h q (List.mem_cons_of_mem p hq))

/-! ### Numbers -/

theorem Literal.spelled_write {n : Literal} (hn : n.Writable) : n.Spelled n.write := by
  have hletter : 'e' = 'e' ∨ 'e' = 'E' := .inl rfl
  obtain ⟨negative, whole, fraction, exponent⟩ := n
  rcases fraction with _ | ds <;> rcases exponent with _ | ⟨s, es⟩
  · exact .mk hn .none
  · cases s with
    | true => exact .mk hn (.minus es hletter)
    | false => exact .mk hn (.plus es hletter)
  · exact .mk hn .none
  · cases s with
    | true => exact .mk hn (.minus es hletter)
    | false => exact .mk hn (.plus es hletter)

/-! ### Trees -/

mutual

/-- Every number and every string of the tree can be written. -/
def Node.Writable : Node → Prop
  | .null => True
  | .bool _ => True
  | .number n => n.Writable
  | .string ps => ∀ p ∈ ps, p.Writable
  | .array xs => ItemsWritable xs
  | .object ms => MembersWritable ms

def ItemsWritable : List Node → Prop
  | [] => True
  | x :: xs => x.Writable ∧ ItemsWritable xs

def MembersWritable : List (List Piece × Node) → Prop
  | [] => True
  | (k, x) :: ms => (∀ p ∈ k, p.Writable) ∧ x.Writable ∧ MembersWritable ms

end

theorem separated_cons_cons (t u : List Char) (ts : List (List Char)) :
    separated (t :: u :: ts) = t ++ ',' :: separated (u :: ts) := rfl

theorem boundary_cons {c : Char} (h : c = ',' ∨ c = ']' ∨ c = '}') (cs : List Char) :
    Boundary (c :: cs) := by
  intro d hd
  cases hd
  rcases h with rfl | rfl | rfl <;> decide

mutual

/-- **What is written for a tree spells its tokens**, whatever follows it. -/
theorem spells_write : ∀ (x : Node), x.Writable → ∀ {rest : List Char} {ts : List Token},
    Boundary rest → Spells ts rest → Spells (x.tokens ++ ts) (x.write ++ rest)
  | .null, _, _, _, _, hr => .token .null (by simp) hr
  | .bool true, _, _, _, _, hr => .token .trueWord (by simp) hr
  | .bool false, _, _, _, _, hr => .token .falseWord (by simp) hr
  | .number _, hn, _, _, hb, hr =>
    .token (.number (Literal.spelled_write hn)) (fun _ _ => hb) hr
  | .string _, hp, _, _, _, hr => .token (spelled_quote hp) (by simp) hr
  | .array xs, hx, rest, ts, _, hr => by
    have hclose : Spells (.closeArray :: ts) (']' :: rest) := .token .closeArray (by simp) hr
    have hitems := spells_items xs hx (boundary_cons (by simp) rest) hclose
    simpa [Node.write, Node.tokens] using Spells.token .openArray (by simp) hitems
  | .object ms, hm, rest, ts, _, hr => by
    have hclose : Spells (.closeObject :: ts) ('}' :: rest) := .token .closeObject (by simp) hr
    have hmembers := spells_members ms hm (boundary_cons (by simp) rest) hclose
    simpa [Node.write, Node.tokens] using Spells.token .openObject (by simp) hmembers

theorem spells_items : ∀ (xs : List Node), ItemsWritable xs → ∀ {rest : List Char}
    {ts : List Token}, Boundary rest → Spells ts rest →
    Spells (Node.itemTokens xs ++ ts) (separated (Node.itemTexts xs) ++ rest)
  | [], _, _, _, _, hr => hr
  | [x], hx, _, _, hb, hr => by
    simpa [Node.itemTexts, separated, Node.itemTokens] using spells_write x hx.1 hb hr
  | x :: y :: xs, hx, rest, ts, hb, hr => by
    have hmore := Spells.token .comma (by simp) (spells_items (y :: xs) hx.2 hb hr)
    have hall := spells_write x hx.1 (boundary_cons (by simp) _) hmore
    simpa [Node.itemTexts, separated_cons_cons, Node.itemTokens] using hall

theorem spells_members : ∀ (ms : List (List Piece × Node)), MembersWritable ms →
    ∀ {rest : List Char} {ts : List Token}, Boundary rest → Spells ts rest →
    Spells (Node.memberTokens ms ++ ts) (separated (Node.memberTexts ms) ++ rest)
  | [], _, _, _, _, hr => hr
  | [(k, x)], hm, _, _, hb, hr => by
    have hvalue := Spells.token .colon (by simp) (spells_write x hm.2.1 hb hr)
    simpa [Node.memberTexts, separated, Node.memberTokens] using
      Spells.token (spelled_quote hm.1) (by simp) hvalue
  | (k, x) :: m :: ms, hm, rest, ts, hb, hr => by
    have hmore := Spells.token .comma (by simp) (spells_members (m :: ms) hm.2.2 hb hr)
    have hvalue := Spells.token .colon (by simp)
      (spells_write x hm.2.1 (boundary_cons (by simp) _) hmore)
    simpa [Node.memberTexts, separated_cons_cons, Node.memberTokens] using
      Spells.token (spelled_quote hm.1) (by simp) hvalue

end

/-- What is written for a tree is one of its texts. -/
theorem Node.spelled_write {x : Node} (hx : x.Writable) : x.Spelled x.write := by
  have hend : Boundary [] := by simp [Boundary]
  have h := spells_write x hx hend .nil
  rwa [List.append_nil, List.append_nil] at h

end Json
end LanInference
